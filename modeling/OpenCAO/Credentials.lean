import OpenCAO.Secrets
import OpenCAO.Urls

/-!
# Credentials of others

What a Worker writes is scanned for credentials of other systems before it is kept: for
the forms of well-known tokens and keys, for an assignment to a name such as `password`,
and for a URL that names a user. The forms are looked for in the text as NFKC normalizes
it, and without regard to case, where Unicode has letters that are the other case of a
letter of ASCII.

The URLs are cut out by a pattern, and punctuation at their end is taken off, as a
sentence or a pair of brackets may have put it there. But a closing bracket may also
belong to the address of the host, and a URL that has lost one is none that `urlsplit`
takes apart. The `ValueError` that it raises then is nobody's: the scan does not return.
-/

namespace Credentials

open Secrets (isAlnum isTokenChar)

/-! ## Letters without case -/

/-- The letter that `re.IGNORECASE` compares. -/
def fold (c : ℕ) : ℕ :=
  if 0x41 ≤ c ∧ c ≤ 0x5a then c + 0x20
  else if c = 0x130 ∨ c = 0x131 then 0x69
  else if c = 0x17f then 0x73
  else if c = 0x212a then 0x6b
  else c

/-- A letter of a class, without case. -/
def oneOf (p : ℕ → Bool) : Regex ℕ := .one fun c => p (fold c)

/-- A word, without case. -/
def word (s : String) : Regex ℕ := .chain ((Text.ofString s).map fun a => oneOf (· = fold a))

/-- `\b`. -/
def boundary (lib : Library) : Regex ℕ :=
  .check fun a b =>
    (a.any fun c => lib.isAlnum c || c == 0x5f) != (b.any fun c => lib.isAlnum c || c == 0x5f)

/-- A letter or digit, once the case is folded. -/
def isAlnumFolded (c : ℕ) : Bool := (0x30 ≤ c && c ≤ 0x39) || (0x61 ≤ c && c ≤ 0x7a)

/-- `\s*`. -/
def spaces : Regex ℕ := .many (.one Text.isSpace)

/-- `[^\s,;]`. -/
def isValueChar (c : ℕ) : Bool := !Text.isSpace c && c != 0x2c && c != 0x3b

/-- `[ _-]?`. -/
def joint : Regex ℕ := .opt (.one (· ∈ Text.ofString " _-"))

/-! ## The patterns -/

/-- **`_GENERIC_CREDENTIAL_PATTERN`**. -/
def genericCredentialPattern (lib : Library) : Regex ℕ :=
  let b := boundary lib
  .anyOf [
    .chain [b, word "github_pat_", .atLeast 20 (oneOf fun c => isAlnumFolded c || c == 0x5f), b],
    .chain [b, word "gh", oneOf (· ∈ Text.ofString "oprsu"), word "_",
      .atLeast 30 (oneOf isAlnumFolded), b],
    .chain [b, word "xox", oneOf (· ∈ Text.ofString "baprs"), word "-",
      .atLeast 10 (oneOf fun c => isAlnumFolded c || c == 0x2d), b],
    .chain [b, word "sk-", .opt (word "proj-"),
      .atLeast 16 (oneOf fun c => isAlnumFolded c || c == 0x5f || c == 0x2d), b],
    .chain [word "-----BEGIN", .many (.seq (word " ") (.plus (oneOf isAlnumFolded))),
      word " PRIVATE KEY-----"],
    .chain [b, word "Authorization", spaces, word ":", spaces, .anyOf [word "Bearer", word "Basic"],
      .plus (.one Text.isSpace), .plus (.one isValueChar)],
    .chain [b, word "Bearer", .plus (.one Text.isSpace),
      .atLeast 20 (oneOf fun c => isAlnumFolded c || c ∈ Text.ofString "._~+/=-")],
    .chain [b, word "AKIA", .times 16 (oneOf isAlnumFolded), b],
    .chain [b, .many (.seq (.plus (oneOf isAlnumFolded)) (.one (· ∈ Text.ofString "_-"))),
      .anyOf [
        .chain [word "api", joint, word "key"],
        .chain [word "access", joint, word "token"],
        .chain [word "auth", joint, word "token"],
        .chain [word "refresh", joint, word "token"],
        .chain [word "client", joint, word "secret"],
        .chain [word "private", joint, word "key"],
        .chain [word "secret", joint, word "access", joint, word "key"],
        word "password"],
      spaces, .one (· ∈ Text.ofString ":="), spaces, .atLeast 12 (.one isValueChar)]]

/-- **`_GENERIC_CREDENTIAL_HTTP_URL_PATTERN`**. -/
def httpUrlPattern (lib : Library) : Regex ℕ :=
  .chain [boundary lib, word "http", .opt (word "s"), word "://",
    .plus (.one fun c => !Text.isSpace c && c ∉ Text.ofString "<>\"'")]

/-- `rstrip(".,;:!?)]}")`. -/
def stripPunctuation (t : Text) : Text := t.rdropWhile (· ∈ Text.ofString ".,;:!?)]\x7d")

/-- The URLs of a text, as they are cut out. -/
def candidates (lib : Library) (t : Text) : List Text :=
  ((httpUrlPattern lib).finditer t).1.map fun m => stripPunctuation m.text

/-! ## The scan of a text -/

/-- One of the URLs names a user. -/
def anyUserinfo (lib : Library) : List Text → Except ValueError Bool
  | [] => .ok false
  | candidate :: rest => do
    let parsed ← Url.urlsplit lib candidate
    if parsed.username.isSome || parsed.password.isSome then .ok true else anyUserinfo lib rest

/-- **`contains_generic_credential_text`**. -/
def containsGenericCredentialText (lib : Library) (value : Text) : Except ValueError Bool :=
  let normalized := lib.nfkc value
  if ((genericCredentialPattern lib).search normalized).isSome then .ok true
  else anyUserinfo lib (candidates lib normalized)

end Credentials
