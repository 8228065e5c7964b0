import OpenCAO.Credentials

/-!
# What a task packet may say

A packet for a Worker is checked before it is sealed: it may hold no secret, no
credential of another system, and no locator of something private, at any depth. A name
that announces a credential counts as one, if something stands under it.

Locators are looked for in a text from which the URLs of public hosts were taken out, and
URLs of other hosts replaced by a path that is found again. So the URLs are taken apart
here as well, and the host is moreover handed to the C library, which is where a NUL or
half a surrogate pair ends the scan.
-/

namespace TaskPayloads

open Credentials
open Secrets (isAlnum)

/-! ## Names of credentials -/

/-- `_TASK_CREDENTIAL_WORDS`. -/
def credentialWords : List Text :=
  ["authorization", "bearer", "credential", "credentials", "passphrase", "passwd", "password",
    "secret", "secrets", "token"].map Text.ofString

/-- `_TASK_CREDENTIAL_COMPACT_SUFFIXES`. -/
def credentialCompactSuffixes : List Text :=
  ["password", "passwd", "passphrase", "apikey", "accesstoken", "authtoken", "refreshtoken",
    "idtoken", "githubtoken", "clientsecret", "privatekey", "secretkey",
    "signingkey"].map Text.ofString

/-- `_TASK_CREDENTIAL_DESCRIPTOR_SUFFIXES`. -/
def credentialDescriptorSuffixes : List Text :=
  ["algorithm", "configured", "count", "description", "documentation", "enabled", "expiry",
    "format", "id", "kind", "length", "name", "policy", "present", "provider", "reference",
    "required", "rotation", "scheme", "scope", "status", "type", "usage"].map Text.ofString

/-- `[A-Z]`. -/
def isUpper (c : ℕ) : Bool := 0x41 ≤ c && c ≤ 0x5a
/-- `[a-z]`. -/
def isLower (c : ℕ) : Bool := 0x61 ≤ c && c ≤ 0x7a
/-- `[0-9]`. -/
def isDecimal (c : ℕ) : Bool := 0x30 ≤ c && c ≤ 0x39

/-- `([A-Z]+)([A-Z][a-z])`. -/
def acronymPattern : Regex ℕ :=
  .seq (.group 1 (.plus (.one isUpper))) (.group 2 (.seq (.one isUpper) (.one isLower)))

/-- `(?<=[a-z0-9])(?=[A-Z])`. -/
def humpPattern : Regex ℕ :=
  .check fun a b => a.any (fun c => isLower c || isDecimal c) && b.any isUpper

/-- **`_is_credential_field_name`**. -/
def isCredentialFieldName (lib : Library) (value : Text) : Bool :=
  let normalized := Text.strip (lib.nfkc value)
  let separated := acronymPattern.sub (fun m =>
    (m.rest.group? 1).getD [] ++ Text.ofString "_" ++ (m.rest.group? 2).getD []) normalized
  let separated := humpPattern.sub (fun _ => Text.ofString "_") separated
  let words := ((Regex.plus (.one fun c => isLower c || isDecimal c)).finditer
    (lib.lower separated)).1.map Regex.Match.text
  let compact := words.flatten
  let marked := words.any (· ∈ credentialWords) || compact == Text.ofString "token" ||
    credentialCompactSuffixes.any (·.isSuffixOf compact)
  marked && words.getLast?.any (· ∉ credentialDescriptorSuffixes)

/-! ## Credentials -/

/-- `item in (None, "", False, [], {}, ())`. -/
def isBlank (item : PyValue) : Bool :=
  [.none, .str [], .number 0, .list [], .mapping [], .tuple []].any item.same

/-- The key announces a credential. -/
def namesCredential (lib : Library) : PyValue → Bool
  | .str key => isCredentialFieldName lib key
  | _ => false

mutual

/-- **`_contains_generic_credential`**. -/
def containsGenericCredential (lib : Library) : PyValue → Except ValueError Bool
  | .str t => containsGenericCredentialText lib t
  | .mapping items => itemsContainCredential lib items
  | .list xs => anyContainsCredential lib xs
  | .tuple xs => anyContainsCredential lib xs
  | .set xs => anyContainsCredential lib xs
  | .frozenset xs => anyContainsCredential lib xs
  | .none => .ok false
  | .number _ => .ok false
  | .other _ => .ok false
termination_by structural v => v

/-- One of the elements contains a credential. -/
def anyContainsCredential (lib : Library) : List PyValue → Except ValueError Bool
  | [] => .ok false
  | x :: xs => do
    if ← containsGenericCredential lib x then .ok true else anyContainsCredential lib xs
termination_by structural xs => xs

/-- One of the items is a credential, or contains one. -/
def itemsContainCredential (lib : Library) : List (PyValue × PyValue) → Except ValueError Bool
  | [] => .ok false
  | (key, item) :: items => do
    if namesCredential lib key && !isBlank item then .ok true
    else if ← containsGenericCredential lib key then .ok true
    else if ← containsGenericCredential lib item then .ok true
    else itemsContainCredential lib items
termination_by structural items => items

end

/-! ## Private locators -/

/-- `\\[^\s,;]+`, and without the backslash. -/
def pathTail : Regex ℕ := .plus (.one isValueChar)

/-- **`_TASK_PRIVATE_LOCATOR`**. -/
def privateLocatorPattern (lib : Library) : Regex ℕ :=
  let b := boundary lib
  .anyOf [
    .chain [b, word "file://"],
    .chain [b, word "owner-private-artifact:"],
    .chain [.opt (.chain [b, word "UNC", spaces, word ":", spaces]), word "\\\\",
      .plus (.one fun c => c != 0x5c && !Text.isSpace c), word "\\", pathTail],
    .chain [b, oneOf isLower, word ":\\", pathTail],
    .chain [.check fun a _ => !a.any (fun c => isAlnumFolded (fold c)), word "\\",
      .anyOf (["Windows", "Users", "ProgramData", "Program Files", "AppData", "System32",
        "Temp"].map word), .opt (.seq (word "\\") pathTail)],
    .chain [.anyOf (["$HOME", "$USERPROFILE", "$\x7bHOME\x7d", "$\x7bUSERPROFILE\x7d",
      "%USERPROFILE%", "%HOMEPATH%"].map word), .one (· ∈ Text.ofString "/\\"), pathTail]]

/-- `[^\s,;\"')>\]}、。・「」『』]`. -/
def isLocatorChar (c : ℕ) : Bool :=
  !Text.isSpace c && c ∉ Text.ofString ",;\"')>]\x7d、。・「」『』"

/-- **`_TASK_POSIX_PRIVATE_LOCATOR`**. -/
def posixPrivateLocatorPattern : Regex ℕ :=
  .seq (.anyOf [.chain [.lit (Text.ofString "~"),
      .opt (.plus (.one fun c => isAlnum c || c ∈ Text.ofString "._-")), .lit (Text.ofString "/")],
    .plus (.lit (Text.ofString "/"))]) (.plus (.one isLocatorChar))

/-- **`_TASK_HTTP_ROUTE`**. -/
def httpRoutePattern (lib : Library) : Regex ℕ :=
  .chain [boundary lib, .anyOf (["GET", "HEAD", "POST", "PUT", "PATCH", "DELETE", "OPTIONS",
      "CONNECT", "TRACE"].map word), .plus (.one Text.isSpace), word "/",
    .check fun _ b => b != some 0x2f,
    .plus (.one fun c => !Text.isSpace c && c ∉ Text.ofString ",;\"')>]\x7d")]

/-- **`_TASK_PRIVATE_HTTP_ROUTE_ROOT`**, of a text in one line. -/
def privateHttpRouteRootPattern : Regex ℕ :=
  .chain [.check fun a _ => a.isNone, word "/", .opt (word "/"),
    .anyOf (["etc", "Users", "home", "private", "Volumes", "var", "tmp", "root", "opt", "usr",
      "Library", "System", "Applications", "dev", "proc", "sys", "run", "srv", "mnt",
      "media"].map word),
    .alt (word "/") (.check fun _ b => b.isNone)]

/-- `socket.inet_aton`, and whether the address is private; a host that it does not take is
not. -/
def inetAton (lib : Library) (host : Text) : Except ValueError Bool :=
  if Text.encodable host = false then .error .unicodeEncode
  else if 0 ∈ host then .error .embeddedNull
  else .ok (lib.isPrivateInet host)

/-- The host of a URL, as it is judged. -/
def canonicalHostname (lib : Library) (r : SplitResult) : Text :=
  (lib.lower ((r.hostname lib).getD [])).rdropWhile (· = 0x2e)

/-- A URL replaced: by nothing if its host is public. -/
def replaceUrl (lib : Library) (url : Text) : Except ValueError Text := do
  let candidate := stripPunctuation url
  let suffix := url.drop candidate.length
  let parsed ← Url.urlsplit lib candidate
  let host := canonicalHostname lib parsed
  let isPrivateIp ← if lib.isPrivateAddress host then .ok true else inetAton lib host
  if host = [] ∨ parsed.username.isSome ∨ parsed.password.isSome ∨
      host ∈ ["localhost", "localhost.localdomain"].map Text.ofString ∨
      ([".localhost", ".local", ".localdomain", ".internal", ".lan"].map Text.ofString).any
        (·.isSuffixOf host) ∨
      (0x2e ∉ host ∧ 0x3a ∉ host) ∨ isPrivateIp = true then
    .ok (Text.ofString " /private-network-location" ++ suffix)
  else .ok suffix

/-- The URLs of a text replaced. -/
def replaceUrls (lib : Library) : List (Regex.Match ℕ) → Except ValueError Text
  | [] => .ok []
  | m :: ms => do
    let url ← replaceUrl lib m.text
    let rest ← replaceUrls lib ms
    .ok (m.gap ++ url ++ rest)

/-- `replace_route`. -/
def replaceRoute (route : Text) : Text :=
  let target := (route.dropWhile fun c => !Text.isSpace c).dropWhile Text.isSpace
  if (privateHttpRouteRootPattern.search target).isSome then route else []

/-- **`_without_public_http_urls`**. -/
def withoutPublicHttpUrls (lib : Library) (value : Text) : Except ValueError Text := do
  let (ms, tail) := (httpUrlPattern lib).finditer value
  let replaced ← replaceUrls lib ms
  .ok ((httpRoutePattern lib).sub (fun m => replaceRoute m.text) (replaced ++ tail))

/-- `/[A-Za-z][A-Za-z0-9_]*=(?:true|false|[0-9]+)`. -/
def settingPattern : Regex ℕ :=
  .chain [.lit (Text.ofString "/"), .one Url.isAsciiAlpha, .many (.one fun c => isAlnum c || c == 0x5f),
    .lit (Text.ofString "="),
    .anyOf [.lit (Text.ofString "true"), .lit (Text.ofString "false"), .plus (.one isDecimal)]]

/-- A slash between a percentage and a number or a setting. -/
def isPercentage (lib : Library) (before candidate : Text) : Bool :=
  before.head? == some 0x25 && before.tail.head?.any lib.isDigit &&
    (candidate.tail.head?.any lib.isDigit || settingPattern.fullmatch candidate)

/-- A slash in an enumeration. -/
def isEnumeration (lib : Library) (before candidate : Text) : Bool :=
  before.head?.any (· ∈ Text.ofString ")]\x7d」』") &&
    candidate.tail.head?.any (fun c => decide (127 < c) && lib.isAlpha c) && 0x2e ∉ candidate

/-- A private path stands in a text, at a slash or tilde that does not continue a word. -/
def posixLocatorFrom (lib : Library) : Text → Text → Bool
  | _, [] => false
  | before, c :: after =>
    let continued := before.head?.any fun previous =>
      previous ∈ Text.ofString "_+.-/" || lib.isAlnum previous || lib.isLettered previous
    let here :=
      if (c ≠ 0x2f ∧ c ≠ 0x7e) ∨ continued = true then false
      else
        match (posixPrivateLocatorPattern.ends ⟨before, c :: after, []⟩).head? with
        | none => false
        | some d =>
          let candidate := (⟨before, c :: after, []⟩ : Regex.Cursor ℕ).between d
          !(before ≠ [] && c == 0x2f && 0x2f ∉ candidate.tail &&
            (isPercentage lib before candidate || isEnumeration lib before candidate))
    here || posixLocatorFrom lib (c :: before) after

/-- `_contains_private_locator` of a text. -/
def textContainsPrivateLocator (lib : Library) (value : Text) : Except ValueError Bool := do
  let text ← withoutPublicHttpUrls lib (lib.nfkc value)
  if ((privateLocatorPattern lib).search text).isSome then .ok true
  else .ok (posixLocatorFrom lib [] text)

mutual

/-- **`_contains_private_locator`**. -/
def containsPrivateLocator (lib : Library) : PyValue → Except ValueError Bool
  | .str t => textContainsPrivateLocator lib t
  | .mapping items => itemsContainLocator lib items
  | .list xs => anyContainsLocator lib xs
  | .tuple xs => anyContainsLocator lib xs
  | .set xs => anyContainsLocator lib xs
  | .frozenset xs => anyContainsLocator lib xs
  | .none => .ok false
  | .number _ => .ok false
  | .other _ => .ok false
termination_by structural v => v

/-- One of the elements contains a private locator. -/
def anyContainsLocator (lib : Library) : List PyValue → Except ValueError Bool
  | [] => .ok false
  | x :: xs => do
    if ← containsPrivateLocator lib x then .ok true else anyContainsLocator lib xs
termination_by structural xs => xs

/-- One of the keys or values contains a private locator. -/
def itemsContainLocator (lib : Library) : List (PyValue × PyValue) → Except ValueError Bool
  | [] => .ok false
  | (key, item) :: items => do
    if ← containsPrivateLocator lib key then .ok true
    else if ← containsPrivateLocator lib item then .ok true
    else itemsContainLocator lib items
termination_by structural items => items

end

/-! ## The check -/

/-- How the check of a packet ends, if it does not pass. -/
inductive TaskPayloadError where
  | validation (message : String) (reasonCode : Option String)
  | valueError (e : ValueError)
  deriving DecidableEq, Repr

/-- **`_require_worker_safe_task_payload`**. -/
def requireWorkerSafeTaskPayload (lib : Library) (value : PyValue) :
    Except TaskPayloadError Unit :=
  let credential :=
    if Secrets.containsControlPlaneSecret value then .ok true
    else containsGenericCredential lib value
  match credential with
  | .error e => .error (.valueError e)
  | .ok true => .error (.validation "task packet contains a credential-like secret" none)
  | .ok false =>
    match containsPrivateLocator lib value with
    | .error e => .error (.valueError e)
    | .ok true =>
      .error (.validation "task packet contains a private locator" "task_packet_private_locator")
    | .ok false => .ok ()

end TaskPayloads
