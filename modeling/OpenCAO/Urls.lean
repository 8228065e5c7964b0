import OpenCAO.PythonText

/-!
# URLs

A URL is taken apart from the left: a scheme up to the first colon, a network location
between two slashes and the next delimiter, and what follows. The one thing that can go
wrong is the network location. Square brackets stand in it around an address, and so one
of them without the other is an error, and so is what stands between the two if it is no
address. What an address is, and which letters Unicode has, is left to the standard
library.
-/

/-- **What the standard library knows** of characters and addresses. -/
structure Library where
  /-- `unicodedata.normalize("NFKC", …)`. -/
  nfkc : Text → Text
  /-- `str.lower`. -/
  lower : Text → Text
  /-- `str.isalnum` of a character. -/
  isAlnum : ℕ → Bool
  /-- `str.isalpha` of a character. -/
  isAlpha : ℕ → Bool
  /-- `str.isdigit` of a character. -/
  isDigit : ℕ → Bool
  /-- The category of a character is a letter, a mark, a number or a symbol. -/
  isLettered : ℕ → Bool
  /-- A network location with both brackets has an address between them. -/
  isBracketed : Text → Bool
  /-- `ipaddress.ip_address` takes a host for an address, and it is not one for documentation
  but a private, loopback, link-local or unspecified one. -/
  isPrivateAddress : Text → Bool
  /-- `socket.inet_aton` takes a host for an address, and it is private, loopback, link-local
  or unspecified. -/
  isPrivateInet : Text → Bool

/-- **A `ValueError`** of the standard library. -/
inductive ValueError where
  /-- One bracket without the other. -/
  | invalidIpv6Url
  /-- No address between the brackets. -/
  | invalidBracketedHost
  /-- A text for the C library has a NUL. -/
  | embeddedNull
  /-- A text cannot be encoded. -/
  | unicodeEncode
  deriving DecidableEq, Repr

namespace Text

/-- The text before the first `c`, all of it if there is none. -/
def upTo (t : Text) (c : ℕ) : Text := t.takeWhile (· ≠ c)

/-- The text behind the first `c`, nothing if there is none. -/
def past (t : Text) (c : ℕ) : Text := (t.dropWhile (· ≠ c)).tail

/-- The text behind the last `c`, all of it if there is none. -/
def pastLast (t : Text) (c : ℕ) : Text := t.rtakeWhile (· ≠ c)

/-- The text before the last `c`, nothing if there is none. -/
def upToLast (t : Text) (c : ℕ) : Text := (t.rdropWhile (· ≠ c)).dropLast

variable {t : Text} {c : ℕ}

theorem notMem_upTo (t : Text) (c : ℕ) : c ∉ t.upTo c := fun h => by
  simpa using List.mem_takeWhile_imp h

theorem notMem_pastLast (t : Text) (c : ℕ) : c ∉ t.pastLast c := fun h => by
  simpa using List.mem_rtakeWhile_imp h

theorem upTo_of_notMem (h : c ∉ t) : t.upTo c = t :=
  List.takeWhile_eq_self_iff.mpr fun d hd => by
    rw [decide_eq_true_eq]
    rintro rfl
    exact h hd

theorem past_of_notMem (h : c ∉ t) : t.past c = [] := by
  have hdrop : t.dropWhile (· ≠ c) = [] := List.dropWhile_eq_nil_iff.mpr fun d hd => by
    rw [decide_eq_true_eq]
    rintro rfl
    exact h hd
  rw [past, hdrop, List.tail_nil]

theorem pastLast_of_notMem (h : c ∉ t) : t.pastLast c = t := by
  rw [pastLast, List.rtakeWhile_eq_self_iff]
  intro d hd
  rw [decide_eq_true_eq]
  rintro rfl
  exact h hd

/-- A text that has a `c` is cut at the first. -/
theorem upTo_append_past (h : c ∈ t) : t.upTo c ++ c :: t.past c = t := by
  induction t with
  | nil => exact absurd h List.not_mem_nil
  | cons d t ih =>
    by_cases hd : d = c
    · subst hd
      simp [upTo, past]
    · have hmem : c ∈ t := (List.mem_cons.mp h).resolve_left (Ne.symm hd)
      have hrest := ih hmem
      unfold upTo past at hrest ⊢
      rw [List.takeWhile_cons_of_pos (by simpa using hd),
        List.dropWhile_cons_of_pos (by simpa using hd), List.cons_append, hrest]

theorem upTo_append (h : c ∉ t) (u : Text) : Text.upTo (t ++ c :: u) c = t := by
  have hall : ∀ d ∈ t, decide (d ≠ c) = true := fun d hd => by
    rw [decide_eq_true_eq]
    rintro rfl
    exact h hd
  rw [upTo, List.takeWhile_append_of_pos hall, List.takeWhile_cons_of_neg (by simp),
    List.append_nil]

theorem past_append (h : c ∉ t) (u : Text) : Text.past (t ++ c :: u) c = u := by
  have hall : ∀ d ∈ t, decide (d ≠ c) = true := fun d hd => by
    rw [decide_eq_true_eq]
    rintro rfl
    exact h hd
  rw [past, List.dropWhile_append_of_pos hall, List.dropWhile_cons_of_neg (by simp), List.tail_cons]

/-- A text that has a `c` is cut at the last. -/
theorem upToLast_append_pastLast (h : c ∈ t) : t.upToLast c ++ c :: t.pastLast c = t := by
  have hne : t.rdropWhile (· ≠ c) ≠ [] := by
    intro hnil
    rw [List.rdropWhile_eq_nil_iff] at hnil
    simpa using hnil c h
  have hlast : (t.rdropWhile (· ≠ c)).getLast hne = c := by
    simpa using List.rdropWhile_last_not (· ≠ c) t hne
  calc t.upToLast c ++ c :: t.pastLast c
      = (t.rdropWhile (· ≠ c)).dropLast ++ [c] ++ t.rtakeWhile (· ≠ c) := by
        rw [upToLast, pastLast, List.append_assoc, List.singleton_append]
    _ = t.rdropWhile (· ≠ c) ++ t.rtakeWhile (· ≠ c) := by
        conv_rhs => rw [← List.dropLast_append_getLast hne, hlast]
    _ = t := List.rdropWhile_append_rtakeWhile

end Text

/-- **`urllib.parse.SplitResult`**. -/
structure SplitResult where
  scheme : Text
  netloc : Text
  path : Text
  query : Text
  fragment : Text
  deriving DecidableEq, Repr

namespace SplitResult

variable (r : SplitResult)

/-- `username`. -/
def username : Option Text :=
  if 0x40 ∈ r.netloc then some ((r.netloc.upToLast 0x40).upTo 0x3a) else none

/-- `password`. -/
def password : Option Text :=
  if 0x40 ∈ r.netloc ∧ 0x3a ∈ r.netloc.upToLast 0x40 then
    some ((r.netloc.upToLast 0x40).past 0x3a)
  else none

/-- The host as it is written. -/
def host : Text :=
  let hostinfo := r.netloc.pastLast 0x40
  if 0x5b ∈ hostinfo then (hostinfo.past 0x5b).upTo 0x5d else hostinfo.upTo 0x3a

/-- `hostname`: the zone of an address keeps its case. -/
def hostname (lib : Library) : Option Text :=
  if r.host = [] then none
  else some (lib.lower (r.host.upTo 0x25) ++ r.host.dropWhile (· ≠ 0x25))

end SplitResult

namespace Url

/-- `scheme_chars`. -/
def isSchemeChar (c : ℕ) : Bool :=
  (0x30 ≤ c && c ≤ 0x39) || (0x41 ≤ c && c ≤ 0x5a) || (0x61 ≤ c && c ≤ 0x7a) ||
    c ∈ Text.ofString "+-."

/-- A letter of ASCII. -/
def isAsciiAlpha (c : ℕ) : Bool := (0x41 ≤ c && c ≤ 0x5a) || (0x61 ≤ c && c ≤ 0x7a)

/-- The scheme of a URL and the text behind it. -/
def splitScheme (url : Text) : Text × Text :=
  let scheme := url.upTo 0x3a
  if 0x3a ∈ url ∧ (∃ c ∈ scheme.head?, isAsciiAlpha c = true) ∧ scheme.all isSchemeChar = true then
    (scheme.map fun c => if 0x41 ≤ c && c ≤ 0x5a then c + 0x20 else c, url.past 0x3a)
  else ([], url)

/-- `_splitnetloc`. -/
def splitNetloc (url : Text) : Text × Text :=
  if Text.ofString "//" <+: url then
    ((url.drop 2).takeWhile (· ∉ Text.ofString "/?#"),
      (url.drop 2).dropWhile (· ∉ Text.ofString "/?#"))
  else ([], url)

/-- **The brackets of a network location are in order.** -/
def Bracketed (lib : Library) (netloc : Text) : Prop :=
  (0x5b ∈ netloc ↔ 0x5d ∈ netloc) ∧ (0x5b ∈ netloc → lib.isBracketed netloc = true)

instance (lib : Library) (netloc : Text) : Decidable (Bracketed lib netloc) := by
  unfold Bracketed
  infer_instance

/-- The network location that `urlsplit` finds. -/
def netloc (url : Text) : Text :=
  (splitNetloc (splitScheme ((url.dropWhile (· ≤ 0x20)).filter (· ∉ [9, 10, 13]))).2).1

/-- **`urllib.parse.urlsplit`**. -/
def urlsplit (lib : Library) (url : Text) : Except ValueError SplitResult :=
  let (scheme, url) := splitScheme ((url.dropWhile (· ≤ 0x20)).filter (· ∉ [9, 10, 13]))
  let (netloc, url) := splitNetloc url
  if ¬ (0x5b ∈ netloc ↔ 0x5d ∈ netloc) then .error .invalidIpv6Url
  else if 0x5b ∈ netloc ∧ lib.isBracketed netloc = false then .error .invalidBracketedHost
  else
    let fragment := url.past 0x23
    let url := url.upTo 0x23
    .ok ⟨scheme, netloc, url.upTo 0x3f, url.past 0x3f, fragment⟩

/-- **A URL is split exactly if its brackets are in order.** -/
theorem urlsplit_cases (lib : Library) (url : Text) :
    (Bracketed lib (netloc url) ∧ ∃ r, urlsplit lib url = .ok r ∧ r.netloc = netloc url) ∨
      (¬ Bracketed lib (netloc url) ∧ ∃ e, urlsplit lib url = .error e) := by
  unfold urlsplit Bracketed
  show (_ ∧ ∃ r, (if ¬ (0x5b ∈ netloc url ↔ 0x5d ∈ netloc url) then _ else _) = _ ∧ _) ∨
    (_ ∧ ∃ e, (if ¬ (0x5b ∈ netloc url ↔ 0x5d ∈ netloc url) then _ else _) = _)
  by_cases hboth : 0x5b ∈ netloc url ↔ 0x5d ∈ netloc url
  · rw [if_neg (not_not.mpr hboth)]
    show (_ ∧ ∃ r, (if 0x5b ∈ netloc url ∧ lib.isBracketed (netloc url) = false then _ else _) = _ ∧
        _) ∨
      (_ ∧ ∃ e, (if 0x5b ∈ netloc url ∧ lib.isBracketed (netloc url) = false then _ else _) = _)
    by_cases haddress : 0x5b ∈ netloc url ∧ lib.isBracketed (netloc url) = false
    · refine .inr ⟨fun h => ?_, _, if_pos haddress⟩
      rw [h.2 haddress.1] at haddress
      exact Bool.noConfusion haddress.2
    · refine .inl ⟨⟨hboth, fun h => ?_⟩, _, if_neg haddress, rfl⟩
      exact Bool.not_eq_false _ ▸ fun hfalse => haddress ⟨h, hfalse⟩
  · exact .inr ⟨fun h => hboth h.1, _, if_pos hboth⟩

/-- The parts of a URL, whatever its network location. -/
def partsOf (url : Text) : SplitResult :=
  let (scheme, url) := splitScheme ((url.dropWhile (· ≤ 0x20)).filter (· ∉ [9, 10, 13]))
  let (netloc, url) := splitNetloc url
  ⟨scheme, netloc, (url.upTo 0x23).upTo 0x3f, (url.upTo 0x23).past 0x3f, url.past 0x23⟩

theorem urlsplit_of_bracketed {lib : Library} {url : Text} (h : Bracketed lib (netloc url)) :
    urlsplit lib url = .ok (partsOf url) := by
  have haddress : ¬ (0x5b ∈ netloc url ∧ lib.isBracketed (netloc url) = false) := by
    rintro ⟨hmem, hfalse⟩
    exact Bool.noConfusion ((h.2 hmem).symm.trans hfalse)
  exact (if_neg (not_not.mpr h.1)).trans (if_neg haddress)

end Url
