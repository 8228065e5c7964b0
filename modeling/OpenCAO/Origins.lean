import OpenCAO.JsonReader
import OpenCAO.LowerCase
import OpenCAO.Urls

/-!
# Origins

The service answers a browser only if the page comes from an origin that is allowed. An
origin is brought into its canonical form first: the host in lower case and without dots
at its end, and the port only if it is not the one of the scheme.

Two things go wrong. Of the exceptions that taking a URL apart can raise, only those that
the function raises itself are caught, and not the `ValueError` of a port that is no
number, or of brackets around what is no address. And the canonical form is not always the
canonical form of itself: a host may be empty without its dots, and a host in brackets may
need them.
-/

namespace Origins

open LowerCase

/-! ## `urllib.parse` -/

/-- The delimiters that no letter of a network location may become. -/
def delimiters : Text := Text.ofString "/?#@:"

/-- **`_checknetloc`** passes. -/
def checkNetloc (lib : Library) (netloc : Text) : Bool :=
  netloc.all (· < 0x80) ||
    let n := netloc.filter (· ∉ Text.ofString "@:#?")
    decide (lib.nfkc n = n) || delimiters.all (· ∉ lib.nfkc n)

/-- A hexadecimal digit. -/
def isHexDigit (c : ℕ) : Bool :=
  (0x30 ≤ c && c ≤ 0x39) || (0x41 ≤ c && c ≤ 0x46) || (0x61 ≤ c && c ≤ 0x66)

/-- `v[a-fA-F0-9]+\..+`, a line. -/
def isFutureAddress (host : Text) : Bool :=
  match host with
  | 0x76 :: t =>
    decide (t.takeWhile isHexDigit ≠ []) &&
      match t.dropWhile isHexDigit with
      | 0x2e :: s => decide (s ≠ [] ∧ 0xa ∉ s)
      | _ => false
  | _ => false

/-- `ipaddress` takes a text for an address of IPv6: what is before the first percent sign is one
without a zone, and a zone is not empty and has no other percent sign. -/
def isIpv6 (address : Text → Bool) (host : Text) : Bool :=
  address (host.upTo 0x25) &&
    decide (0x25 ∈ host → host.past 0x25 ≠ [] ∧ 0x25 ∉ host.past 0x25)

/-- **`_check_bracketed_host`** passes. -/
def checkBracketedHost (address : Text → Bool) (host : Text) : Bool :=
  if host.head? = some 0x76 then isFutureAddress host else isIpv6 address host

/-- **`_check_bracketed_netloc`** passes. -/
def checkBracketedNetloc (address : Text → Bool) (netloc : Text) : Bool :=
  let hostinfo := netloc.pastLast 0x40
  if 0x5b ∈ hostinfo then
    let bracketed := hostinfo.past 0x5b
    let port := bracketed.past 0x5d
    decide (hostinfo.upTo 0x5b = [] ∧ (port = [] ∨ port.head? = some 0x3a)) &&
      checkBracketedHost address (bracketed.upTo 0x5d)
  else checkBracketedHost address (hostinfo.upTo 0x3a)

/-- `uses_params`. -/
def usesParams : List Text :=
  ["", "ftp", "hdl", "prospero", "http", "https", "shttp", "rtsp", "rtsps", "sip", "sips", "mms",
    "sftp", "tel"].map Text.ofString

/-- `_splitparams`: the parameters are those of the last segment of the path. -/
def splitParams (path : Text) : Text × Text :=
  let front := path.rdropWhile (· ≠ 0x2f)
  let last : Text := path.rtakeWhile (· ≠ 0x2f)
  if 0x3b ∈ last then (front ++ last.upTo 0x3b, last.past 0x3b) else (path, [])

/-- **`urllib.parse.ParseResult`**. -/
structure ParseResult extends SplitResult where
  params : Text
  deriving DecidableEq, Repr

/-- What is raised: a `ValidationError` with its message and its origin, or a `ValueError`. -/
inductive Raised where
  | validation (message : String) (origin : Text)
  | valueError
  deriving DecidableEq, Repr

/-- **`urllib.parse.urlparse`**. -/
def urlparse (lib : Library) (url : Text) : Except Raised ParseResult :=
  match Url.urlsplit lib url with
  | .error _ => .error .valueError
  | .ok r =>
    if checkNetloc lib r.netloc = false then .error .valueError
    else if r.scheme ∈ usesParams then
      let (path, params) := splitParams r.path
      .ok ⟨⟨r.scheme, r.netloc, path, r.query, r.fragment⟩, params⟩
    else .ok ⟨r, []⟩

/-- The port as it is written. -/
def portText (netloc : Text) : Text :=
  let hostinfo := netloc.pastLast 0x40
  if 0x5b ∈ hostinfo then ((hostinfo.past 0x5b).past 0x5d).past 0x3a else hostinfo.past 0x3a

/-- The port is one: digits, not too many for `int`, and a number of 16 bits. -/
def PortReadable (port : Text) : Prop :=
  port.all PyJson.isDigit = true ∧ port.length ≤ PyJson.maxStrDigits ∧
    PyJson.digitsValue port ≤ 65535

instance (port : Text) : Decidable (PortReadable port) := by
  unfold PortReadable
  infer_instance

/-- `port`. -/
def port (r : ParseResult) : Except Raised (Option ℕ) :=
  if portText r.netloc = [] then .ok none
  else if PortReadable (portText r.netloc) then .ok (some (PyJson.digitsValue (portText r.netloc)))
  else .error .valueError

/-! ## The source -/

/-- The port of a scheme. -/
def defaultPort (scheme : Text) : ℕ := if scheme = Text.ofString "http" then 80 else 443

/-- What the canonical form is put together from. -/
def render (scheme host : Text) (port : ℕ) : Text :=
  scheme ++ Text.ofString "://" ++ (if 0x3a ∈ host then 0x5b :: (host ++ [0x5d]) else host) ++
    if port = defaultPort scheme then [] else 0x3a :: PyJson.printNat port

/-- `text.rstrip(".")`. -/
def rstripDots (t : Text) : Text := t.rdropWhile (· = 0x2e)

/-- A port of zero is none. -/
def portOr (port : Option ℕ) (default : ℕ) : ℕ :=
  match port with
  | none => default
  | some n => if n = 0 then default else n

/-- The messages of the errors. -/
def notAbsolute : String := "Origin must be an absolute http(s) origin"
def hasCredentials : String := "Origin must not contain credentials or a path"
def hasParams : String := "Origin must not contain params, query, or fragment"

/-- **`canonical_origin`.** -/
def canonicalOrigin (lib : Library) (raw : Text) : Except Raised Text := do
  let parsed ← urlparse lib raw
  let hostname := (parsed.hostname lib).getD []
  if parsed.scheme ∉ [Text.ofString "http", Text.ofString "https"] ∨ hostname = [] then
    .error (.validation notAbsolute raw)
  else if parsed.username.getD [] ≠ [] ∨ parsed.password.getD [] ≠ [] ∨
      parsed.path ∉ [[], [0x2f]] then
    .error (.validation hasCredentials raw)
  else if parsed.params ≠ [] ∨ parsed.query ≠ [] ∨ parsed.fragment ≠ [] then
    .error (.validation hasParams raw)
  else do
    let host := rstripDots (lib.lower hostname)
    let port ← port parsed
    .ok (render parsed.scheme host (portOr port (defaultPort parsed.scheme)))

/-- The canonical forms of what is allowed; what is no origin is passed over. -/
def canonicalForms (lib : Library) : List Text → Except Raised (List Text)
  | [] => .ok []
  | value :: values =>
    match canonicalOrigin lib value with
    | .ok form => (canonicalForms lib values).map (form :: ·)
    | .error (.validation _ _) => canonicalForms lib values
    | .error .valueError => .error .valueError

/-- **`origin_allowed`.** -/
def originAllowed (lib : Library) (raw : Text) (allowedOrigins : List Text) :
    Except Raised Bool :=
  if raw = [] then .ok true
  else if lib.lower raw.strip = Text.ofString "null" then .ok false
  else
    match canonicalOrigin lib raw with
    | .error (.validation _ _) => .ok false
    | .error .valueError => .error .valueError
    | .ok candidate =>
      (canonicalForms lib allowedOrigins).map fun forms => decide (candidate ∈ forms)

/-! ## The library -/

/-- The compatibility form of a character has none of the delimiters. -/
def Plain (lib : Library) (c : ℕ) : Prop := ∀ d ∈ delimiters, d ∉ lib.nfkc [c]

/-- **What is known of the standard library.** -/
structure Lawful (lib : Library) (address : Text → Bool) : Prop where
  isBracketed : ∀ netloc, lib.isBracketed netloc = checkBracketedNetloc address netloc
  /-- A text is put in lower case character by character. -/
  lower : ∀ t, Lowered (Plain lib) t (lib.lower t)
  /-- Nothing that is in lower case is changed again. -/
  lower_fixed : ∀ t u, u <:+: lib.lower t → lib.lower u = u
  /-- Delimiters appear character by character, and ASCII is its own compatibility form. -/
  nfkc_mem : ∀ c ∈ delimiters, ∀ t, c ∈ lib.nfkc t ↔ ∃ d ∈ t, c ∈ lib.nfkc [d]
  nfkc_ascii : ∀ c < 0x80, lib.nfkc [c] = [c]
  /-- An address is made of hexadecimal digits, colons and dots, has a colon, and does not end
  with a dot. -/
  address_chars : ∀ t, address t = true → ∀ c ∈ t, isHexDigit c = true ∨ c = 0x3a ∨ c = 0x2e
  address_colon : ∀ t, address t = true → 0x3a ∈ t
  address_last : ∀ t, address t = true → t.getLast? ≠ some 0x2e
  address_lower : ∀ t, address t = true → address (t.map asciiLower) = true

/-! ## What the input decides -/

/-- The parts of a text, whatever its network location. -/
def parts (raw : Text) : ParseResult :=
  let r := Url.partsOf raw
  if r.scheme ∈ usesParams then
    ⟨⟨r.scheme, r.netloc, (splitParams r.path).1, r.query, r.fragment⟩, (splitParams r.path).2⟩
  else ⟨r, []⟩

/-- The network location is one. -/
def Readable (lib : Library) (netloc : Text) : Prop :=
  Url.Bracketed lib netloc ∧ checkNetloc lib netloc = true

instance (lib : Library) (netloc : Text) : Decidable (Readable lib netloc) := by
  unfold Readable
  infer_instance

theorem parts_netloc (raw : Text) : (parts raw).netloc = Url.netloc raw := by
  unfold parts
  dsimp only
  split_ifs <;> rfl

/-- **A text has its parts exactly if its network location is one.** -/
theorem urlparse_eq (lib : Library) (raw : Text) : urlparse lib raw =
    if Readable lib (parts raw).netloc then .ok (parts raw) else .error .valueError := by
  rw [parts_netloc]
  unfold urlparse
  rcases Url.urlsplit_cases lib raw with ⟨hbracketed, -⟩ | ⟨hbracketed, e, he⟩
  · rw [Url.urlsplit_of_bracketed hbracketed]
    dsimp only
    rw [show (Url.partsOf raw).netloc = Url.netloc raw from rfl]
    by_cases hcheck : checkNetloc lib (Url.netloc raw) = true
    · have hreadable : Readable lib (Url.netloc raw) := ⟨hbracketed, hcheck⟩
      rw [if_neg (by simp [hcheck]), if_pos hreadable]
      unfold parts
      dsimp only
      split_ifs <;> rfl
    · rw [if_pos (by simpa using hcheck), if_neg fun h => hcheck h.2]
  · rw [he, if_neg fun h => hbracketed h.1]

/-- **The parts are those of an origin.** -/
structure Shaped (lib : Library) (r : ParseResult) : Prop where
  scheme : r.scheme ∈ [Text.ofString "http", Text.ofString "https"]
  hostname : (r.hostname lib).getD [] ≠ []
  username : r.username.getD [] = []
  password : r.password.getD [] = []
  path : r.path ∈ [[], [0x2f]]
  params : r.params = []
  query : r.query = []
  fragment : r.fragment = []

/-- The number of a port that is written, or the port of the scheme. -/
def portNumber (r : ParseResult) : ℕ :=
  if PyJson.digitsValue (portText r.netloc) = 0 then defaultPort r.scheme
  else PyJson.digitsValue (portText r.netloc)

/-- The canonical form of an origin. -/
def form (lib : Library) (r : ParseResult) : Text :=
  render r.scheme (rstripDots (lib.lower ((r.hostname lib).getD []))) (portNumber r)

/-- **What `canonical_origin` does with an input.** -/
inductive Outcome (lib : Library) (raw : Text) : Except Raised Text → Prop where
  | unreadable (h : ¬ Readable lib (parts raw).netloc) : Outcome lib raw (.error .valueError)
  | misshapen (h : Readable lib (parts raw).netloc) (hshape : ¬ Shaped lib (parts raw))
      (message : String) : Outcome lib raw (.error (.validation message raw))
  | badPort (h : Readable lib (parts raw).netloc) (hshape : Shaped lib (parts raw))
      (hport : ¬ PortReadable (portText (parts raw).netloc)) : Outcome lib raw (.error .valueError)
  | canonical (h : Readable lib (parts raw).netloc) (hshape : Shaped lib (parts raw))
      (hport : PortReadable (portText (parts raw).netloc)) :
      Outcome lib raw (.ok (form lib (parts raw)))

/-- A port, with that of the scheme for none. -/
theorem portOr_port {r : ParseResult} (h : PortReadable (portText r.netloc)) :
    ∃ p, port r = .ok p ∧ portOr p (defaultPort r.scheme) = portNumber r := by
  unfold port portNumber
  by_cases hnil : portText r.netloc = []
  · rw [if_pos hnil, hnil]
    exact ⟨none, rfl, rfl⟩
  · rw [if_neg hnil, if_pos h]
    exact ⟨some _, rfl, rfl⟩

theorem outcome (lib : Library) (raw : Text) : Outcome lib raw (canonicalOrigin lib raw) := by
  unfold canonicalOrigin
  rw [urlparse_eq]
  by_cases hreadable : Readable lib (parts raw).netloc
  · rw [if_pos hreadable]
    show Outcome lib raw (if _ then _ else _)
    by_cases hfirst : (parts raw).scheme ∉ [Text.ofString "http", Text.ofString "https"] ∨
        ((parts raw).hostname lib).getD [] = []
    · rw [if_pos hfirst]
      refine .misshapen hreadable (fun h => ?_) _
      rcases hfirst with hfirst | hfirst
      · exact hfirst h.scheme
      · exact h.hostname hfirst
    rw [if_neg hfirst]
    by_cases hsecond : (parts raw).username.getD [] ≠ [] ∨ (parts raw).password.getD [] ≠ [] ∨
        (parts raw).path ∉ [[], [0x2f]]
    · rw [if_pos hsecond]
      refine .misshapen hreadable (fun h => ?_) _
      rcases hsecond with hsecond | hsecond | hsecond
      · exact hsecond h.username
      · exact hsecond h.password
      · exact hsecond h.path
    rw [if_neg hsecond]
    by_cases hthird : (parts raw).params ≠ [] ∨ (parts raw).query ≠ [] ∨ (parts raw).fragment ≠ []
    · rw [if_pos hthird]
      refine .misshapen hreadable (fun h => ?_) _
      rcases hthird with hthird | hthird | hthird
      · exact hthird h.params
      · exact hthird h.query
      · exact hthird h.fragment
    rw [if_neg hthird]
    push Not at hfirst hsecond hthird
    have hshape : Shaped lib (parts raw) :=
      ⟨hfirst.1, hfirst.2, hsecond.1, hsecond.2.1, hsecond.2.2, hthird.1, hthird.2.1, hthird.2.2⟩
    by_cases hport : PortReadable (portText (parts raw).netloc)
    · obtain ⟨p, hp, hnumber⟩ := portOr_port hport
      rw [hp]
      show Outcome lib raw (.ok (render _ _ (portOr p _)))
      rw [hnumber]
      exact .canonical hreadable hshape hport
    · have hne : portText (parts raw).netloc ≠ [] := by
        intro hnil
        rw [hnil] at hport
        exact hport (by decide)
      have hvalue : port (parts raw) = .error .valueError := by
        rw [port, if_neg hne, if_neg hport]
      rw [hvalue]
      exact .badPort hreadable hshape hport
  · rw [if_neg hreadable]
    exact .unreadable hreadable

/-! ## What is raised -/

/-- **A text that raises a `ValueError`**: its network location is none, or it is an origin with
a port that is none. -/
def Malformed (lib : Library) (raw : Text) : Prop :=
  ¬ Readable lib (parts raw).netloc ∨
    Shaped lib (parts raw) ∧ ¬ PortReadable (portText (parts raw).netloc)

/-- **A text that has a canonical form.** -/
structure WellFormed (lib : Library) (raw : Text) : Prop where
  readable : Readable lib (parts raw).netloc
  shaped : Shaped lib (parts raw)
  port : PortReadable (portText (parts raw).netloc)

theorem canonicalOrigin_eq_valueError (lib : Library) (raw : Text) :
    canonicalOrigin lib raw = .error .valueError ↔ Malformed lib raw := by
  unfold Malformed
  generalize h : canonicalOrigin lib raw = answer
  cases h ▸ outcome lib raw with
  | unreadable hreadable => exact iff_of_true rfl (.inl hreadable)
  | misshapen hreadable hshape message =>
    refine iff_of_false (fun h => (nomatch h)) ?_
    rintro (h | h)
    · exact h hreadable
    · exact hshape h.1
  | badPort hreadable hshape hport => exact iff_of_true rfl (.inr ⟨hshape, hport⟩)
  | canonical hreadable hshape hport =>
    refine iff_of_false (fun h => (nomatch h)) ?_
    rintro (h | h)
    · exact h hreadable
    · exact h.2 hport

theorem canonicalOrigin_eq_ok (lib : Library) (raw y : Text) :
    canonicalOrigin lib raw = .ok y ↔ WellFormed lib raw ∧ form lib (parts raw) = y := by
  generalize h : canonicalOrigin lib raw = answer
  cases h ▸ outcome lib raw with
  | unreadable hreadable =>
    exact iff_of_false (fun h => (nomatch h)) fun h => hreadable h.1.readable
  | misshapen _ hshape _ => exact iff_of_false (fun h => (nomatch h)) fun h => hshape h.1.shaped
  | badPort _ _ hport => exact iff_of_false (fun h => (nomatch h)) fun h => hport h.1.port
  | canonical hreadable hshape hport =>
    have hform : WellFormed lib raw := ⟨hreadable, hshape, hport⟩
    rw [Except.ok.injEq, and_iff_right hform]

/-- Nothing but a `ValueError` and a `ValidationError` is raised. -/
theorem canonicalOrigin_cases (lib : Library) (raw : Text) :
    canonicalOrigin lib raw = .error .valueError ∨
      (∃ message, canonicalOrigin lib raw = .error (.validation message raw)) ∨
        ∃ y, canonicalOrigin lib raw = .ok y := by
  generalize h : canonicalOrigin lib raw = answer
  cases h ▸ outcome lib raw with
  | unreadable => exact .inl rfl
  | misshapen _ _ message => exact .inr (.inl ⟨message, rfl⟩)
  | badPort => exact .inl rfl
  | canonical => exact .inr (.inr ⟨_, rfl⟩)

/-- **The entries have their canonical forms exactly if none of them raises a `ValueError`.** -/
theorem exists_canonicalForms_iff (lib : Library) (allowed : List Text) :
    (∃ forms, canonicalForms lib allowed = .ok forms) ↔ ∀ v ∈ allowed, ¬ Malformed lib v := by
  induction allowed with
  | nil => exact iff_of_true ⟨[], rfl⟩ fun v hv => absurd hv List.not_mem_nil
  | cons v vs ih =>
    rw [List.forall_mem_cons, ← ih, ← canonicalOrigin_eq_valueError, canonicalForms]
    rcases canonicalOrigin_cases lib v with h | ⟨message, h⟩ | ⟨y, h⟩
    · simp [h]
    · simp [h]
    · rw [h]
      cases canonicalForms lib vs <;> simp [Except.map]

theorem mem_canonicalForms_iff {lib : Library} {allowed forms : List Text}
    (h : canonicalForms lib allowed = .ok forms) (y : Text) :
    y ∈ forms ↔ ∃ v ∈ allowed, canonicalOrigin lib v = .ok y := by
  induction allowed generalizing forms with
  | nil =>
    obtain rfl := Except.ok.inj h
    simp
  | cons v vs ih =>
    rw [canonicalForms] at h
    rcases canonicalOrigin_cases lib v with hv | ⟨message, hv⟩ | ⟨z, hv⟩
    · rw [hv] at h
      exact nomatch h
    · rw [hv] at h
      simp [ih h, hv]
    · rw [hv] at h
      cases hforms : canonicalForms lib vs with
      | error e =>
        rw [hforms] at h
        exact nomatch h
      | ok rest =>
        rw [hforms] at h
        obtain rfl := Except.ok.inj h
        simp [ih hforms, hv, eq_comm]

/-- **What an answer needs**: the text is empty or `null`, or it raises no `ValueError`, and no
entry does if it has a canonical form. -/
def Answerable (lib : Library) (raw : Text) (allowed : List Text) : Prop :=
  raw = [] ∨ lib.lower raw.strip = Text.ofString "null" ∨
    ¬ Malformed lib raw ∧ (WellFormed lib raw → ∀ v ∈ allowed, ¬ Malformed lib v)

/-- **There is an answer exactly if it has what it needs.** -/
theorem exists_originAllowed_iff (lib : Library) (raw : Text) (allowed : List Text) :
    (∃ b, originAllowed lib raw allowed = .ok b) ↔ Answerable lib raw allowed := by
  unfold Answerable originAllowed
  by_cases hempty : raw = []
  · rw [if_pos hempty]
    exact iff_of_true ⟨true, rfl⟩ (.inl hempty)
  by_cases hnull : lib.lower raw.strip = Text.ofString "null"
  · rw [if_neg hempty, if_pos hnull]
    exact iff_of_true ⟨false, rfl⟩ (.inr (.inl hnull))
  rw [if_neg hempty, if_neg hnull, or_iff_right hempty, or_iff_right hnull,
    ← canonicalOrigin_eq_valueError]
  rcases canonicalOrigin_cases lib raw with h | ⟨message, h⟩ | ⟨y, h⟩
  · simp [h]
  · have hform : ¬ WellFormed lib raw := fun hform =>
      nomatch h.symm.trans ((canonicalOrigin_eq_ok lib raw _).mpr ⟨hform, rfl⟩)
    simp [h, hform]
  · have hform : WellFormed lib raw := ((canonicalOrigin_eq_ok lib raw y).mp h).1
    rw [← exists_canonicalForms_iff, h]
    cases canonicalForms lib allowed <;> simp [Except.map, hform]

/-! ### `null` -/

theorem mem_strip {t : Text} {c : ℕ} (hc : c ∈ t) (hspace : Text.isSpace c = false) :
    c ∈ Text.strip t := by
  have hdrop : c ∈ t.dropWhile Text.isSpace := by
    rw [← List.takeWhile_append_dropWhile (p := Text.isSpace) (l := t), List.mem_append] at hc
    refine hc.resolve_left fun htake => ?_
    rw [List.mem_takeWhile_imp htake] at hspace
    exact Bool.noConfusion hspace
  rw [← List.rdropWhile_append_rtakeWhile (p := Text.isSpace) (l := t.dropWhile Text.isSpace),
    List.mem_append] at hdrop
  refine hdrop.resolve_right fun htake => ?_
  rw [List.mem_rtakeWhile_imp htake] at hspace
  exact Bool.noConfusion hspace

/-- Only a text with a colon has a scheme. -/
theorem colon_mem {lib : Library} {raw : Text} (h : Shaped lib (parts raw)) : 0x3a ∈ raw := by
  by_contra hcolon
  have hclean : 0x3a ∉ (raw.dropWhile (· ≤ 0x20)).filter (· ∉ [9, 10, 13]) := fun hmem =>
    hcolon ((List.dropWhile_sublist _).subset (List.mem_of_mem_filter hmem))
  have hscheme : (parts raw).scheme = [] := by
    have hpart : (Url.partsOf raw).scheme = [] := by
      show (Url.splitScheme _).1 = []
      rw [Url.splitScheme, if_neg fun hall => hclean hall.1]
    unfold parts
    dsimp only
    split_ifs <;> exact hpart
  have hmem := h.scheme
  rw [hscheme] at hmem
  exact absurd hmem (by decide)

/-- **What is `null` in lower case has no canonical form.** -/
theorem not_wellFormed_of_null {lib : Library} {address : Text → Bool} (law : Lawful lib address)
    {raw : Text} (h : lib.lower raw.strip = Text.ofString "null") : ¬ WellFormed lib raw := by
  intro hform
  have hcolon : 0x3a ∈ lib.lower raw.strip :=
    ((law.lower raw.strip).mem_iff (by decide)).mpr (mem_strip (colon_mem hform.shaped) (by decide))
  rw [h] at hcolon
  exact absurd hcolon (by decide)

/-- **The answer.** -/
theorem originAllowed_eq_true_iff {lib : Library} {address : Text → Bool}
    (law : Lawful lib address) {raw : Text} {allowed : List Text} {b : Bool}
    (h : originAllowed lib raw allowed = .ok b) : b = true ↔
      raw = [] ∨ ∃ y, canonicalOrigin lib raw = .ok y ∧
        ∃ v ∈ allowed, canonicalOrigin lib v = .ok y := by
  unfold originAllowed at h
  by_cases hempty : raw = []
  · rw [if_pos hempty] at h
    exact iff_of_true (Except.ok.inj h).symm (.inl hempty)
  by_cases hnull : lib.lower raw.strip = Text.ofString "null"
  · rw [if_neg hempty, if_pos hnull] at h
    refine iff_of_false (by simp [← Except.ok.inj h]) ?_
    rintro (h | ⟨y, hy, -⟩)
    · exact hempty h
    · exact not_wellFormed_of_null law hnull ((canonicalOrigin_eq_ok lib raw y).mp hy).1
  rw [if_neg hempty, if_neg hnull] at h
  rw [or_iff_right hempty]
  rcases canonicalOrigin_cases lib raw with hraw | ⟨message, hraw⟩ | ⟨y, hraw⟩
  · rw [hraw] at h
    exact nomatch h
  · rw [hraw] at h ⊢
    simp [← Except.ok.inj h]
  · rw [hraw] at h ⊢
    cases hforms : canonicalForms lib allowed with
    | error e =>
      rw [hforms] at h
      exact nomatch h
    | ok forms =>
      rw [hforms] at h
      obtain rfl := Except.ok.inj h
      simp [mem_canonicalForms_iff hforms]

end Origins
