import OpenCAO.CursorCodec

/-!
# The cursor of the dashboard

The dashboard of an operator follows the durable events of the control plane. Where it is,
it says by a cursor: the generation of the authority whose events these are, and the
sequence of the last event it was told of. The two are written down as canonical JSON, with
the digest of what they say, in the digits of Base64 for URLs and without the padding.

The digest keeps no secret, so anybody can make a cursor, and it only has to notice that one
was damaged. A cursor that was written is read back (`decode_encode`). Two cursors that are
read and have the same digest are the same place, unless a collision of the digest is at
hand (`integrity_or_collision`): so nothing of a cursor can be altered without its digest.

Every text here consists of printable ASCII, so that `ensure_ascii` makes no difference.
-/

/-- **`hashlib.sha256(…).hexdigest()`** of a text in UTF-8, as far as it matters: a text of
hexadecimal digits. -/
structure Sha256 where
  hexdigest : Text → Text
  hex : ∀ t, ∀ c ∈ hexdigest t, PyJson.hexValue c ≠ none

/-- **A place among the durable events.** -/
structure DashboardCursor where
  authorityGeneration : ℕ
  sequence : ℕ
  deriving DecidableEq, Repr

namespace DashboardCursor

open PyJson CursorCodec

/-! ## The source -/

/-- `DASHBOARD_FORMAT`. -/
def dashboardFormat : Text := Text.ofString "cao-dashboard-read-model/v1"

/-- The names of the items. -/
def generationName : Text := Text.ofString "authority_generation"
def formatName : Text := Text.ofString "format"
def integrityName : Text := Text.ofString "integrity"
def sequenceName : Text := Text.ofString "sequence"
def versionName : Text := Text.ofString "version"

/-- The text of a value that equals `_CURSOR_VERSION`. -/
def versionText : Value → Option Text
  | .int n => if n = 1 then some (Text.ofString "1") else none
  | .bool b => if b then some (Text.ofString "true") else none
  | .float x => if x = .finite false 1 then some (Text.ofString "1.0") else none
  | _ => none

/-- **`_canonical_json(stable)`**, what the digest is taken of. -/
def stable (c : DashboardCursor) (version : Text) : Text :=
  0x7b :: (printItem generationName (printInt c.authorityGeneration) ++
    0x2c :: (printItem formatName (printString dashboardFormat) ++
      0x2c :: (printItem sequenceName (printInt c.sequence) ++
        0x2c :: (printItem versionName version ++ [0x7d]))))

variable (sha256 : Sha256)

/-- The text in a cursor. -/
def payload (c : DashboardCursor) : Text :=
  0x7b :: (printItem generationName (printInt c.authorityGeneration) ++
    0x2c :: (printItem formatName (printString dashboardFormat) ++
      0x2c :: (printItem integrityName
          (printString (sha256.hexdigest (c.stable (Text.ofString "1")))) ++
        0x2c :: (printItem sequenceName (printInt c.sequence) ++
          0x2c :: (printItem versionName (printInt 1) ++ [0x7d])))))

/-- **`DashboardCursor.encode`**, unless an integer is too long for a text. -/
def encode (c : DashboardCursor) : Option Text :=
  if maxStrDigits < digitCount c.authorityGeneration ∨ maxStrDigits < digitCount c.sequence then
    none
  else
    (Utf8.encode (c.payload sha256)).map fun bytes =>
      (Base64.unpadded (Base64.encode bytes)).map Char.toNat

/-- How a cursor is refused. -/
inductive Refused where
  /-- The `ValueError` of an invalid cursor. -/
  | invalid
  /-- A `RecursionError`. -/
  | tooDeep
  deriving DecidableEq, Repr

/-- The checks of `DashboardCursor.decode` on the items of the object. -/
def check (items : List (Text × Value)) : Except Refused DashboardCursor :=
  match lookup items formatName, (lookup items versionName).bind versionText,
    lookup items generationName, lookup items sequenceName, lookup items integrityName with
  | some (.str format), some version, some (.int generation), some (.int sequence),
      some (.str integrity) =>
    let c : DashboardCursor := ⟨generation.toNat, sequence.toNat⟩
    if format = dashboardFormat ∧ 0 ≤ generation ∧ 0 ≤ sequence ∧
        integrity = sha256.hexdigest (c.stable version) then .ok c
    else .error .invalid
  | _, _, _, _, _ => .error .invalid

/-- **`DashboardCursor.decode`**, where the interpreter enters so many lists and objects inside
the outermost one. -/
def decode (nesting : ℕ) (value : Text) : Except Refused DashboardCursor :=
  match document value with
  | none => .error .invalid
  | some text =>
    match loads (nesting + 1) text with
    | .ok (.dict items) => check sha256 items
    | .ok _ => .error .invalid
    | .error .invalid => .error .invalid
    | .error .tooDeep => .error .tooDeep

/-! ## Reading back -/

variable {sha256}

/-- **A cursor has a text**: its integers are no longer than the interpreter writes them. -/
structure Short (c : DashboardCursor) : Prop where
  generation : digitCount c.authorityGeneration ≤ maxStrDigits
  sequence : digitCount c.sequence ≤ maxStrDigits

/-- The items of the object in a cursor. -/
def items (sha256 : Sha256) (c : DashboardCursor) : List (Text × Value) :=
  [(generationName, .int c.authorityGeneration), (formatName, .str dashboardFormat),
    (integrityName, .str (sha256.hexdigest (c.stable (Text.ofString "1")))),
    (sequenceName, .int c.sequence), (versionName, .int 1)]

/-- **The object is read back.** -/
theorem loads_payload {c : DashboardCursor} (h : c.Short) (nesting : ℕ) :
    loads (nesting + 1) (c.payload sha256) = .ok (.dict (c.items sha256)) := by
  have htokens : tokens (c.payload sha256) =
      [.beginDict, .value (.str generationName), .colon, .value (.int c.authorityGeneration),
        .comma, .value (.str formatName), .colon, .value (.str dashboardFormat), .comma,
        .value (.str integrityName), .colon,
        .value (.str (sha256.hexdigest (c.stable (Text.ofString "1")))), .comma,
        .value (.str sequenceName), .colon, .value (.int c.sequence), .comma,
        .value (.str versionName), .colon, .value (.int 1), .endDict] := by
    unfold payload
    rw [tokens_cons (k := .beginDict) rfl rfl,
      tokens_printItem generationName (tokens_printInt h.generation (by rintro c ⟨rfl⟩; rfl)),
      tokens_cons (k := .comma) rfl rfl,
      tokens_printItem formatName (tokens_printString dashboardFormat _),
      tokens_cons (k := .comma) rfl rfl,
      tokens_printItem integrityName (tokens_printString _ _),
      tokens_cons (k := .comma) rfl rfl,
      tokens_printItem sequenceName (tokens_printInt h.sequence (by rintro c ⟨rfl⟩; rfl)),
      tokens_cons (k := .comma) rfl rfl,
      tokens_printItem versionName (tokens_printInt (by decide) (by rintro c ⟨rfl⟩; rfl)),
      tokens_cons (k := .endDict) rfl rfl]
    rfl
  rw [loads, htokens]
  simp [run, items]

/-- What was written passes the checks. -/
theorem check_items (c : DashboardCursor) : check sha256 (c.items sha256) = .ok c := by
  have hversion : (lookup (c.items sha256) versionName).bind versionText
      = some (Text.ofString "1") := rfl
  have hformat : lookup (c.items sha256) formatName = some (.str dashboardFormat) := rfl
  have hgeneration : lookup (c.items sha256) generationName
      = some (.int c.authorityGeneration) := rfl
  have hsequence : lookup (c.items sha256) sequenceName = some (.int c.sequence) := rfl
  have hintegrity : lookup (c.items sha256) integrityName
      = some (.str (sha256.hexdigest (c.stable (Text.ofString "1")))) := rfl
  unfold check
  rw [hversion, hformat, hgeneration, hsequence, hintegrity]
  simp

theorem isScalar_hexdigest (sha256 : Sha256) (t : Text) :
    (sha256.hexdigest t).all Utf8.isScalar = true := by
  refine List.all_eq_true.mpr fun c hc => isScalar_of_lt ?_
  have hhex := sha256.hex t c hc
  unfold hexValue at hhex
  split_ifs at hhex <;> first | omega | exact absurd rfl hhex

theorem isScalar_payload (c : DashboardCursor) :
    (c.payload sha256).all Utf8.isScalar = true := by
  have hname : ∀ name ∈ [generationName, formatName, integrityName, sequenceName, versionName,
      dashboardFormat], (printString name).all Utf8.isScalar = true := by decide
  simp only [List.forall_mem_cons, List.not_mem_nil, false_implies, implies_true, and_true] at hname
  simp only [payload, printItem, List.all_cons, List.all_append, List.all_nil, hname,
    all_isScalar_printString (sha256.hexdigest _), isScalar_hexdigest, all_isScalar_printInt,
    isScalar_of_lt (c := 0x7b) (by decide), isScalar_of_lt (c := 0x2c) (by decide),
    isScalar_of_lt (c := 0x3a) (by decide), isScalar_of_lt (c := 0x7d) (by decide),
    Bool.and_true]

/-- **A cursor that was written is read back**, and one is written of every place whose
integers are not too long. -/
theorem decode_encode (sha256 : Sha256) (nesting : ℕ) (c : DashboardCursor) :
    (c.Short → ∃ value, encode sha256 c = some value ∧ decode sha256 nesting value = .ok c) ∧
      (¬ c.Short → encode sha256 c = none) := by
  constructor
  · intro h
    have hbytes : Utf8.encode (c.payload sha256)
        = some ((c.payload sha256).flatMap Utf8.encodeChar) := by
      rw [Utf8.encode, if_pos (isScalar_payload c)]
    refine ⟨(Base64.unpadded (Base64.encode
      ((c.payload sha256).flatMap Utf8.encodeChar))).map Char.toNat, ?_, ?_⟩
    · rw [encode, if_neg (by simpa using ⟨h.generation, h.sequence⟩), hbytes]
      rfl
    · rw [decode, document_encode, Utf8.decode_of_encode hbytes]
      dsimp only
      rw [loads_payload h]
      exact check_items c
  · intro h
    rw [encode, if_pos]
    by_contra hlong
    rw [not_or, not_lt, not_lt] at hlong
    exact h ⟨hlong.1, hlong.2⟩

/-! ## Altered cursors -/

/-- **The digest that a cursor comes with.** -/
def integrity? (nesting : ℕ) (value : Text) : Option Text :=
  match (document value).map (loads (nesting + 1)) with
  | some (.ok (.dict items)) =>
    match lookup items integrityName with
    | some (.str integrity) => some integrity
    | _ => none
  | _ => none

/-- A number ends where the next character is no digit. -/
theorem printNat_append_inj {m n : ℕ} {c d : ℕ} {t u : Text} (hc : isDigit c = false)
    (hd : isDigit d = false) (h : printNat m ++ c :: t = printNat n ++ d :: u) :
    m = n ∧ c :: t = d :: u := by
  have htake : ∀ {n c : ℕ} {t : Text}, isDigit c = false →
      (printNat n ++ c :: t).takeWhile isDigit = printNat n := by
    intro n c t hc
    rw [List.takeWhile_append_of_pos fun c hc => isDigit_of_mem_printNat hc,
      List.takeWhile_cons_of_neg (by simp [hc]), List.append_nil]
  have hdigits : printNat m = printNat n := by
    rw [← htake hc, h, htake hd]
  have hvalue := congrArg digitsValue hdigits
  rw [digitsValue_printNat, digitsValue_printNat] at hvalue
  rw [hdigits] at h
  exact ⟨hvalue, List.append_cancel_left h⟩

/-- **The places are told apart by what is digested**, whatever the version is written as. -/
theorem stable_injective {c d : DashboardCursor} {v w : Text} (h : c.stable v = d.stable w) :
    c = d := by
  obtain ⟨c₁, c₂⟩ := c
  obtain ⟨d₁, d₂⟩ := d
  simp only [stable, printItem, List.cons_append, List.append_assoc, List.cons.injEq, true_and,
    List.append_cancel_left_eq] at h
  obtain ⟨rfl, h⟩ := printNat_append_inj rfl rfl h
  simp only [List.cons.injEq, true_and, List.append_cancel_left_eq] at h
  obtain ⟨rfl, -⟩ := printNat_append_inj rfl rfl h
  rfl

/-- What passes the checks is sealed by the digest it comes with. -/
theorem sealed_of_check {items : List (Text × Value)} {c : DashboardCursor}
    (h : check sha256 items = .ok c) :
    ∃ version, lookup items integrityName = some (.str (sha256.hexdigest (c.stable version))) ∧
      lookup items generationName = some (.int c.authorityGeneration) ∧
      lookup items sequenceName = some (.int c.sequence) := by
  unfold check at h
  split at h
  · next _ _ _ _ _ format version generation sequence integrity _ _ hgeneration hsequence
      hintegrity =>
    dsimp only at h
    split_ifs at h with hall
    obtain ⟨-, hg, hs, rfl⟩ := hall
    obtain rfl := Except.ok.inj h
    refine ⟨version, hintegrity, ?_, ?_⟩
    · rw [hgeneration]
      exact congrArg (some ∘ Value.int) (Int.toNat_of_nonneg hg).symm
    · rw [hsequence]
      exact congrArg (some ∘ Value.int) (Int.toNat_of_nonneg hs).symm
  · exact nomatch h

/-- **The digest tells the places apart**: two texts that are read and come with the same
digest are the same place, or there are two texts with the same digest. -/
theorem integrity_or_collision (sha256 : Sha256) (nesting : ℕ) {value value' : Text}
    {c d : DashboardCursor} (hc : decode sha256 nesting value = .ok c)
    (hd : decode sha256 nesting value' = .ok d)
    (hintegrity : integrity? nesting value = integrity? nesting value') :
    c = d ∨ ∃ t u, t ≠ u ∧ sha256.hexdigest t = sha256.hexdigest u := by
  have hsealed : ∀ {value : Text} {c : DashboardCursor}, decode sha256 nesting value = .ok c →
      ∃ version, integrity? nesting value = some (sha256.hexdigest (c.stable version)) := by
    intro value c hc
    unfold decode at hc
    unfold integrity?
    cases hdocument : document value with
    | none => rw [hdocument] at hc; exact nomatch hc
    | some text =>
      rw [hdocument] at hc
      dsimp only [Option.map_some] at hc ⊢
      split at hc
      · next items hloads =>
        obtain ⟨version, hlookup, -⟩ := sealed_of_check hc
        refine ⟨version, ?_⟩
        rw [hloads]
        dsimp only
        rw [hlookup]
      all_goals exact nomatch hc
  obtain ⟨v, hv⟩ := hsealed hc
  obtain ⟨w, hw⟩ := hsealed hd
  have hdigest := Option.some.inj (hv.symm.trans (hintegrity.trans hw))
  by_cases htext : c.stable v = d.stable w
  · exact Or.inl (stable_injective htext)
  · exact Or.inr ⟨_, _, htext, hdigest⟩

end DashboardCursor
