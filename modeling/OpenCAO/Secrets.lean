import OpenCAO.PythonValue
import OpenCAO.Regex

/-!
# Secrets of the control plane

The bearer credentials of principals, runtimes and enrollments have one form, and
they are looked for by one pattern, anywhere in a text and at any depth of a value, in
the keys of mappings too. A display that may carry one is redacted: every match is
replaced by a fixed text in brackets.

A redacted value holds no secret, because no secret has a bracket and the text between
the brackets is none. Elements that have become equal by redaction are merged, which
takes nothing away from this; and a value without a secret is rebuilt as it was.
-/

namespace Secrets

/-- A letter or a digit of ASCII. -/
def isAlnum (c : ℕ) : Bool :=
  (0x30 ≤ c && c ≤ 0x39) || (0x41 ≤ c && c ≤ 0x5a) || (0x61 ≤ c && c ≤ 0x7a)

/-- `[A-Za-z0-9_-]`. -/
def isTokenChar (c : ℕ) : Bool := isAlnum c || c == 0x5f || c == 0x2d

/-- **`CONTROL_PLANE_SECRET_PATTERN`**. -/
def controlPlaneSecretPattern : Regex ℕ :=
  .chain [.lit (Text.ofString "cao."),
    .anyOf ((["prn_", "rtc_", "ent_", "crc_", "catk_", "csc_", "cab_"].map Text.ofString).map .lit),
    .plus (.one isTokenChar), .lit (Text.ofString "."), .plus (.one isTokenChar)]

/-- `CONTROL_PLANE_SECRET_REDACTION`. -/
def controlPlaneSecretRedaction : Text := Text.ofString "[control-plane-credential-redacted]"

/-- `CONTROL_PLANE_SECRET_PATTERN.search(value) is not None`. -/
def textContainsSecret (t : Text) : Bool := (controlPlaneSecretPattern.search t).isSome

/-- `CONTROL_PLANE_SECRET_PATTERN.sub(CONTROL_PLANE_SECRET_REDACTION, value)`. -/
def redactText (t : Text) : Text :=
  controlPlaneSecretPattern.sub (fun _ => controlPlaneSecretRedaction) t

mutual

/-- **`contains_control_plane_secret`**. -/
def containsControlPlaneSecret : PyValue → Bool
  | .str t => textContainsSecret t
  | .mapping items => itemsContainSecret items
  | .list xs => anyContainsSecret xs
  | .tuple xs => anyContainsSecret xs
  | .set xs => anyContainsSecret xs
  | .frozenset xs => anyContainsSecret xs
  | .none => false
  | .number _ => false
  | .other _ => false
termination_by structural v => v

/-- One of the elements contains a secret. -/
def anyContainsSecret : List PyValue → Bool
  | [] => false
  | x :: xs => containsControlPlaneSecret x || anyContainsSecret xs
termination_by structural xs => xs

/-- One of the keys or values contains a secret. -/
def itemsContainSecret : List (PyValue × PyValue) → Bool
  | [] => false
  | (k, v) :: ms =>
    containsControlPlaneSecret k || containsControlPlaneSecret v || itemsContainSecret ms
termination_by structural ms => ms

end

mutual

/-- **`redact_control_plane_secrets`**. -/
def redactControlPlaneSecrets : PyValue → PyValue
  | .str t => .str (redactText t)
  | .mapping items => .mapping (PyValue.dict (redactItems items))
  | .list xs => .list (redactElements xs)
  | .tuple xs => .tuple (redactElements xs)
  | .set xs => .set (PyValue.distinct (redactElements xs))
  | .frozenset xs => .frozenset (PyValue.distinct (redactElements xs))
  | .none => .none
  | .number q => .number q
  | .other n => .other n
termination_by structural v => v

/-- The elements, redacted. -/
def redactElements : List PyValue → List PyValue
  | [] => []
  | x :: xs => redactControlPlaneSecrets x :: redactElements xs
termination_by structural xs => xs

/-- The keys and values, redacted. -/
def redactItems : List (PyValue × PyValue) → List (PyValue × PyValue)
  | [] => []
  | (k, v) :: ms => (redactControlPlaneSecrets k, redactControlPlaneSecrets v) :: redactItems ms
termination_by structural ms => ms

end

/-! ## Texts -/

theorem plain_controlPlaneSecretPattern : controlPlaneSecretPattern.plain = true := by decide

theorem nullable_controlPlaneSecretPattern : controlPlaneSecretPattern.nullable = false := by
  decide

/-- The letters of a secret are those of tokens, and dots. -/
theorem over_controlPlaneSecretPattern :
    controlPlaneSecretPattern.Over fun c => isTokenChar c = true ∨ c = 0x2e := by
  have hlit : ∀ {w : Text}, (w.all fun c => isTokenChar c || c == 0x2e) = true →
      (Regex.lit w).Over fun c => isTokenChar c = true ∨ c = 0x2e := fun h =>
    Regex.over_lit (by simpa using h)
  have hplus : (Regex.plus (.one isTokenChar)).Over fun c => isTokenChar c = true ∨ c = 0x2e :=
    ⟨fun c hc => .inl hc, fun c hc => .inl hc⟩
  refine Regex.over_chain fun r hr => ?_
  simp only [List.mem_cons, List.not_mem_nil, or_false] at hr
  rcases hr with rfl | rfl | rfl | rfl | rfl
  · exact hlit (by decide)
  · refine Regex.over_anyOf fun r hr => ?_
    obtain ⟨w, hw, rfl⟩ := List.mem_map.mp hr
    have hwords : ∀ w ∈ ["prn_", "rtc_", "ent_", "crc_", "catk_", "csc_", "cab_"].map Text.ofString,
        (w.all fun c => isTokenChar c || c == 0x2e) = true := by decide
    exact hlit (hwords w hw)
  · exact hplus
  · exact hlit (by decide)
  · exact hplus

/-- Every secret has a dot. -/
theorem dot_mem_of_secret {w : Text} (hw : w ∈ controlPlaneSecretPattern.words) : 0x2e ∈ w := by
  obtain ⟨x, hx, y, -, rfl⟩ := Language.mem_mul.mp hw
  rw [Regex.words_lit] at hx
  obtain rfl : x = Text.ofString "cao." := hx
  exact List.mem_append_left y (by decide)

/-- **The redaction keeps secrets apart**, and is none. -/
theorem fence_redaction :
    controlPlaneSecretPattern.Fence controlPlaneSecretRedaction := by
  refine ⟨0x5b, Text.ofString "control-plane-credential-redacted", 0x5d, by decide,
    fun w hw => ?_, fun w hw hpart => ?_⟩
  · have hletters := Regex.forall_mem_words over_controlPlaneSecretPattern w hw
    exact ⟨fun h => absurd (hletters _ h) (by decide), fun h => absurd (hletters _ h) (by decide)⟩
  · exact absurd (hpart.subset (dot_mem_of_secret hw)) (by decide)

theorem textContainsSecret_eq_false {t : Text} :
    textContainsSecret t = false ↔ controlPlaneSecretPattern.Clean t := by
  unfold textContainsSecret
  rw [Option.isSome_eq_false_iff, Option.isNone_iff_eq_none,
    Regex.search_eq_none_iff plain_controlPlaneSecretPattern]

/-- **A redacted text holds no secret.** -/
theorem textContainsSecret_redactText (t : Text) : textContainsSecret (redactText t) = false :=
  textContainsSecret_eq_false.mpr
    (Regex.clean_sub plain_controlPlaneSecretPattern nullable_controlPlaneSecretPattern
      (fun _ => fence_redaction) t)

-- The match ends before what cannot be part of it.
example : redactText (Text.ofString "(cao.prn_7.x-9)") =
    Text.ofString "([control-plane-credential-redacted])" := by decide

theorem redactText_of_clean {t : Text} (h : textContainsSecret t = false) : redactText t = t :=
  Regex.sub_of_clean plain_controlPlaneSecretPattern (textContainsSecret_eq_false.mp h)

/-! ## Values -/

theorem anyContainsSecret_eq_false {xs : List PyValue} :
    anyContainsSecret xs = false ↔ ∀ x ∈ xs, containsControlPlaneSecret x = false := by
  induction xs with
  | nil => simp [anyContainsSecret]
  | cons x xs ih => simp [anyContainsSecret, ih]

theorem itemsContainSecret_eq_false {ms : List (PyValue × PyValue)} :
    itemsContainSecret ms = false ↔ ∀ m ∈ ms,
      containsControlPlaneSecret m.1 = false ∧ containsControlPlaneSecret m.2 = false := by
  induction ms with
  | nil => simp [itemsContainSecret]
  | cons m ms ih => simp [itemsContainSecret, ih, and_assoc]

theorem redactElements_eq (xs : List PyValue) :
    redactElements xs = xs.map redactControlPlaneSecrets := by
  induction xs with
  | nil => rfl
  | cons x xs ih => simp [redactElements, ih]

theorem redactItems_eq (ms : List (PyValue × PyValue)) :
    redactItems ms
      = ms.map fun m => (redactControlPlaneSecrets m.1, redactControlPlaneSecrets m.2) := by
  induction ms with
  | nil => rfl
  | cons m ms ih => simp [redactItems, ih]

/-- **No secret is left**, at any depth. -/
theorem containsControlPlaneSecret_redact (v : PyValue) :
    containsControlPlaneSecret (redactControlPlaneSecrets v) = false := by
  have helements : ∀ {xs : List PyValue},
      (∀ x ∈ xs, containsControlPlaneSecret (redactControlPlaneSecrets x) = false) →
      ∀ y ∈ redactElements xs, containsControlPlaneSecret y = false := fun {xs} ih y hy => by
    rw [redactElements_eq] at hy
    obtain ⟨x, hx, rfl⟩ := List.mem_map.mp hy
    exact ih x hx
  induction v using PyValue.induct with
  | none | number | other => rfl
  | str t => exact textContainsSecret_redactText t
  | mapping ms ih =>
    refine itemsContainSecret_eq_false.mpr
      (PyValue.forall_mem_dict (P := fun k => containsControlPlaneSecret k = false)
        (Q := fun v => containsControlPlaneSecret v = false) fun e he => ?_)
    rw [redactItems_eq] at he
    obtain ⟨m, hm, rfl⟩ := List.mem_map.mp he
    exact ih m hm
  | list xs ih | tuple xs ih => exact anyContainsSecret_eq_false.mpr (helements ih)
  | set xs ih | frozenset xs ih =>
    exact anyContainsSecret_eq_false.mpr (PyValue.forall_mem_distinct (helements ih))

/-- What redaction builds is a value. -/
theorem valid_redact (v : PyValue) : (redactControlPlaneSecrets v).Valid := by
  have helements : ∀ {xs : List PyValue}, (∀ x ∈ xs, (redactControlPlaneSecrets x).Valid) →
      ∀ y ∈ redactElements xs, y.Valid := fun {xs} ih y hy => by
    rw [redactElements_eq] at hy
    obtain ⟨x, hx, rfl⟩ := List.mem_map.mp hy
    exact ih x hx
  induction v using PyValue.induct with
  | none => exact .none
  | number q => exact .number q
  | other n => exact .other n
  | str t => exact .str _
  | mapping ms ih =>
    have hitems : ∀ e ∈ PyValue.dict (redactItems ms), e.1.Valid ∧ e.2.Valid :=
      PyValue.forall_mem_dict fun e he => by
        rw [redactItems_eq] at he
        obtain ⟨m, hm, rfl⟩ := List.mem_map.mp he
        exact ih m hm
    exact .mapping (PyValue.pairwise_dict _) (fun e he => (hitems e he).1)
      fun e he => (hitems e he).2
  | list xs ih => exact .list (helements ih)
  | tuple xs ih => exact .tuple (helements ih)
  | set xs ih =>
    exact .set (PyValue.pairwise_distinct _) (PyValue.forall_mem_distinct (helements ih))
  | frozenset xs ih =>
    exact .frozenset (PyValue.pairwise_distinct _) (PyValue.forall_mem_distinct (helements ih))

/-- **A value without a secret is left as it is.** -/
theorem redact_of_clean {v : PyValue} (hv : v.Valid) (h : containsControlPlaneSecret v = false) :
    redactControlPlaneSecrets v = v := by
  have helements : ∀ {xs : List PyValue},
      (∀ x ∈ xs, containsControlPlaneSecret x = false → redactControlPlaneSecrets x = x) →
      anyContainsSecret xs = false → redactElements xs = xs := fun {xs} ih h => by
    rw [redactElements_eq]
    exact (List.map_congr_left fun x hx =>
      ih x hx (anyContainsSecret_eq_false.mp h x hx)).trans (List.map_id xs)
  induction hv with
  | none | number | other => rfl
  | str t => exact congrArg PyValue.str (redactText_of_clean h)
  | mapping hkeys _ _ ihk ihv =>
    rename_i ms _ _
    have hitems : redactItems ms = ms := by
      rw [redactItems_eq]
      refine (List.map_congr_left fun m hm => ?_).trans (List.map_id ms)
      obtain ⟨hk, hv⟩ := itemsContainSecret_eq_false.mp h m hm
      rw [ihk m hm hk, ihv m hm hv]
      rfl
    show PyValue.mapping (PyValue.dict (redactItems ms)) = _
    rw [hitems, PyValue.dict_of_pairwise hkeys]
  | list _ ih => exact congrArg PyValue.list (helements ih h)
  | tuple _ ih => exact congrArg PyValue.tuple (helements ih h)
  | set hxs _ ih =>
    show PyValue.set (PyValue.distinct (redactElements _)) = _
    rw [helements ih h, PyValue.distinct_of_pairwise hxs]
  | frozenset hxs _ ih =>
    show PyValue.frozenset (PyValue.distinct (redactElements _)) = _
    rw [helements ih h, PyValue.distinct_of_pairwise hxs]

/-- **Redaction is complete and minimal**: no secret is left, redacting again changes nothing,
and neither does redacting a value without a secret. -/
theorem redaction_complete_minimal (v : PyValue) (hv : v.Valid) :
    containsControlPlaneSecret (redactControlPlaneSecrets v) = false ∧
    redactControlPlaneSecrets (redactControlPlaneSecrets v) = redactControlPlaneSecrets v ∧
    (containsControlPlaneSecret v = false → redactControlPlaneSecrets v = v) :=
  ⟨containsControlPlaneSecret_redact v,
    redact_of_clean (valid_redact v) (containsControlPlaneSecret_redact v), redact_of_clean hv⟩

/-- A launch diagnostic with a credential in a key, and two in a set that become one. -/
def sampleDiagnostic : PyValue :=
  .mapping [(.str (Text.ofString "env cao.rtc_1.k"), .list [.none, .number 1]),
    (.str (Text.ofString "tickets"),
      .set [.str (Text.ofString "cao.ent_1.a"), .str (Text.ofString "cao.ent_2.b")])]

theorem valid_sampleDiagnostic : sampleDiagnostic.Valid := by
  refine .mapping (by decide) (fun m hm => ?_) (fun m hm => ?_) <;>
    simp only [List.mem_cons, List.not_mem_nil, or_false] at hm <;>
    rcases hm with rfl | rfl
  · exact .str _
  · exact .str _
  · refine .list fun x hx => ?_
    simp only [List.mem_cons, List.not_mem_nil, or_false] at hx
    rcases hx with rfl | rfl
    · exact .none
    · exact .number 1
  · refine .set (by decide) fun x hx => ?_
    simp only [List.mem_cons, List.not_mem_nil, or_false] at hx
    rcases hx with rfl | rfl <;> exact .str _

theorem redaction_complete_minimal_diagnostic :
    containsControlPlaneSecret sampleDiagnostic = true ∧
    containsControlPlaneSecret (redactControlPlaneSecrets sampleDiagnostic) = false ∧
    redactControlPlaneSecrets (redactControlPlaneSecrets sampleDiagnostic)
      = redactControlPlaneSecrets sampleDiagnostic :=
  have h := redaction_complete_minimal sampleDiagnostic valid_sampleDiagnostic
  ⟨by decide, h.1, h.2.1⟩

end Secrets
