import OpenCAO.PythonText

/-!
# Lower case

`str.lower` puts a text together from the lower cases of its characters. A lower case may
be several characters, and it may depend on where the character stands, as that of a sigma
does. No table of Unicode is needed for what is wanted here: that ASCII is mapped by
itself, and that nothing else becomes ASCII, but for a letter. So a delimiter stands in
the lower case of a text exactly if it stands in the text (`Lowered.mem_iff`).
-/

namespace LowerCase

/-- The lower case of a character of ASCII. -/
def asciiLower (c : ℕ) : ℕ := if 0x41 ≤ c ∧ c ≤ 0x5a then c + 0x20 else c

/-- A small letter of ASCII. -/
def isSmall (c : ℕ) : Bool := 0x61 ≤ c && c ≤ 0x7a

/-- A character of ASCII that is no letter. -/
def isDelimiter (c : ℕ) : Bool := decide (c < 0x80) && !isSmall c && decide (asciiLower c = c)

/-- What may stand in the lower case of a character beyond ASCII: the character itself, or
another one that is `plain`. -/
def Derived (plain : ℕ → Prop) (c d : ℕ) : Prop :=
  isSmall d = true ∨ 0x80 ≤ d ∧ (d = c ∨ plain d)

/-- **A text and its lower case.** -/
inductive Lowered (plain : ℕ → Prop) : Text → Text → Prop where
  | nil : Lowered plain [] []
  | ascii {c : ℕ} {t u : Text} (hc : c < 0x80) (h : Lowered plain t u) :
      Lowered plain (c :: t) (asciiLower c :: u)
  | other {c : ℕ} {t v u : Text} (hc : 0x80 ≤ c) (hne : v ≠ []) (hv : ∀ d ∈ v, Derived plain c d)
      (h : Lowered plain t u) : Lowered plain (c :: t) (v ++ u)

theorem asciiLower_lt {c : ℕ} (h : c < 0x80) : asciiLower c < 0x80 := by
  unfold asciiLower
  split_ifs <;> omega

theorem asciiLower_asciiLower (c : ℕ) : asciiLower (asciiLower c) = asciiLower c := by
  unfold asciiLower
  split_ifs <;> omega

theorem asciiLower_of_isSmall {c : ℕ} (h : isSmall c = true) : asciiLower c = c := by
  simp only [isSmall, Bool.and_eq_true, decide_eq_true_eq] at h
  unfold asciiLower
  rw [if_neg (by omega)]

theorem isSmall_lt {c : ℕ} (h : isSmall c = true) : c < 0x80 := by
  simp only [isSmall, Bool.and_eq_true, decide_eq_true_eq] at h
  omega

/-- A delimiter is the lower case of nothing else. -/
theorem asciiLower_eq_iff {c d : ℕ} (hd : isDelimiter d = true) : asciiLower c = d ↔ c = d := by
  simp only [isDelimiter, Bool.and_eq_true, Bool.not_eq_true', decide_eq_true_eq] at hd
  obtain ⟨⟨-, hsmall⟩, hlower⟩ := hd
  constructor
  · rintro rfl
    by_contra hne
    have hletter : 0x41 ≤ c ∧ c ≤ 0x5a := by
      by_contra hletter
      exact hne (by rw [asciiLower, if_neg hletter])
    rw [asciiLower, if_pos hletter] at hsmall
    simp only [isSmall, Bool.and_eq_false_iff, decide_eq_false_iff_not] at hsmall
    omega
  · rintro rfl
    exact hlower

theorem not_derived {plain : ℕ → Prop} {c d : ℕ} (hd : isDelimiter d = true) :
    ¬ Derived plain c d := by
  simp only [isDelimiter, Bool.and_eq_true, Bool.not_eq_true', decide_eq_true_eq] at hd
  rintro (h | h)
  · rw [hd.1.2] at h
    exact Bool.noConfusion h
  · omega

namespace Lowered

variable {plain : ℕ → Prop} {t t' u u' : Text}

theorem append (h : Lowered plain t u) (h' : Lowered plain t' u') :
    Lowered plain (t ++ t') (u ++ u') := by
  induction h with
  | nil => exact h'
  | ascii hc _ ih => exact .ascii hc ih
  | other hc hne hv _ ih =>
    rw [List.append_assoc]
    exact .other hc hne hv ih

/-- The lower case of a text is made of those of its parts. -/
theorem exists_of_append (h : Lowered plain (t ++ t') u) :
    ∃ v v', u = v ++ v' ∧ Lowered plain t v ∧ Lowered plain t' v' := by
  induction t generalizing u with
  | nil => exact ⟨[], u, rfl, .nil, h⟩
  | cons c t ih =>
    cases h with
    | ascii hc h =>
      obtain ⟨v, v', rfl, hv, hv'⟩ := ih h
      exact ⟨_ :: v, v', rfl, .ascii hc hv, hv'⟩
    | other hc hne hd h =>
      obtain ⟨v, v', rfl, hv, hv'⟩ := ih h
      exact ⟨_ ++ v, v', (List.append_assoc _ _ _).symm, .other hc hne hd hv, hv'⟩

/-- Delimiters stay. -/
theorem mem_iff {d : ℕ} (hd : isDelimiter d = true) (h : Lowered plain t u) : d ∈ u ↔ d ∈ t := by
  induction h with
  | nil => exact Iff.rfl
  | ascii _ _ ih =>
    rw [List.mem_cons, List.mem_cons, ih, eq_comm, asciiLower_eq_iff hd, eq_comm]
  | @other c t v u hc _ hv _ ih =>
    have hne : d ≠ c := by
      rintro rfl
      simp only [isDelimiter, Bool.and_eq_true, decide_eq_true_eq] at hd
      omega
    have hnotMem : d ∉ v := fun hmem => not_derived hd (hv d hmem)
    rw [List.mem_append, List.mem_cons, ih, or_iff_right hnotMem, or_iff_right hne]

/-- A text has nothing but a delimiter exactly if its lower case has. -/
theorem forall_eq_iff {d : ℕ} (hd : isDelimiter d = true) (h : Lowered plain t u) :
    (∀ c ∈ u, c = d) ↔ ∀ c ∈ t, c = d := by
  induction h with
  | nil => exact Iff.rfl
  | ascii _ _ ih => rw [List.forall_mem_cons, List.forall_mem_cons, ih, asciiLower_eq_iff hd]
  | @other c t v u hc hne hv _ ih =>
    obtain ⟨e, he⟩ := List.exists_mem_of_ne_nil v hne
    refine iff_of_false (fun hall => ?_) (fun hall => ?_)
    · obtain rfl := hall e (List.mem_append_left _ he)
      exact not_derived hd (hv e he)
    · obtain rfl := hall c List.mem_cons_self
      simp only [isDelimiter, Bool.and_eq_true, decide_eq_true_eq] at hd
      omega

/-- ASCII is mapped by itself. -/
theorem eq_map (h : Lowered plain t u) (hascii : ∀ c ∈ t, c < 0x80) : u = t.map asciiLower := by
  induction h with
  | nil => rfl
  | ascii _ _ ih =>
    rw [List.map_cons, ← ih fun c hc => hascii c (List.mem_cons_of_mem _ hc)]
  | other hc _ _ _ _ =>
    have hlt := hascii _ List.mem_cons_self
    omega

/-- What is not ASCII stood there before, or is plain. -/
theorem mem_or_plain {d : ℕ} (h : Lowered plain t u) (hmem : d ∈ u) (hd : 0x80 ≤ d) :
    d ∈ t ∨ plain d := by
  induction h with
  | nil => exact absurd hmem List.not_mem_nil
  | ascii hc _ ih =>
    rcases List.mem_cons.mp hmem with rfl | hmem
    · have hlt := asciiLower_lt hc
      omega
    · exact (ih hmem).imp_left (List.mem_cons_of_mem _)
  | other _ _ hv _ ih =>
    rcases List.mem_append.mp hmem with hmem | hmem
    · rcases hv d hmem with hsmall | ⟨-, rfl | hplain⟩
      · have hlt := isSmall_lt hsmall
        omega
      · exact .inl List.mem_cons_self
      · exact .inr hplain
    · exact (ih hmem).imp_left (List.mem_cons_of_mem _)

/-- What is derived has a lower case that is derived. -/
theorem derived {c : ℕ} (h : Lowered plain t u) (ht : ∀ d ∈ t, Derived plain c d) :
    ∀ d ∈ u, Derived plain c d := by
  induction h with
  | nil => exact fun d hd => absurd hd List.not_mem_nil
  | @ascii e t u he _ ih =>
    refine List.forall_mem_cons.mpr ⟨?_, ih fun d hd => ht d (List.mem_cons_of_mem _ hd)⟩
    rcases ht e List.mem_cons_self with hsmall | ⟨hle, -⟩
    · rw [asciiLower_of_isSmall hsmall]
      exact .inl hsmall
    · omega
  | @other e t v u he _ hv _ ih =>
    intro d hd
    rcases List.mem_append.mp hd with hd | hd
    · rcases hv d hd with hsmall | ⟨hle, rfl | hplain⟩
      · exact .inl hsmall
      · exact ht d List.mem_cons_self
      · exact .inr ⟨hle, .inr hplain⟩
    · exact ih (fun d hd => ht d (List.mem_cons_of_mem _ hd)) d hd

theorem ne_nil (h : Lowered plain t u) (hne : t ≠ []) : u ≠ [] := by
  cases h with
  | nil => exact absurd rfl hne
  | ascii => exact List.cons_ne_nil _ _
  | other _ hv _ _ => exact fun h => hv (List.append_eq_nil_iff.mp h).1

/-- **The lower case of a lower case is one.** -/
theorem trans {v : Text} (h : Lowered plain t u) (h' : Lowered plain u v) : Lowered plain t v := by
  induction h generalizing v with
  | nil => exact h'
  | @ascii c t u hc _ ih =>
    cases h' with
    | ascii _ h' =>
      rw [asciiLower_asciiLower]
      exact .ascii hc (ih h')
    | other hle _ _ _ =>
      have hlt := asciiLower_lt hc
      omega
  | @other c t w u hc hne hw _ ih =>
    obtain ⟨v₁, v₂, rfl, hv₁, hv₂⟩ := exists_of_append h'
    exact .other hc (hv₁.ne_nil hne) (hv₁.derived hw) (ih hv₂)

/-- `asciiLower` alone is such a lower case. -/
theorem map_asciiLower (plain : ℕ → Prop) (t : Text) : Lowered plain t (t.map asciiLower) := by
  induction t with
  | nil => exact .nil
  | cons c t ih =>
    by_cases hc : c < 0x80
    · exact .ascii hc ih
    · have hself : asciiLower c = c := by rw [asciiLower, if_neg (by omega)]
      refine .other (v := [asciiLower c]) (by omega) (List.cons_ne_nil _ _) ?_ ih
      rw [List.forall_mem_singleton, hself]
      exact .inr ⟨by omega, .inl rfl⟩

end Lowered

end LowerCase
