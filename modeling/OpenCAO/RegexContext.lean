import OpenCAO.Regex

/-!
# Patterns in a context

What a pattern matches in a text depends on the text around the match only through the
assertions, and through the letters that a longer match would take. So a letter that the
pattern never reads, and that its assertions take for the end or the beginning of a text,
cuts a text in two as far as the pattern is concerned (`StopsAt`, `StartsAt`): on either
side of it the same is matched as if the other side were not there. The matches of the
whole are then those of the two parts (`pieces_append_cons`).

A pattern that asserts nothing about what comes behind a match (`forward`) is different.
It may read on across the letter, but what it matched stays matched, whatever the text is
continued with (`mem_ends_of_forward`).

Together the two say what becomes of the matches of a text when the text is cut short
(`matches_of_cut`): where the longer text had none, those of the shorter one lie behind any
such letter.
-/

universe u

namespace Regex

variable {α : Type u} {r s : Regex α}

/-! ## Repetitions -/

/-- The bound on the number of repetitions is not felt. -/
theorem iterate_of_le {step : Cursor α → List (Cursor α)} {greedy : Bool} :
    ∀ (n m : ℕ) (c : Cursor α), c.after.length ≤ n → c.after.length ≤ m →
      iterate step greedy n c = iterate step greedy m c := by
  have hend : ∀ (m : ℕ) (c : Cursor α), c.after.length = 0 → iterate step greedy m c = [c] := by
    intro m c hc
    cases m with
    | zero => rfl
    | succ m => cases greedy <;> simp [iterate, hc]
  intro n
  induction n with
  | zero =>
    intro m c hn _
    rw [hend 0 c (by omega), hend m c (by omega)]
  | succ n ih =>
    intro m c hn hm
    cases m with
    | zero => rw [hend (n + 1) c (by omega), hend 0 c (by omega)]
    | succ m =>
      have hmore : (fun d : Cursor α =>
          if d.after.length < c.after.length then iterate step greedy n d else [])
          = fun d => if d.after.length < c.after.length then iterate step greedy m d else [] := by
        funext d
        by_cases hd : d.after.length < c.after.length
        · rw [if_pos hd, if_pos hd, ih m d (by omega) (by omega)]
        · rw [if_neg hd, if_neg hd]
      simp only [iterate, hmore]

/-- **A repetition is nothing, or one time and a repetition.** -/
theorem ends_star (greedy : Bool) (r : Regex α) (c : Cursor α) :
    ends (star greedy r) c =
      let more := (ends r c).flatMap fun d =>
        if d.after.length < c.after.length then ends (star greedy r) d else []
      if greedy then more ++ [c] else c :: more := by
  have hunfold : ends (star greedy r) c = iterate (ends r) greedy (c.after.length + 1) c :=
    iterate_of_le _ _ c le_rfl (Nat.le_succ _)
  have hmore : (fun d : Cursor α =>
      if d.after.length < c.after.length then iterate (ends r) greedy c.after.length d else [])
      = fun d => if d.after.length < c.after.length then ends (star greedy r) d else [] := by
    funext d
    by_cases hd : d.after.length < c.after.length
    · rw [if_pos hd, if_pos hd]
      exact iterate_of_le _ _ d (by omega) le_rfl
    · rw [if_neg hd, if_neg hd]
  rw [hunfold]
  simp only [iterate, hmore]

theorem mem_ends_star {greedy : Bool} {c d : Cursor α} :
    d ∈ ends (star greedy r) c ↔ d = c ∨
      ∃ e ∈ ends r c, e.after.length < c.after.length ∧ d ∈ ends (star greedy r) e := by
  rw [ends_star]
  cases greedy <;> simp [or_comm]

/-! ## Moving a position -/

/-- The position with more text behind. -/
def Cursor.extend (c : Cursor α) (tail : List α) : Cursor α := { c with after := c.after ++ tail }

/-- The position with more text before. -/
def Cursor.behind (c : Cursor α) (front : List α) : Cursor α :=
  { c with before := c.before ++ front }

/-- **A way to move positions** that keeps what is read between two of them. -/
structure Moves (f : Cursor α → Cursor α) : Prop where
  length : ∀ c d, (f d).after.length < (f c).after.length ↔ d.after.length < c.after.length
  group : ∀ k w c d, Reads w c d →
    { f d with groups := (k, (f c).between (f d)) :: (f d).groups }
      = f { d with groups := (k, c.between d) :: d.groups }

theorem moves_extend (tail : List α) : Moves fun c : Cursor α => c.extend tail where
  length c d := by simp [Cursor.extend]
  group k w c d h := by
    have hmoved : Reads w (c.extend tail) (d.extend tail) :=
      ⟨by simp [Cursor.extend, h.after], h.before⟩
    show (⟨d.before, d.after ++ tail, (k, (c.extend tail).between (d.extend tail)) :: d.groups⟩ :
      Cursor α) = ⟨d.before, d.after ++ tail, (k, c.between d) :: d.groups⟩
    rw [hmoved.between, h.between]

theorem moves_behind (front : List α) : Moves fun c : Cursor α => c.behind front where
  length _ _ := Iff.rfl
  group _ _ _ _ _ := rfl

/-- A sequence moves along if its parts do, the second one at the positions it is tried at. -/
theorem ends_seq_moved {f : Cursor α → Cursor α} {c : Cursor α}
    (hr : ends r (f c) = (ends r c).map f)
    (hs : ∀ d ∈ ends r c, ends s (f d) = (ends s d).map f) :
    ends (seq r s) (f c) = (ends (seq r s) c).map f := by
  show (ends r (f c)).flatMap (ends s) = ((ends r c).flatMap (ends s)).map f
  rw [hr, List.flatMap_map, List.map_flatMap]
  exact List.flatMap_congr hs

theorem ends_alt_moved {f : Cursor α → Cursor α} {c : Cursor α}
    (hr : ends r (f c) = (ends r c).map f) (hs : ends s (f c) = (ends s c).map f) :
    ends (alt r s) (f c) = (ends (alt r s) c).map f := by
  show ends r (f c) ++ ends s (f c) = (ends r c ++ ends s c).map f
  rw [hr, hs, List.map_append]

theorem ends_anyOf_moved {f : Cursor α → Cursor α} {c : Cursor α} : ∀ {rs : List (Regex α)},
    rs ≠ [] → (∀ r ∈ rs, ends r (f c) = (ends r c).map f) →
      ends (anyOf rs) (f c) = (ends (anyOf rs) c).map f
  | [], hne, _ => absurd rfl hne
  | [r], _, h => h r List.mem_cons_self
  | r :: s :: rs, _, h =>
    ends_alt_moved (h r List.mem_cons_self)
      (ends_anyOf_moved (List.cons_ne_nil s rs) fun t ht => h t (List.mem_cons_of_mem r ht))

/-! ## The leaves of a pattern -/

/-- **What is said of every class of letters and of every assertion** of a pattern. -/
def Leaves (P : (α → Bool) → Prop) (Q : (Option α → Option α → Bool) → Prop) : Regex α → Prop
  | empty => True
  | one p => P p
  | check q => Q q
  | seq r s | alt r s => Leaves P Q r ∧ Leaves P Q s
  | star _ r | group _ r => Leaves P Q r

section Leaves

variable {P P' : (α → Bool) → Prop} {Q Q' : (Option α → Option α → Bool) → Prop}

theorem Leaves.imp (hP : ∀ p, P p → P' p) (hQ : ∀ q, Q q → Q' q) : ∀ {r : Regex α},
    r.Leaves P Q → r.Leaves P' Q'
  | empty, _ => trivial
  | one p, h => hP p h
  | check q, h => hQ q h
  | seq _ _, h | alt _ _, h => ⟨h.1.imp hP hQ, h.2.imp hP hQ⟩
  | star _ r, h | group _ r, h => Leaves.imp hP hQ (r := r) h

theorem leaves_chain : ∀ {rs : List (Regex α)}, (∀ r ∈ rs, r.Leaves P Q) → (chain rs).Leaves P Q
  | [], _ => trivial
  | [r], h => h r List.mem_cons_self
  | r :: _ :: _, h =>
    ⟨h r List.mem_cons_self, leaves_chain fun s hs => h s (List.mem_cons_of_mem r hs)⟩

theorem leaves_anyOf : ∀ {rs : List (Regex α)}, rs ≠ [] → (∀ r ∈ rs, r.Leaves P Q) →
    (anyOf rs).Leaves P Q
  | [], hne, _ => absurd rfl hne
  | [r], _, h => h r List.mem_cons_self
  | r :: s :: rs, _, h =>
    ⟨h r List.mem_cons_self,
      leaves_anyOf (List.cons_ne_nil s rs) fun t ht => h t (List.mem_cons_of_mem r ht)⟩

theorem leaves_times (h : r.Leaves P Q) : ∀ n, (times n r).Leaves P Q
  | 0 => trivial
  | n + 1 => ⟨h, leaves_times h n⟩

theorem leaves_plus (h : r.Leaves P Q) : (plus r).Leaves P Q := ⟨h, h⟩

theorem leaves_opt (h : r.Leaves P Q) : (opt r).Leaves P Q := ⟨h, trivial⟩

theorem leaves_atLeast (h : r.Leaves P Q) (n : ℕ) : (atLeast n r).Leaves P Q :=
  ⟨leaves_times h n, h⟩

end Leaves

/-- **The matches move along**, if they do so for letters and assertions. -/
theorem ends_moved {f : Cursor α → Cursor α} (hf : Moves f) : ∀ {r : Regex α},
    r.Leaves (fun p => ∀ c, ends (one p) (f c) = (ends (one p) c).map f)
      (fun q => ∀ c, ends (check q) (f c) = (ends (check q) c).map f) →
    ∀ c, ends r (f c) = (ends r c).map f
  | empty, _, _ => rfl
  | one _, h, c | check _, h, c => h c
  | seq r s, h, c => ends_seq_moved (ends_moved hf h.1 c) fun d _ => ends_moved hf h.2 d
  | alt r s, h, c => ends_alt_moved (ends_moved hf h.1 c) (ends_moved hf h.2 c)
  | star greedy r, h, c => by
    -- By the length of the text behind, with the equation of a repetition.
    induction hn : c.after.length using Nat.strong_induction_on generalizing c with
    | _ n ih =>
      have hmore : (ends r (f c)).flatMap (fun d =>
          if d.after.length < (f c).after.length then ends (star greedy r) d else [])
          = ((ends r c).flatMap fun d =>
            if d.after.length < c.after.length then ends (star greedy r) d else []).map f := by
        rw [ends_moved hf (r := r) h, List.flatMap_map, List.map_flatMap]
        refine List.flatMap_congr fun d _ => ?_
        by_cases hd : d.after.length < c.after.length
        · rw [if_pos hd, if_pos ((hf.length c d).mpr hd)]
          exact ih _ (hn ▸ hd) d rfl
        · rw [if_neg hd, if_neg (mt (hf.length c d).mp hd), List.map_nil]
      rw [ends_star, ends_star]
      cases greedy <;> simp [hmore]
  | group k r, h, c => by
    show (ends r (f c)).map _ = ((ends r c).map _).map f
    rw [ends_moved hf (r := r) h, List.map_map, List.map_map]
    refine List.map_congr_left fun d hd => ?_
    obtain ⟨w, -, hreads⟩ := reads_of_mem_ends r c d hd
    exact hf.group k w c d hreads

/-! ## Letters that cut a text -/

/-- **No match goes on to the letter `a`**: no class of the pattern has it, and the
assertions take it for the end of the text. -/
def StopsAt (a : α) : Regex α → Prop :=
  Leaves (fun p => p a = false) fun q => ∀ x, q x (some a) = q x none

/-- **The letter `a` is like the beginning of a text** for the assertions. -/
def StartsAt (a : α) : Regex α → Prop :=
  Leaves (fun _ => True) fun q => ∀ x, q (some a) x = q none x

variable {a : α}

/-- A class reads the same letter, whatever surrounds it. -/
theorem ends_one_moved {f : Cursor α → Cursor α} {p : α → Bool}
    (hcons : ∀ b before after groups, ∃ d : Cursor α,
      f ⟨before, b :: after, groups⟩ = ⟨d.before, b :: d.after, d.groups⟩ ∧
      f ⟨b :: before, after, groups⟩ = ⟨b :: d.before, d.after, d.groups⟩)
    (hnil : ∀ before groups, ends (one p) (f ⟨before, [], groups⟩) = []) (c : Cursor α) :
    ends (one p) (f c) = (ends (one p) c).map f := by
  obtain ⟨before, after, groups⟩ := c
  cases after with
  | nil => exact hnil before groups
  | cons b after =>
    obtain ⟨d, hd, hd'⟩ := hcons b before after groups
    rw [hd]
    show (if p b = true then _ else _) = (if p b = true then _ else _ : List _).map f
    by_cases hb : p b = true
    · rw [if_pos hb, if_pos hb, List.map_singleton, hd']
    · rw [if_neg hb, if_neg hb, List.map_nil]

/-- An assertion holds where it did, if it cannot see the difference. -/
theorem ends_check_moved {f : Cursor α → Cursor α} {q : Option α → Option α → Bool} (c : Cursor α)
    (h : q (f c).before.head? (f c).after.head? = q c.before.head? c.after.head?) :
    ends (check q) (f c) = (ends (check q) c).map f := by
  show (if q (f c).before.head? (f c).after.head? = true then _ else _)
    = (if q c.before.head? c.after.head? = true then _ else _ : List _).map f
  rw [h]
  by_cases hq : q c.before.head? c.after.head? = true
  · rw [if_pos hq, if_pos hq, List.map_singleton]
  · rw [if_neg hq, if_neg hq, List.map_nil]

/-- **Before a letter that ends a match**, the text behind it is not seen. -/
theorem StopsAt.ends_extend (h : r.StopsAt a) (c : Cursor α) (tail : List α) :
    ends r (c.extend (a :: tail)) = (ends r c).map (·.extend (a :: tail)) := by
  refine ends_moved (moves_extend (a :: tail)) (h.imp (fun p hp => ?_) fun q hq => ?_) c
  · refine ends_one_moved (fun b before after groups => ⟨⟨before, after ++ a :: tail, groups⟩,
      rfl, rfl⟩) fun before groups => ?_
    show (if p a = true then _ else _) = _
    rw [hp]
    rfl
  · rintro ⟨before, after, groups⟩
    refine ends_check_moved (f := fun c => c.extend (a :: tail)) _ ?_
    cases after with
    | nil => exact hq before.head?
    | cons b after => rfl

/-- Before a letter that ends a match, more text behind is not seen. -/
theorem StopsAt.ends_extend_of_mem (h : r.StopsAt a) {c : Cursor α} (ha : a ∈ c.after)
    (tail : List α) : ends r (c.extend tail) = (ends r c).map (·.extend tail) := by
  obtain ⟨before, after, groups⟩ := c
  obtain ⟨u, v, rfl⟩ := List.append_of_mem ha
  have hwhole : (⟨before, u ++ a :: v, groups⟩ : Cursor α).extend tail
      = (⟨before, u, groups⟩ : Cursor α).extend (a :: (v ++ tail)) := by simp [Cursor.extend]
  have hpart : (⟨before, u ++ a :: v, groups⟩ : Cursor α)
      = (⟨before, u, groups⟩ : Cursor α).extend (a :: v) := rfl
  rw [hwhole, hpart, h.ends_extend, h.ends_extend, List.map_map]
  exact List.map_congr_left fun d _ => by simp [Cursor.extend]

/-- **Behind a letter that begins a text**, the text before it is not seen. -/
theorem StartsAt.ends_behind (h : r.StartsAt a) (c : Cursor α) (front : List α) :
    ends r (c.behind (a :: front)) = (ends r c).map (·.behind (a :: front)) := by
  refine ends_moved (moves_behind (a :: front)) (h.imp (fun p _ => ?_) fun q hq => ?_) c
  · exact ends_one_moved (fun b before after groups => ⟨⟨before ++ a :: front, after, groups⟩,
      rfl, rfl⟩) fun before groups => rfl
  · rintro ⟨before, after, groups⟩
    refine ends_check_moved (f := fun c => c.behind (a :: front)) _ ?_
    cases before with
    | nil => exact hq after.head?
    | cons b before => rfl

/-! ## Matches that last -/

/-- The pattern is an assertion. -/
def isCheck : Regex α → Bool
  | check _ => true
  | _ => false

/-- **Nothing is asserted about what comes behind a match**: an assertion is followed by a
letter that is read. -/
def forward : Regex α → Bool
  | empty | one _ => true
  | check _ => false
  | seq r s => (forward r || (isCheck r && !s.nullable)) && forward s
  | alt r s => forward r && forward s
  | star _ r | group _ r => forward r

theorem Reads.eq_of_after {v w : List α} {c d : Cursor α} (h : Reads v c d)
    (hw : c.after = w ++ d.after) : v = w :=
  List.append_cancel_right (h.after.symm.trans hw)

/-- **What was matched stays matched**, whatever the text is continued with. -/
theorem mem_ends_of_forward : ∀ {r : Regex α}, r.forward = true → ∀ (c : Cursor α), ∀ d ∈ ends r c,
    ∀ w, c.after = w ++ d.after → ∀ v,
      { d with after := v } ∈ ends r { c with after := w ++ v }
  | empty, _, c, d, hd, w, hw, v => by
    obtain rfl := List.mem_singleton.mp hd
    obtain rfl : w = [] := List.append_cancel_right (hw.symm.trans (List.nil_append _).symm)
    exact List.mem_singleton_self _
  | one p, _, ⟨before, after, groups⟩, d, hd, w, hw, v => by
    cases after with
    | nil => cases hd
    | cons b after =>
      have hd' : d ∈ (if p b = true then [⟨b :: before, after, groups⟩] else []) := hd
      by_cases hb : p b = true
      · rw [if_pos hb, List.mem_singleton] at hd'
        subst hd'
        obtain rfl : w = [b] := List.append_cancel_right (hw.symm.trans rfl)
        show _ ∈ (if p b = true then _ else _)
        rw [if_pos hb]
        exact List.mem_singleton_self _
      · rw [if_neg hb] at hd'
        cases hd'
  | seq r s, h, c, d, hd, w, hw, v => by
    obtain ⟨hr, hs⟩ := Bool.and_eq_true_iff.mp h
    obtain ⟨e, he, hd⟩ := List.mem_flatMap.mp hd
    obtain ⟨x, -, hx⟩ := reads_of_mem_ends r c e he
    obtain ⟨y, hy, hyd⟩ := reads_of_mem_ends s e d hd
    obtain rfl : x ++ y = w := (hx.trans hyd).eq_of_after hw
    have hrest := mem_ends_of_forward hs e d hd y hyd.after v
    refine List.mem_flatMap.mpr ⟨{ e with after := y ++ v }, ?_, hrest⟩
    rw [List.append_assoc]
    rcases Bool.or_eq_true_iff.mp hr with hr | hr
    · exact mem_ends_of_forward hr c e he x hx.after (y ++ v)
    · -- The assertion sees the first letter that is read.
      obtain ⟨hcheck, hne⟩ := Bool.and_eq_true_iff.mp hr
      cases r with
      | check p =>
        cases y with
        | nil => exact absurd hy (nil_notMem_words (by simpa using hne))
        | cons b y =>
          have hp : p c.before.head? c.after.head? = true ∧ e = c := by
            have he' : e ∈ (if p c.before.head? c.after.head? = true then [c] else []) := he
            by_cases hp : p c.before.head? c.after.head? = true
            · rw [if_pos hp, List.mem_singleton] at he'
              exact ⟨hp, he'⟩
            · rw [if_neg hp] at he'
              cases he'
          obtain ⟨hp, rfl⟩ := hp
          obtain rfl : x = [] :=
            List.append_cancel_right (hx.after.symm.trans (List.nil_append _).symm)
          rw [hyd.after] at hp
          show _ ∈ (if p e.before.head? (some b) = true then _ else _)
          rw [if_pos (by exact hp)]
          exact List.mem_singleton_self _
      | _ => cases hcheck
  | alt r s, h, c, d, hd, w, hw, v => by
    obtain ⟨hr, hs⟩ := Bool.and_eq_true_iff.mp h
    rcases List.mem_append.mp hd with hd | hd
    · exact List.mem_append_left _ (mem_ends_of_forward hr c d hd w hw v)
    · exact List.mem_append_right _ (mem_ends_of_forward hs c d hd w hw v)
  | star greedy r, h, c, d, hd, w, hw, v => by
    -- By the length of the text behind, one time after the other.
    induction hn : c.after.length using Nat.strong_induction_on generalizing c w with
    | _ n ih =>
      rcases mem_ends_star.mp hd with rfl | ⟨e, he, hlt, hd⟩
      · obtain rfl : w = [] :=
          List.append_cancel_right (hw.symm.trans (List.nil_append _).symm)
        exact mem_ends_star.mpr (.inl rfl)
      · obtain ⟨x, -, hx⟩ := reads_of_mem_ends r c e he
        obtain ⟨y, -, hyd⟩ := reads_of_mem_ends (star greedy r) e d hd
        obtain rfl : x ++ y = w := (hx.trans hyd).eq_of_after hw
        have hstep := mem_ends_of_forward (r := r) h c e he x hx.after (y ++ v)
        rw [← List.append_assoc] at hstep
        refine mem_ends_star.mpr (.inr ⟨_, hstep, ?_, ih _ (hn ▸ hlt) e hd y hyd.after rfl⟩)
        rw [hx.length] at hlt
        simp only [List.length_append] at hlt ⊢
        omega
  | group k r, h, c, d, hd, w, hw, v => by
    obtain ⟨e, he, rfl⟩ := List.mem_map.mp hd
    obtain ⟨x, -, hx⟩ := reads_of_mem_ends r c e he
    obtain rfl : x = w := hx.eq_of_after hw
    have hbetween : ({ c with after := x ++ v } : Cursor α).between { e with after := v } = x :=
      Reads.between ⟨rfl, hx.before⟩
    refine List.mem_map.mpr ⟨_, mem_ends_of_forward (r := r) h c e he x hx.after v, ?_⟩
    rw [hbetween, hx.between]

theorem startsAt_of_plain : ∀ {r : Regex α}, r.plain = true → r.StartsAt a
  | empty, _ | one _, _ => trivial
  | check _, h => by cases h
  | seq r s, h | alt r s, h =>
    ⟨startsAt_of_plain (Bool.and_eq_true_iff.mp h).1,
      startsAt_of_plain (Bool.and_eq_true_iff.mp h).2⟩
  | star _ r, h | group _ r, h => startsAt_of_plain (r := r) h

theorem forward_of_plain : ∀ {r : Regex α}, r.plain = true → r.forward = true
  | empty, _ | one _, _ => rfl
  | check _, h => by cases h
  | seq r s, h => by
    obtain ⟨hr, hs⟩ := Bool.and_eq_true_iff.mp h
    show ((r.forward || _) && s.forward) = true
    rw [forward_of_plain hr, forward_of_plain hs]
    rfl
  | alt r s, h => by
    obtain ⟨hr, hs⟩ := Bool.and_eq_true_iff.mp h
    show (r.forward && s.forward) = true
    rw [forward_of_plain hr, forward_of_plain hs]
    rfl
  | star _ r, h | group _ r, h => forward_of_plain (r := r) h

/-- An assertion before a pattern that has none. -/
theorem forward_check_seq {q : Option α → Option α → Bool} (hs : s.plain = true)
    (hne : s.nullable = false) : (seq (check q) s).forward = true := by
  show ((false || (true && !s.nullable)) && s.forward) = true
  rw [hne, forward_of_plain hs]
  rfl

theorem ends_chain_cons (r : Regex α) (rs : List (Regex α)) (c : Cursor α) :
    ends (chain (r :: rs)) c = ends (seq r (chain rs)) c := by
  cases rs with
  | nil => exact (List.flatMap_singleton' _).symm
  | cons s rs => rfl

/-! ## Where a pattern matches -/

/-- **The pattern matches somewhere in a text.** -/
def Matches (r : Regex α) (text : List α) : Prop :=
  ∃ x y, text = x ++ y ∧ ends r ⟨x.reverse, y, []⟩ ≠ []

theorem searchFrom_isSome_iff {before after : List α} :
    (searchFrom r false before after).isSome = true ↔
      ∃ x y, after = x ++ y ∧ ends r ⟨x.reverse ++ before, y, []⟩ ≠ [] := by
  have hhere : ∀ {before after : List α}, ends r ⟨before, after, []⟩ ≠ [] →
      (searchFrom r false before after).isSome = true := by
    intro before after h
    obtain ⟨d, ds, hends⟩ := List.exists_cons_of_ne_nil h
    unfold searchFrom
    rw [firstAt_false, hends]
    rfl
  have hnone : ∀ {before after : List α}, ends r ⟨before, after, []⟩ = [] →
      firstAt r false ⟨before, after, []⟩ = none := by
    intro before after h
    rw [firstAt_false, h]
    rfl
  induction after generalizing before with
  | nil =>
    constructor
    · intro h
      refine ⟨[], [], rfl, fun hends => ?_⟩
      unfold searchFrom at h
      rw [hnone (by simpa using hends)] at h
      cases h
    · rintro ⟨x, y, hxy, h⟩
      obtain ⟨rfl, rfl⟩ := List.append_eq_nil_iff.mp hxy.symm
      exact hhere h
  | cons b after ih =>
    by_cases hends : ends r ⟨before, b :: after, []⟩ = []
    · have hnext : (searchFrom r false before (b :: after)).isSome
          = (searchFrom r false (b :: before) after).isSome := by
        conv_lhs => unfold searchFrom
        rw [hnone hends, Option.isSome_map]
      rw [hnext]
      refine ih.trans ⟨?_, ?_⟩
      · rintro ⟨x, y, rfl, h⟩
        exact ⟨b :: x, y, rfl, by simpa using h⟩
      · rintro ⟨x, y, hxy, h⟩
        cases x with
        | nil =>
          obtain rfl : b :: after = y := hxy
          exact absurd hends h
        | cons b' x =>
          obtain ⟨rfl, rfl⟩ := List.cons.inj hxy
          exact ⟨x, y, rfl, by simpa using h⟩
    · exact ⟨fun _ => ⟨[], _, rfl, hends⟩, fun _ => hhere hends⟩

theorem search_isSome_iff {text : List α} : (search r text).isSome = true ↔ Matches r text := by
  unfold search Matches
  rw [searchFrom_isSome_iff]
  simp only [List.append_nil]

theorem mem_ends_anyOf : ∀ {rs : List (Regex α)} {c d : Cursor α},
    d ∈ ends (anyOf rs) c ↔ ∃ r ∈ rs, d ∈ ends r c
  | [], c, d => by simp [anyOf, ends]
  | [r], c, d => by simp [anyOf]
  | r :: s :: rs, c, d => by
    show d ∈ ends r c ++ ends (anyOf (s :: rs)) c ↔ _
    rw [List.mem_append, mem_ends_anyOf]
    simp only [List.mem_cons, exists_eq_or_imp]

theorem matches_anyOf {rs : List (Regex α)} {text : List α} :
    Matches (anyOf rs) text ↔ ∃ r ∈ rs, Matches r text := by
  constructor
  · rintro ⟨x, y, h, hends⟩
    obtain ⟨d, hd⟩ := List.exists_mem_of_ne_nil _ hends
    obtain ⟨r, hr, hd⟩ := mem_ends_anyOf.mp hd
    exact ⟨r, hr, x, y, h, List.ne_nil_of_mem hd⟩
  · rintro ⟨r, hr, x, y, h, hends⟩
    obtain ⟨d, hd⟩ := List.exists_mem_of_ne_nil _ hends
    exact ⟨x, y, h, List.ne_nil_of_mem (mem_ends_anyOf.mpr ⟨r, hr, hd⟩)⟩

/-- A match in a text stands before a given letter, or behind it. -/
theorem matches_append_cons {x y : List α} : Matches r (x ++ a :: y) ↔
    (∃ u v, x = u ++ v ∧ ends r ⟨u.reverse, v ++ a :: y, []⟩ ≠ []) ∨
      ∃ u v, y = u ++ v ∧ ends r ⟨u.reverse ++ a :: x.reverse, v, []⟩ ≠ [] := by
  constructor
  · rintro ⟨u, v, huv, hends⟩
    rcases List.append_eq_append_iff.mp huv with ⟨t, rfl, ht⟩ | ⟨t, rfl, rfl⟩
    · cases t with
      | nil =>
        obtain rfl : a :: y = v := ht
        exact .inl ⟨x, [], by simp, by simpa using hends⟩
      | cons b t =>
        obtain ⟨rfl, rfl⟩ := List.cons.inj ht
        exact .inr ⟨t, v, rfl, by simpa using hends⟩
    · exact .inl ⟨u, t, rfl, hends⟩
  · rintro (⟨u, v, rfl, hends⟩ | ⟨u, v, rfl, hends⟩)
    · exact ⟨u, v ++ a :: y, by simp, hends⟩
    · exact ⟨x ++ a :: u, v, by simp, by simpa using hends⟩

theorem StartsAt.matches_behind (h : r.StartsAt a) {y front : List α} :
    (∃ u v, y = u ++ v ∧ ends r ⟨u.reverse ++ a :: front, v, []⟩ ≠ []) ↔ Matches r y := by
  have hmoved : ∀ u v : List α,
      ends r ⟨u.reverse ++ a :: front, v, []⟩ ≠ [] ↔ ends r ⟨u.reverse, v, []⟩ ≠ [] := by
    intro u v
    rw [show (⟨u.reverse ++ a :: front, v, []⟩ : Cursor α)
      = (⟨u.reverse, v, []⟩ : Cursor α).behind (a :: front) from rfl, h.ends_behind, ne_eq,
      List.map_eq_nil_iff]
  unfold Matches
  simp only [hmoved]

theorem StopsAt.ne_nil_iff (h : r.StopsAt a) {before after tail : List α} :
    ends r ⟨before, after ++ a :: tail, []⟩ ≠ [] ↔ ends r ⟨before, after, []⟩ ≠ [] := by
  rw [show (⟨before, after ++ a :: tail, []⟩ : Cursor α)
    = (⟨before, after, []⟩ : Cursor α).extend (a :: tail) from rfl, h.ends_extend, ne_eq,
    List.map_eq_nil_iff]

theorem ne_nil_of_forward (h : r.forward = true) {before after : List α} (tail : List α)
    (hends : ends r ⟨before, after, []⟩ ≠ []) : ends r ⟨before, after ++ tail, []⟩ ≠ [] := by
  obtain ⟨d, hd⟩ := List.exists_mem_of_ne_nil _ hends
  obtain ⟨w, -, hw⟩ := reads_of_mem_ends r _ d hd
  have hlast := mem_ends_of_forward h _ d hd w hw.after (d.after ++ tail)
  rw [← List.append_assoc, ← show after = w ++ d.after from hw.after] at hlast
  exact List.ne_nil_of_mem hlast

section Cut

variable {rs : List (Regex α)} (hstop : ∀ r ∈ rs, r.StopsAt a ∨ r.forward = true)

include hstop

/-- What was matched before the letter `a` stays matched when the text goes on with it. -/
theorem matches_of_front {x y : List α} (h : Matches (anyOf rs) x) :
    Matches (anyOf rs) (x ++ a :: y) := by
  obtain ⟨r, hr, u, v, rfl, hends⟩ := matches_anyOf.mp h
  refine matches_anyOf.mpr ⟨r, hr, u, v ++ a :: y, List.append_assoc u v _, ?_⟩
  rcases hstop r hr with hr | hr
  · exact hr.ne_nil_iff.mpr hends
  · exact ne_nil_of_forward hr _ hends

/-- **A text without a match, cut short**, has the matches that stand behind a given letter:
what else the pattern may match either ends before the letter, or lasts. -/
theorem matches_of_cut (hstart : ∀ r ∈ rs, r.StartsAt a) {x y z : List α}
    (hnone : ¬ Matches (anyOf rs) (x ++ a :: (y ++ z))) :
    Matches (anyOf rs) (x ++ a :: y) ↔ Matches (anyOf rs) y := by
  rw [matches_anyOf, matches_anyOf]
  rw [matches_anyOf] at hnone
  refine exists_congr fun r => and_congr_right fun hr => ?_
  rw [matches_append_cons, (hstart r hr).matches_behind]
  refine or_iff_right ?_
  rintro ⟨u, v, rfl, hends⟩
  refine hnone ⟨r, hr, u, v ++ a :: (y ++ z), List.append_assoc u v _, ?_⟩
  rcases hstop r hr with hr | hr
  · exact hr.ne_nil_iff.mpr (hr.ne_nil_iff.mp hends)
  · rw [show v ++ a :: (y ++ z) = v ++ a :: y ++ z by simp]
    exact ne_nil_of_forward hr z hends

end Cut

/-- **A letter that cuts a text** cuts the matches of a pattern in two. -/
theorem matches_append_cons_iff (hstart : r.StartsAt a) {x y : List α}
    (hstop : ∀ u v, x = u ++ v → ends r ⟨u.reverse, v ++ a :: y, []⟩
      = (ends r ⟨u.reverse, v, []⟩).map (·.extend (a :: y))) :
    Matches r (x ++ a :: y) ↔ Matches r x ∨ Matches r y := by
  rw [matches_append_cons, hstart.matches_behind]
  refine or_congr_left (exists_congr fun u => exists_congr fun v => and_congr_right fun hx => ?_)
  rw [hstop u v hx, ne_eq, List.map_eq_nil_iff]

theorem StopsAt.matches_append_cons_iff (hstop : r.StopsAt a) (hstart : r.StartsAt a)
    (x y : List α) : Matches r (x ++ a :: y) ↔ Matches r x ∨ Matches r y :=
  Regex.matches_append_cons_iff hstart fun u v _ => hstop.ends_extend ⟨u.reverse, v, []⟩ y

theorem matches_anyOf_append_cons {rs : List (Regex α)} {x y : List α}
    (h : ∀ r ∈ rs, (Matches r (x ++ a :: y) ↔ Matches r x ∨ Matches r y)) :
    Matches (anyOf rs) (x ++ a :: y) ↔ Matches (anyOf rs) x ∨ Matches (anyOf rs) y := by
  rw [matches_anyOf, matches_anyOf, matches_anyOf]
  constructor
  · rintro ⟨r, hr, hmatch⟩
    exact ((h r hr).mp hmatch).imp (fun h => ⟨r, hr, h⟩) fun h => ⟨r, hr, h⟩
  · rintro (⟨r, hr, hmatch⟩ | ⟨r, hr, hmatch⟩)
    · exact ⟨r, hr, (h r hr).mpr (.inl hmatch)⟩
    · exact ⟨r, hr, (h r hr).mpr (.inr hmatch)⟩

/-- The pattern captures nothing. -/
def groupless : Regex α → Bool
  | empty | one _ | check _ => true
  | seq r s | alt r s => groupless r && groupless s
  | star _ r => groupless r
  | group _ _ => false

theorem groups_of_mem_ends : ∀ {r : Regex α}, r.groupless = true → ∀ (c : Cursor α),
    ∀ d ∈ ends r c, d.groups = c.groups
  | empty, _, c, d, hd => by rw [List.mem_singleton.mp hd]
  | one p, _, ⟨before, after, groups⟩, d, hd => by
    cases after with
    | nil => cases hd
    | cons b after =>
      have hd' : d ∈ (if p b = true then [⟨b :: before, after, groups⟩] else []) := hd
      split at hd'
      · rw [List.mem_singleton.mp hd']
      · cases hd'
  | check q, _, c, d, hd => by
    have hd' : d ∈ (if q c.before.head? c.after.head? = true then [c] else []) := hd
    split at hd'
    · rw [List.mem_singleton.mp hd']
    · cases hd'
  | seq r s, h, c, d, hd => by
    obtain ⟨hr, hs⟩ := Bool.and_eq_true_iff.mp h
    obtain ⟨e, he, hd⟩ := List.mem_flatMap.mp hd
    exact (groups_of_mem_ends hs e d hd).trans (groups_of_mem_ends hr c e he)
  | alt r s, h, c, d, hd => by
    obtain ⟨hr, hs⟩ := Bool.and_eq_true_iff.mp h
    exact (List.mem_append.mp hd).elim (groups_of_mem_ends hr c d) (groups_of_mem_ends hs c d)
  | star greedy r, h, c, d, hd => by
    induction hn : c.after.length using Nat.strong_induction_on generalizing c with
    | _ n ih =>
      rcases mem_ends_star.mp hd with rfl | ⟨e, he, hlt, hd⟩
      · rfl
      · exact (ih _ (hn ▸ hlt) e hd rfl).trans (groups_of_mem_ends (r := r) h c e he)
  | group _ _, h, _, _, _ => by cases h

/-- **What may stand before a match may be left out** in looking for one. -/
theorem matches_opt_seq (hr : r.groupless = true) {text : List α} :
    Matches (seq (opt r) s) text ↔ Matches s text := by
  constructor
  · rintro ⟨x, y, rfl, hends⟩
    obtain ⟨d, hd⟩ := List.exists_mem_of_ne_nil _ hends
    obtain ⟨e, he, hd⟩ := List.mem_flatMap.mp hd
    obtain ⟨w, -, hreads⟩ := reads_of_mem_ends (opt r) _ e he
    have hopt : (opt r).groupless = true := by simp [opt, groupless, hr]
    have hgroups : e.groups = [] := groups_of_mem_ends hopt _ e he
    refine ⟨x ++ w, e.after, ?_, ?_⟩
    · rw [List.append_assoc, ← show y = w ++ e.after from hreads.after]
    · have hplace : e = ⟨(x ++ w).reverse, e.after, []⟩ :=
        Cursor.ext (by rw [hreads.before, List.reverse_append]) rfl hgroups
      rw [← hplace]
      exact List.ne_nil_of_mem hd
  · rintro ⟨x, y, rfl, hends⟩
    obtain ⟨d, hd⟩ := List.exists_mem_of_ne_nil _ hends
    refine ⟨x, y, rfl, List.ne_nil_of_mem (a := d) (List.mem_flatMap.mpr ⟨_, ?_, hd⟩)⟩
    exact List.mem_append_right _ (List.mem_singleton_self _)

end Regex
