import Mathlib.Data.List.Sort

/-!
# Reading in pages

A long answer is handed out in pages. A page says where the next one begins, and whoever
reads asks for that one then, with a size of their choice. A *walk* is such a sequence of
calls, from a position to a page behind which there is nothing.

Nothing is lost and nothing is read twice if each page is the front of what is left at its
position and the next position is that of the rest (`Accounts`). A walk then exists,
whatever sizes are asked for, and its pages together are what was left at its beginning
(`Accounts.exists_walk`).

Where the answer is a table in an order and a position is the last row that was read, what
is left are the rows behind it, and a page is read with one row more than it has, to see whether
it is the last (`accounts_of_keys`).
-/

namespace Paging

variable {σ π ρ ε α κ : Type}

/-- **A walk**: the pages that are read from a position on, each with its size, up to one
behind which there is nothing. -/
inductive Walk (read : σ → π → Except ε ρ) (next : ρ → Option π) : (ℕ → σ) → π → List ρ → Prop
  | last {sizes : ℕ → σ} {p : π} {r : ρ} : read (sizes 0) p = .ok r → next r = none →
      Walk read next sizes p [r]
  | more {sizes : ℕ → σ} {p q : π} {r : ρ} {rs : List ρ} : read (sizes 0) p = .ok r →
      next r = some q → Walk read next (fun i => sizes (i + 1)) q rs →
      Walk read next sizes p (r :: rs)

/-- **The pages account for what is left**: from a position that was reached, each page is
the front of it, and the next position is that of the rest. -/
structure Accounts (read : σ → π → Except ε ρ) (next : ρ → Option π) (items : ρ → List α)
    (Size : σ → Prop) (Reached : π → Prop) (left : π → List α) : Prop where
  reads : ∀ {s p}, Size s → Reached p → ∃ r, read s p = .ok r
  last : ∀ {s p r}, Size s → Reached p → read s p = .ok r → next r = none → items r = left p
  more : ∀ {s p r q}, Size s → Reached p → read s p = .ok r → next r = some q →
    Reached q ∧ items r ≠ [] ∧ left p = items r ++ left q

namespace Accounts

variable {read : σ → π → Except ε ρ} {next : ρ → Option π} {items : ρ → List α}
  {Size : σ → Prop} {Reached : π → Prop} {left : π → List α}

/-- **Reading in pages ends, and loses and repeats nothing.** -/
theorem exists_walk (h : Accounts read next items Size Reached left) {s : ℕ → σ}
    (hsizes : ∀ i, Size (s i)) {p : π} (hp : Reached p) :
    ∃ rs, Walk read next s p rs ∧ rs.flatMap items = left p := by
  -- What is left gets shorter with each page.
  induction hn : (left p).length using Nat.strong_induction_on generalizing p s with
  | _ n ih =>
    obtain ⟨r, hr⟩ := h.reads (hsizes 0) hp
    cases hnext : next r with
    | none =>
      have hitems := h.last (hsizes 0) hp hr hnext
      exact ⟨[r], .last hr hnext, by simp [hitems]⟩
    | some q =>
      obtain ⟨hq, hne, hleft⟩ := h.more (hsizes 0) hp hr hnext
      have hlt : (left q).length < n := by
        have hpos := List.length_pos_iff.mpr hne
        have hlength := congrArg List.length hleft
        rw [List.length_append] at hlength
        omega
      obtain ⟨rs, hwalk, hrs⟩ := ih _ hlt (fun i => hsizes (i + 1)) hq rfl
      exact ⟨r :: rs, .more hr hnext hwalk, by rw [List.flatMap_cons, hrs, hleft]⟩

/-- **Each page of a walk was read at a position that was reached**, and the next one is
read if and only if it says where. -/
theorem of_walk (h : Accounts read next items Size Reached left) {sizes : ℕ → σ}
    (hsizes : ∀ i, Size (sizes i)) {p : π} (hp : Reached p) {rs : List ρ}
    (hwalk : Walk read next sizes p rs) {i : ℕ} {r : ρ} (hr : rs[i]? = some r) :
    (∃ q, Reached q ∧ read (sizes i) q = .ok r) ∧ (next r = none ↔ i + 1 = rs.length) := by
  induction hwalk generalizing i with
  | last hread hnext =>
    cases i with
    | zero =>
      obtain rfl : _ = r := Option.some.inj hr
      exact ⟨⟨_, hp, hread⟩, iff_of_true hnext rfl⟩
    | succ i => cases hr
  | @more sizes p q r' rs hread hnext hrest ih =>
    cases i with
    | zero =>
      obtain rfl : r' = r := Option.some.inj hr
      refine ⟨⟨_, hp, hread⟩, iff_of_false (by simp [hnext]) fun hlength => ?_⟩
      cases hrest <;> simp at hlength
    | succ i =>
      obtain ⟨hq, -⟩ := h.more (hsizes 0) hp hread hnext
      have := ih (fun i => hsizes (i + 1)) hq hr
      simpa using this

end Accounts

/-! ## Pages of a table -/

/-- **A page of some rows**, and its last row if there are more. One row more than the page
has is fetched to see this. -/
def cut (limit : ℕ) (rows : List α) : List α × Option α :=
  let fetched := rows.take (limit + 1)
  let items := fetched.take limit
  (items, if limit < fetched.length then items.getLast? else none)

theorem cut_fst (limit : ℕ) (rows : List α) : (cut limit rows).1 = rows.take limit := by
  show (rows.take (limit + 1)).take limit = _
  rw [List.take_take, Nat.min_eq_left (Nat.le_succ limit)]

/-- The last page has all the rows. -/
theorem cut_of_none {limit : ℕ} (hlimit : 0 < limit) {rows : List α}
    (h : (cut limit rows).2 = none) : (cut limit rows).1 = rows := by
  rw [cut_fst]
  refine List.take_of_length_le (Nat.le_of_not_lt fun hlt => ?_)
  have hmore : limit < (rows.take (limit + 1)).length := by rw [List.length_take]; omega
  have hlast : (cut limit rows).1.getLast? = none := by
    rw [← h]
    exact (if_pos hmore).symm
  rw [cut_fst, List.getLast?_eq_none_iff, List.take_eq_nil_iff] at hlast
  rcases hlast with rfl | rfl
  · exact absurd hlimit (Nat.lt_irrefl 0)
  · exact absurd hlt (Nat.not_lt_zero limit)

/-- Any other page ends with the row it names, and has the first of the rows. -/
theorem cut_of_some {limit : ℕ} {rows : List α} {a : α} (h : (cut limit rows).2 = some a) :
    ∃ page, (cut limit rows).1 = page ++ [a] ∧ rows = page ++ a :: rows.drop limit := by
  have hlast : (cut limit rows).1.getLast? = some a := by
    have hif : (if limit < (rows.take (limit + 1)).length then (cut limit rows).1.getLast?
        else none) = some a := h
    split_ifs at hif
    exact hif
  obtain ⟨page, hpage⟩ := List.getLast?_eq_some_iff.mp hlast
  refine ⟨page, hpage, ?_⟩
  have hrows := List.take_append_drop limit rows
  rw [← cut_fst, hpage, List.append_assoc] at hrows
  exact hrows.symm

section Keys

variable [LinearOrder κ] {key : α → κ} {rows : List α} {start : π} {beyond : π → α → Bool}
  {encode : α → π}

/-- **`ORDER BY`** a key. -/
def ordered (key : α → κ) (rows : List α) : List α :=
  rows.insertionSort fun a b => key a ≤ key b

theorem perm_ordered (key : α → κ) (rows : List α) : (ordered key rows).Perm rows :=
  List.perm_insertionSort _ rows

/-- Rows with keys of their own are in strict order. -/
theorem pairwise_ordered (hkeys : (rows.map key).Nodup) :
    (ordered key rows).Pairwise fun a b => key a < key b := by
  have : Std.Total fun a b : α => key a ≤ key b := ⟨fun a b => le_total (key a) (key b)⟩
  have : IsTrans α fun a b : α => key a ≤ key b := ⟨fun _ _ _ hab hbc => hab.trans hbc⟩
  have hle : (ordered key rows).Pairwise fun a b => key a ≤ key b :=
    List.pairwise_insertionSort _ rows
  have hne : (ordered key rows).Pairwise fun a b => key a ≠ key b :=
    List.pairwise_map.mp (((perm_ordered key rows).map key).nodup_iff.mpr hkeys)
  exact hle.imp₂ (fun _ _ hab hne => lt_of_le_of_ne hab hne) hne

/-- Selecting rows and ordering them may be done in either order. -/
theorem ordered_filter (hkeys : (rows.map key).Nodup) (P : α → Bool) :
    ordered key (rows.filter P) = (ordered key rows).filter P := by
  have hstrict : ∀ a b, a ∈ ordered key (rows.filter P) → b ∈ (ordered key rows).filter P →
      key a < key b → key b < key a → a = b := fun a b _ _ hab hba => absurd hba (lt_asymm hab)
  refine List.Perm.eq_of_pairwise hstrict ?_
    ((pairwise_ordered hkeys).filter _) ?_
  · exact pairwise_ordered (hkeys.sublist (List.filter_sublist.map key))
  · exact (perm_ordered key _).trans ((perm_ordered key rows).filter P).symm

/-- The rows behind a row, in a table that is in order. -/
theorem filter_behind {front back : List α} {a : α}
    (hsorted : (front ++ a :: back).Pairwise fun a b => key a < key b) :
    (front ++ a :: back).filter (fun b => decide (key a < key b)) = back := by
  obtain ⟨-, hback, hcross⟩ := List.pairwise_append.mp hsorted
  have hfront : front.filter (fun b => decide (key a < key b)) = [] :=
    List.filter_eq_nil_iff.mpr fun b hb =>
      fun h => lt_asymm (hcross b hb a List.mem_cons_self) (of_decide_eq_true h)
  have hall : back.filter (fun b => decide (key a < key b)) = back :=
    List.filter_eq_self.mpr fun b hb => decide_eq_true ((List.pairwise_cons.mp hback).1 b hb)
  have hself : ¬ decide (key a < key a) = true := fun h => lt_irrefl _ (of_decide_eq_true h)
  rw [List.filter_append, hfront, List.nil_append,
    List.filter_cons_of_neg (p := fun b => decide (key a < key b)) hself, hall]

/-- **A position in a table**: its beginning, or a row. -/
def At (rows : List α) (start : π) (encode : α → π) (p : π) : Prop :=
  p = start ∨ ∃ a ∈ rows, p = encode a

/-- What is left at a position is the end of the table. -/
theorem filter_suffix (hkeys : (rows.map key).Nodup) (hstart : ∀ b ∈ rows, beyond start b = true)
    (hbeyond : ∀ a ∈ rows, ∀ b ∈ rows, beyond (encode a) b = decide (key a < key b)) {p : π}
    (hp : At rows start encode p) :
    (ordered key rows).filter (beyond p) <:+ ordered key rows := by
  rcases hp with rfl | ⟨a, ha, rfl⟩
  · exact ⟨[], List.filter_eq_self.mpr fun b hb =>
      hstart b ((perm_ordered key rows).mem_iff.mp hb)⟩
  · rw [List.filter_congr fun b hb => hbeyond a ha b ((perm_ordered key rows).mem_iff.mp hb)]
    obtain ⟨front, back, heq⟩ := List.mem_iff_append.mp ((perm_ordered key rows).mem_iff.mpr ha)
    have hsorted := pairwise_ordered hkeys
    rw [heq] at hsorted ⊢
    rw [filter_behind hsorted]
    exact ⟨front ++ [a], by simp⟩

/-- **A table whose pages name their last row is accounted for**, where a position is a row
and the rows beyond it are those with a greater key. -/
theorem accounts_of_keys {read : σ → π → Except ε ρ} {next : ρ → Option π} {items : ρ → List α}
    {Size : σ → Prop} {l : σ → ℕ} (hkeys : (rows.map key).Nodup)
    (hstart : ∀ b ∈ rows, beyond start b = true)
    (hbeyond : ∀ a ∈ rows, ∀ b ∈ rows, beyond (encode a) b = decide (key a < key b))
    (hlimit : ∀ s, Size s → 0 < l s)
    (hread : ∀ s p, Size s → At rows start encode p → ∃ r, read s p = .ok r ∧
      items r = (cut (l s) (ordered key (rows.filter (beyond p)))).1 ∧
      next r = (cut (l s) (ordered key (rows.filter (beyond p)))).2.map encode) :
    Accounts read next items Size (At rows start encode)
      fun p => ordered key (rows.filter (beyond p)) where
  reads := fun {s p} hs hp => (hread s p hs hp).imp fun _ h => h.1
  last := by
    intro s p r hs hp hr hnext
    obtain ⟨r', hr', hitems, hnext'⟩ := hread s p hs hp
    obtain rfl : r' = r := Except.ok.inj (hr'.symm.trans hr)
    rw [hitems]
    rw [hnext'] at hnext
    exact cut_of_none (hlimit s hs) (Option.map_eq_none_iff.mp hnext)
  more := by
    intro s p r q hs hp hr hnext
    obtain ⟨r', hr', hitems, hnext'⟩ := hread s p hs hp
    obtain rfl : r' = r := Except.ok.inj (hr'.symm.trans hr)
    rw [hnext'] at hnext
    obtain ⟨a, ha, rfl⟩ := Option.map_eq_some_iff.mp hnext
    obtain ⟨page, hpage, hleft⟩ := cut_of_some ha
    -- The table ends with this page and what it left.
    rw [ordered_filter hkeys] at hpage hleft hitems
    obtain ⟨front, hfront⟩ := filter_suffix hkeys hstart hbeyond hp
    have hmem : a ∈ rows := by
      rw [← (perm_ordered key rows).mem_iff, ← hfront, hleft]
      simp
    refine ⟨.inr ⟨a, hmem, rfl⟩, by simp [hitems, hpage], ?_⟩
    have hrest : (ordered key rows).filter (beyond (encode a))
        = ((ordered key rows).filter (beyond p)).drop (l s) := by
      rw [List.filter_congr fun b hb =>
        hbeyond a hmem b ((perm_ordered key rows).mem_iff.mp hb)]
      have hrows : ordered key rows
          = (front ++ page) ++ a :: ((ordered key rows).filter (beyond p)).drop (l s) := by
        rw [List.append_assoc, ← hleft, hfront]
      have hsorted := pairwise_ordered hkeys
      rw [hrows] at hsorted
      conv_lhs => rw [hrows]
      exact filter_behind hsorted
    rw [ordered_filter hkeys, ordered_filter hkeys, hrest, hitems, hpage, List.append_assoc]
    exact hleft

end Keys

end Paging
