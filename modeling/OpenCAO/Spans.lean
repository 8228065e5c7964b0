import Mathlib.Data.List.Sort
import Mathlib.Order.Nat

/-!
# Spans

What a set of half-open ranges of positions covers is found by a sweep: the
ranges are sorted by where they start, and the covered prefix grows until
a range starts behind its end. The sweep stops at the first gap, so what
it answers is not the size of the union – it is the first position that is
missing (`sweep_eq_iff`).
-/

namespace Spans

/-- **The sweep**: the end of the covered prefix, over ranges in order of their
starts. -/
def sweep : ℕ → List (ℕ × ℕ) → ℕ
  | covered, [] => covered
  | covered, span :: spans =>
    if covered < span.1 then covered else sweep (max covered span.2) spans

/-- A position lies in one of the ranges. -/
def Covers (spans : List (ℕ × ℕ)) (i : ℕ) : Prop := ∃ span ∈ spans, span.1 ≤ i ∧ i < span.2

theorem le_sweep (covered : ℕ) (spans : List (ℕ × ℕ)) : covered ≤ sweep covered spans := by
  induction spans generalizing covered with
  | nil => exact le_refl _
  | cons span spans ih =>
    unfold sweep
    split
    · exact le_refl _
    · exact (le_max_left _ _).trans (ih _)

/-- The sweep does not leave what bounds the ranges. -/
theorem sweep_le {n covered : ℕ} {spans : List (ℕ × ℕ)} (hcovered : covered ≤ n)
    (hbound : ∀ span ∈ spans, span.2 ≤ n) : sweep covered spans ≤ n := by
  induction spans generalizing covered with
  | nil => exact hcovered
  | cons span spans ih =>
    unfold sweep
    split
    · exact hcovered
    · exact ih (max_le hcovered (hbound span List.mem_cons_self))
        fun s hs => hbound s (List.mem_cons_of_mem _ hs)

/-- **What the sweep passed over is covered.** -/
theorem covers_of_lt_sweep {covered i : ℕ} {spans : List (ℕ × ℕ)} (hi : covered ≤ i)
    (hlt : i < sweep covered spans) : Covers spans i := by
  induction spans generalizing covered with
  | nil => exact absurd hlt (not_lt.mpr hi)
  | cons span spans ih =>
    unfold sweep at hlt
    split at hlt
    · exact absurd hlt (not_lt.mpr hi)
    · rename_i hstart
      by_cases hin : i < span.2
      · exact ⟨span, List.mem_cons_self, (not_lt.mp hstart).trans hi, hin⟩
      · obtain ⟨s, hs, hrange⟩ := ih (max_le hi (not_lt.mp hin)) hlt
        exact ⟨s, List.mem_cons_of_mem _ hs, hrange⟩

/-- **The first position behind the sweep is missing.** -/
theorem not_covers_sweep {covered : ℕ} {spans : List (ℕ × ℕ)}
    (hsorted : spans.Pairwise (·.1 ≤ ·.1)) : ¬ Covers spans (sweep covered spans) := by
  induction spans generalizing covered with
  | nil =>
    rintro ⟨s, hs, -⟩
    cases hs
  | cons span spans ih =>
    obtain ⟨hfirst, hrest⟩ := List.pairwise_cons.mp hsorted
    unfold sweep
    split
    · rename_i hgap
      rintro ⟨s, hs, hle, -⟩
      -- The gap lies before every range that is left.
      rcases List.mem_cons.mp hs with rfl | hs
      · omega
      · have := hfirst s hs
        omega
    · rintro ⟨s, hs, hle, hlt⟩
      rcases List.mem_cons.mp hs with rfl | hs
      · have := le_sweep (max covered s.2) spans
        omega
      · exact ih hrest ⟨s, hs, hle, hlt⟩

/-- **The sweep reaches a bound exactly where nothing below it is missing.** -/
theorem sweep_eq_iff {n : ℕ} {spans : List (ℕ × ℕ)} (hsorted : spans.Pairwise (·.1 ≤ ·.1))
    (hbound : ∀ span ∈ spans, span.2 ≤ n) :
    sweep 0 spans = n ↔ ∀ i, i < n ↔ Covers spans i := by
  constructor
  · rintro rfl i
    constructor
    · exact covers_of_lt_sweep (Nat.zero_le i)
    · rintro ⟨s, hs, -, hlt⟩
      exact hlt.trans_le (hbound s hs)
  · intro h
    refine le_antisymm (sweep_le (Nat.zero_le n) hbound) (not_lt.mp fun hlt => ?_)
    exact not_covers_sweep hsorted ((h _).mp hlt)

/-- The order of pairs: by the starts, ties by the ends. -/
def Before (a b : ℕ × ℕ) : Prop := a.1 < b.1 ∨ a.1 = b.1 ∧ a.2 ≤ b.2

instance : DecidableRel Before := fun _ _ => inferInstanceAs (Decidable (_ ∨ _))

instance : Std.Total Before where
  total a b := by
    unfold Before
    omega

instance : IsTrans (ℕ × ℕ) Before where
  trans a b c := by
    unfold Before
    omega

/-- The ranges in order. -/
def sorted (spans : List (ℕ × ℕ)) : List (ℕ × ℕ) := spans.insertionSort Before

theorem pairwise_sorted (spans : List (ℕ × ℕ)) : (sorted spans).Pairwise (·.1 ≤ ·.1) := by
  refine (List.pairwise_insertionSort Before spans).imp fun {a b} h => ?_
  unfold Before at h
  omega

theorem mem_sorted {spans : List (ℕ × ℕ)} {span : ℕ × ℕ} : span ∈ sorted spans ↔ span ∈ spans :=
  List.mem_insertionSort Before

/-- **The sweep over sorted ranges** reaches a bound of them exactly where they cover
what lies below it. -/
theorem sweep_sorted_eq_iff {n : ℕ} {spans : List (ℕ × ℕ)} (hbound : ∀ span ∈ spans, span.2 ≤ n) :
    sweep 0 (sorted spans) = n ↔ ∀ i, i < n ↔ Covers spans i := by
  rw [sweep_eq_iff (pairwise_sorted spans) fun s hs => hbound s (mem_sorted.mp hs)]
  simp only [Covers, mem_sorted]

end Spans
