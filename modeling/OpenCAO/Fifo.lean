import OpenCAO.Rows
import Mathlib.Data.List.Pairwise
import Mathlib.Order.Nat

/-!
# First in, first out

Rows stand in lanes and have a rank in them. A row is *held* while somebody
works on it and *settled* when nobody will again; a row that is neither
waits. That a lane is worked off in order, one row at a time, is a property
of the rows alone: below a held row of the lane everything is settled
(`Orderly`). It says at once that at most one row of a lane is held.

The property is kept by every change that settles rows for good and lets a
row be held only if it was, or if everything below it is settled – which a
head predicate establishes by looking downwards, once, when the row is
taken. New rows come in at the end.

A *log* of the rows that reached a certain stage while held has each lane in
increasing order (`Increasing`), since what is below a logged row is settled
and remains so.
-/

universe u v

/-- **A lane discipline**: where a row stands, and how far it got. -/
structure Discipline (α : Type u) (ι : Type v) where
  /-- The lane of a row. -/
  lane : α → ι
  /-- The rank of a row in its lane. -/
  rank : α → ℕ
  /-- Somebody works on the row. -/
  Held : α → Prop
  /-- Nobody will work on the row any more. -/
  Settled : α → Prop
  /-- What is held is not settled. -/
  not_settled : ∀ a, Held a → ¬ Settled a

namespace Discipline

variable {α : Type u} {ι : Type v} (D : Discipline α ι)

/-- The place of a row. -/
def place (a : α) : ι × ℕ := (D.lane a, D.rank a)

/-- The lane is settled below a rank. -/
def Clear (rows : List α) (l : ι) (n : ℕ) : Prop :=
  ∀ a ∈ rows, D.lane a = l → D.rank a < n → D.Settled a

/-- **The rows are orderly**: below a held row its lane is settled. -/
def Orderly (rows : List α) : Prop := ∀ a ∈ rows, D.Held a → D.Clear rows (D.lane a) (D.rank a)

/-- **A row moves on**: it stays in its place until it is settled, and is held
only if it was or if its lane is settled below it. -/
structure Moves (rows : List α) (a a' : α) : Prop where
  place : ¬ D.Settled a' → D.place a' = D.place a
  settled : D.Settled a → D.Settled a'
  held : D.Held a' → D.Held a ∨ D.Clear rows (D.lane a) (D.rank a)

variable {D} {rows rows' new : List α} {l : ι} {n : ℕ}

theorem Moves.refl (a : α) : D.Moves rows a a := ⟨fun _ => rfl, id, .inl⟩

theorem Clear.evolve (h : D.Clear rows l n) (hmoves : List.Forall₂ (D.Moves rows) rows rows') :
    D.Clear rows' l n := by
  intro a' ha' hlane hrank
  obtain ⟨a, ha, hmove⟩ := Rows.exists_left hmoves ha'
  by_contra hunsettled
  obtain ⟨hlaneEq, hrankEq⟩ := Prod.mk.inj (hmove.place hunsettled)
  rw [hlaneEq] at hlane
  rw [hrankEq] at hrank
  exact hunsettled (hmove.settled (h a ha hlane hrank))

theorem Clear.append (h : D.Clear rows l n) (hnew : ∀ a ∈ new, n ≤ D.rank a) :
    D.Clear (rows ++ new) l n := by
  intro a ha hlane hrank
  rcases List.mem_append.mp ha with hold | hin
  · exact h a hold hlane hrank
  · exact absurd hrank (not_lt.mpr (hnew a hin))

/-- **Moving on keeps the order.** -/
theorem Orderly.evolve (h : D.Orderly rows) (hmoves : List.Forall₂ (D.Moves rows) rows rows') :
    D.Orderly rows' := by
  intro a' ha' hheld
  obtain ⟨a, ha, hmove⟩ := Rows.exists_left hmoves ha'
  have hclear : D.Clear rows (D.lane a) (D.rank a) := by
    rcases hmove.held hheld with hwas | hclear
    · exact h a ha hwas
    · exact hclear
  obtain ⟨hlane, hrank⟩ := Prod.mk.inj (hmove.place (D.not_settled a' hheld))
  rw [hlane, hrank]
  exact hclear.evolve hmoves

/-- **New rows at the end keep the order.** -/
theorem Orderly.append (h : D.Orderly rows) (hfree : ∀ a ∈ new, ¬ D.Held a)
    (hnew : ∀ a ∈ rows, ∀ b ∈ new, D.rank a ≤ D.rank b) : D.Orderly (rows ++ new) := by
  intro a ha hheld
  rcases List.mem_append.mp ha with hold | hin
  · exact (h a hold hheld).append (hnew a hold)
  · exact absurd hheld (hfree a hin)

/-- **One at a time.** -/
theorem Orderly.rank_eq (h : D.Orderly rows) {a b : α} (ha : a ∈ rows) (hb : b ∈ rows)
    (hheldA : D.Held a) (hheldB : D.Held b) (hlane : D.lane a = D.lane b) :
    D.rank a = D.rank b := by
  rcases lt_trichotomy (D.rank a) (D.rank b) with hlt | heq | hgt
  · exact absurd (h b hb hheldB a ha hlane hlt) (D.not_settled a hheldA)
  · exact heq
  · exact absurd (h a ha hheldA b hb hlane.symm hgt) (D.not_settled b hheldB)

/-! ## The log -/

variable (D)

/-- What is below a logged row is settled. -/
def Logged (rows : List α) (log : List (ι × ℕ)) : Prop := ∀ e ∈ log, D.Clear rows e.1 e.2

/-- Every lane stands in the log in increasing order. -/
def Increasing (log : List (ι × ℕ)) : Prop := log.Pairwise fun e e' => e.1 = e'.1 → e.2 < e'.2

/-- The log with the rows that have reached a stage for the first time. -/
def record [DecidableEq ι] (stage : α → Bool) (rows : List α) (log : List (ι × ℕ)) :
    List (ι × ℕ) :=
  log ++ (rows.filter fun a => stage a && decide (D.place a ∉ log)).map D.place

variable {D} {log : List (ι × ℕ)}

theorem Logged.evolve (h : D.Logged rows log)
    (hmoves : List.Forall₂ (D.Moves rows) rows rows') : D.Logged rows' log :=
  fun e he => (h e he).evolve hmoves

theorem Logged.append (h : D.Logged rows log)
    (hnew : ∀ e ∈ log, ∀ a ∈ new, e.2 ≤ D.rank a) : D.Logged (rows ++ new) log :=
  fun e he => (h e he).append (hnew e he)

section Record

variable [DecidableEq ι] {stage : α → Bool}

theorem mem_record {e : ι × ℕ} : e ∈ D.record stage rows log ↔
    e ∈ log ∨ ∃ a ∈ rows, stage a = true ∧ D.place a ∉ log ∧ D.place a = e := by
  simp [record, and_assoc]

theorem Logged.record (h : D.Logged rows log) (horder : D.Orderly rows)
    (hstage : ∀ a, stage a = true → D.Held a) : D.Logged rows (D.record stage rows log) := by
  intro e he
  rcases mem_record.mp he with hold | ⟨a, ha, hreached, -, rfl⟩
  · exact h e hold
  · exact horder a ha (hstage a hreached)

/-- **The log stays in order**: a row that reaches the stage now is above the
rows of its lane that reached it before. -/
theorem Increasing.record (h : Increasing log) (hlogged : D.Logged rows log)
    (horder : D.Orderly rows) (hplaces : (rows.map D.place).Nodup)
    (hstage : ∀ a, stage a = true → D.Held a) : Increasing (D.record stage rows log) := by
  refine List.pairwise_append.mpr ⟨h, ?_, ?_⟩
  · -- Two rows that are held in one lane have one place.
    have hnodup : ((rows.filter fun a => stage a && decide (D.place a ∉ log)).map D.place).Nodup :=
      hplaces.sublist (List.filter_sublist.map _)
    refine hnodup.imp_of_mem fun {e e'} he he' hne hlane => ?_
    obtain ⟨a, ha, rfl⟩ := List.mem_map.mp he
    obtain ⟨b, hb, rfl⟩ := List.mem_map.mp he'
    rw [List.mem_filter, Bool.and_eq_true] at ha hb
    have hrank := horder.rank_eq ha.1 hb.1 (hstage a ha.2.1) (hstage b hb.2.1) hlane
    exact absurd (Prod.ext hlane hrank) hne
  · intro e he e' he' hlane
    obtain ⟨a, ha, rfl⟩ := List.mem_map.mp he'
    rw [List.mem_filter, Bool.and_eq_true, decide_eq_true_eq] at ha
    obtain ⟨hmem, hreached, hnew⟩ := ha
    rcases lt_trichotomy e.2 (D.rank a) with hlt | heq | hgt
    · exact hlt
    · have hplace : D.place a = e := (Prod.ext hlane heq).symm
      exact absurd (hplace ▸ he) hnew
    · exact absurd (hlogged e he a hmem hlane.symm hgt) (D.not_settled a (hstage a hreached))

end Record

end Discipline
