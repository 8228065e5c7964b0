import Mathlib.Data.List.Pairwise
import Mathlib.Order.Lattice

/-!
# Replaying a log

A log is kept in a table of rows with increasing keys, and a reader is told of its rows in
*frames*: one row at a time, and now and then a *barrier* that says how far the table has
been read. Frames that say nothing, to keep a connection alive, may stand between them.

A sequence of frames *replays* the rows behind a position if each frame that tells of a row
tells of the next one there is, and no barrier passes a row that was not told
(`Replays`). Then no row is told twice, the rows come in their order (`Replays.rising`), and
whatever stands in the table up to a barrier was told before it (`Replays.told`).

Rows may be thrown out of the table at any time, and new ones be added at its end. Neither
spoils what was told (`Replays.of_rows`), since a replay only says of the rows that are
still there that none was passed over. This is why a reader that lost its connection may go
on at the position of the last frame it got (`replays_append`).

## What it does not say

A row that is thrown out before it was told is never told, and the reader does not learn of
it.
-/

namespace LogReplay

variable {α κ : Type*} {key : α → κ}

/-- **A frame**: a row, a barrier, or nothing. -/
inductive Frame (α κ : Type*) where
  | row (a : α)
  | barrier (k : κ)
  | quiet

namespace Frame

/-- Where the reader is after a frame. -/
def after (key : α → κ) (p : κ) : Frame α κ → κ
  | row a => key a
  | barrier k => k
  | quiet => p

/-- A frame speaks of what comes before a key. -/
def Precedes [LT κ] (key : α → κ) (k : κ) : Frame α κ → Prop
  | row a => key a < k
  | barrier j => j < k
  | quiet => True

/-- **What a frame may be** at a position: the next row, or a barrier before it. -/
def Fits [LinearOrder κ] (key : α → κ) (rows : α → Prop) (p : κ) : Frame α κ → Prop
  | row a => p < key a ∧ ∀ b, rows b → p < key b → key a ≤ key b
  | barrier k => p ≤ k ∧ ∀ b, rows b → p < key b → k < key b
  | quiet => True

end Frame

/-- Where the reader is after some frames. -/
def position (key : α → κ) : κ → List (Frame α κ) → κ := List.foldl (Frame.after key)

/-- The rows that frames tell of. -/
def told : List (Frame α κ) → List α := List.filterMap fun
  | .row a => some a
  | .barrier _ | .quiet => none

/-- **A replay** of some rows, from a position on. -/
def Replays [LinearOrder κ] (key : α → κ) (rows : α → Prop) : κ → List (Frame α κ) → Prop
  | _, [] => True
  | p, f :: fs => f.Fits key rows p ∧ Replays key rows (f.after key p) fs

variable {rows rows' : α → Prop} {p : κ} {f : Frame α κ} {fs gs : List (Frame α κ)}

@[simp] theorem position_nil : position key p [] = p := rfl

@[simp] theorem position_cons : position key p (f :: fs) = position key (f.after key p) fs := rfl

@[simp] theorem position_append :
    position key p (fs ++ gs) = position key (position key p fs) gs := List.foldl_append

@[simp] theorem told_nil : told ([] : List (Frame α κ)) = [] := rfl

@[simp] theorem told_row (a : α) : told (.row a :: fs) = a :: told fs := rfl

@[simp] theorem told_barrier (k : κ) : told (.barrier k :: fs) = told fs := rfl

@[simp] theorem told_quiet : told (.quiet :: fs) = told fs := rfl

@[simp] theorem told_append : told (fs ++ gs) = told fs ++ told gs := List.filterMap_append

theorem mem_told {a : α} : a ∈ told fs ↔ Frame.row a ∈ fs := by
  induction fs with
  | nil => simp
  | cons f fs ih => cases f <;> simp [ih]

variable [LinearOrder κ]

/-- Rows that are told lead no further than they are. -/
theorem position_rows_le {as : List α} {k : κ} (hp : p ≤ k) (has : ∀ a ∈ as, key a ≤ k) :
    position key p (as.map Frame.row) ≤ k := by
  induction as generalizing p with
  | nil => exact hp
  | cons a as ih =>
    exact ih (has a List.mem_cons_self) fun b hb => has b (List.mem_cons_of_mem _ hb)

/-- **A replay goes on where it stopped.** -/
theorem replays_append :
    Replays key rows p (fs ++ gs) ↔
      Replays key rows p fs ∧ Replays key rows (position key p fs) gs := by
  induction fs generalizing p with
  | nil => exact (and_iff_right trivial).symm
  | cons f fs ih => exact (and_congr_right fun _ => ih).trans and_assoc.symm

/-- The reader never goes back. -/
theorem Frame.Fits.le (h : f.Fits key rows p) : p ≤ f.after key p := by
  cases f with
  | row a => exact h.1.le
  | barrier k => exact h.1
  | quiet => exact le_rfl

theorem Replays.le (h : Replays key rows p fs) : p ≤ position key p fs := by
  induction fs generalizing p with
  | nil => exact le_rfl
  | cons f fs ih => exact h.1.le.trans (ih h.2)

/-- A barrier is not behind the last frame. -/
theorem Replays.barrier_le (h : Replays key rows p fs) {k : κ} (hk : Frame.barrier k ∈ fs) :
    k ≤ position key p fs := by
  induction fs generalizing p with
  | nil => exact absurd hk List.not_mem_nil
  | cons f fs ih =>
    rcases List.mem_cons.mp hk with rfl | hk
    · exact h.2.le
    · exact ih h.2 hk

/-- What is told is behind the position, and not behind the last frame. -/
theorem Replays.within (h : Replays key rows p fs) :
    ∀ a ∈ told fs, p < key a ∧ key a ≤ position key p fs := by
  induction fs generalizing p with
  | nil => simp
  | cons f fs ih =>
    have hle := h.1.le
    have hrest := ih h.2
    cases f with
    | row b =>
      intro a ha
      rcases List.mem_cons.mp ha with rfl | ha
      · exact ⟨h.1.1, h.2.le⟩
      · exact ⟨hle.trans_lt (hrest a ha).1, (hrest a ha).2⟩
    | barrier k => exact fun a ha => ⟨hle.trans_lt (hrest a ha).1, (hrest a ha).2⟩
    | quiet => exact hrest

/-- **No row is told twice, and they come in their order.** -/
theorem Replays.rising (h : Replays key rows p fs) :
    (told fs).Pairwise fun a b => key a < key b := by
  induction fs generalizing p with
  | nil => exact List.Pairwise.nil
  | cons f fs ih =>
    cases f with
    | row a => exact List.Pairwise.cons (fun b hb => (h.2.within b hb).1) (ih h.2)
    | barrier k => exact ih h.2
    | quiet => exact ih h.2

/-- **Whatever stands in the table up to the last frame was told**, if keys are those of one
row each and the frames tell of rows that have been in the table. -/
theorem Replays.told {all : α → Prop} (hall : ∀ b, rows b → all b)
    (hkeys : ∀ a b, all a → all b → key a = key b → a = b)
    (hfs : ∀ a ∈ told fs, all a) (h : Replays key rows p fs) {b : α} (hb : rows b)
    (hp : p < key b) (hle : key b ≤ position key p fs) : b ∈ LogReplay.told fs := by
  induction fs generalizing p with
  | nil => exact absurd hp hle.not_gt
  | cons f fs ih =>
    cases f with
    | row a =>
      rcases (h.1.2 b hb hp).eq_or_lt with heq | hlt
      · obtain rfl := hkeys a b (hfs a List.mem_cons_self) (hall b hb) heq
        exact List.mem_cons_self
      · refine List.mem_cons_of_mem _ (ih (fun a ha => hfs a ?_) h.2 hlt hle)
        exact List.mem_cons_of_mem _ ha
    | barrier k => exact ih hfs h.2 (h.1.2 b hb hp) hle
    | quiet => exact ih hfs h.2 hp hle

/-- **A replay stands when rows are thrown out, and when rows are added** behind everything
that was said. -/
theorem Replays.of_rows (h : Replays key rows p fs)
    (hrows : ∀ b, rows' b → rows b ∨ ∀ f ∈ fs, f.Precedes key (key b)) :
    Replays key rows' p fs := by
  induction fs generalizing p with
  | nil => trivial
  | cons f fs ih =>
    refine ⟨?_, ih h.2 fun b hb => ?_⟩
    · cases f with
      | row a =>
        refine ⟨h.1.1, fun b hb hp => ?_⟩
        exact (hrows b hb).elim (fun hb => h.1.2 b hb hp) fun hf => (hf _ List.mem_cons_self).le
      | barrier k =>
        refine ⟨h.1.1, fun b hb hp => ?_⟩
        exact (hrows b hb).elim (fun hb => h.1.2 b hb hp) fun hf => hf _ List.mem_cons_self
      | quiet => trivial
    · exact (hrows b hb).imp id fun hf g hg => hf g (List.mem_cons_of_mem _ hg)

/-- **Rows in order replay themselves**, if no row behind the position is left out before the
last of them. -/
theorem replays_rows {as : List α} (hp : ∀ a ∈ as, p < key a)
    (hrising : as.Pairwise fun a b => key a < key b)
    (hrows : ∀ b, rows b → p < key b → b ∈ as ∨ ∀ a ∈ as, key a < key b) :
    Replays key rows p (as.map Frame.row) := by
  induction as generalizing p with
  | nil => trivial
  | cons a as ih =>
    have ⟨hfirst, hrest⟩ := List.pairwise_cons.mp hrising
    refine ⟨⟨hp a List.mem_cons_self, fun b hb hlt => ?_⟩, ih hfirst hrest fun b hb hlt => ?_⟩
    · rcases hrows b hb hlt with hmem | hbehind
      · rcases List.mem_cons.mp hmem with rfl | hmem
        · exact le_rfl
        · exact (hfirst b hmem).le
      · exact (hbehind a List.mem_cons_self).le
    · rcases hrows b hb ((hp a List.mem_cons_self).trans hlt) with hmem | hbehind
      · rcases List.mem_cons.mp hmem with rfl | hmem
        · exact absurd hlt (lt_irrefl _)
        · exact Or.inl hmem
      · exact Or.inr fun a ha => hbehind a (List.mem_cons_of_mem _ ha)

end LogReplay
