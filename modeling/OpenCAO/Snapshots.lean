import Mathlib.Data.Finmap

/-!
# Records that are written whole

Several writers share a record, each of them concerned with some of its keys. A writer reads
the record, changes its keys in the copy, and writes the copy back. Between the two the record
may have been written by another, and the copy is then *stale*: writing it back undoes what the
other did.

A write is *current* if the copy agrees with the record on all keys that the writer does not
set. These are exactly the writes that could as well have read the record at the moment of
writing (`Write.current_iff`), and a record that is only written currently holds, for each key,
what was set last (`lookup_history`).
-/

universe u v

/-- **A record**: values at finitely many keys. -/
abbrev Record (K : Type u) (V : Type v) := Finmap fun _ : K => V

namespace Record

variable {K : Type u} {V : Type v} [DecidableEq K] {m c : Record K V} {k : K}

/-- The record with some keys set. -/
def update (m c : Record K V) : Record K V := c ∪ m

theorem lookup_update_of_mem (h : k ∈ c) : (m.update c).lookup k = c.lookup k :=
  Finmap.lookup_union_left h

theorem lookup_update_of_notMem (h : k ∉ c) : (m.update c).lookup k = m.lookup k :=
  Finmap.lookup_union_right h

/-- **A write**: what its author read, and what is set. -/
structure Write (K : Type u) (V : Type v) where
  snapshot : Record K V
  changes : Record K V

namespace Write

variable {w : Write K V}

/-- What is written. -/
def value (w : Write K V) : Record K V := w.snapshot.update w.changes

/-- **A write is current** if its author has read what the record still holds, up to the keys
that are set. -/
def Current (w : Write K V) (m : Record K V) : Prop :=
  ∀ k, k ∉ w.changes → w.snapshot.lookup k = m.lookup k

/-- **A write is current exactly if it sets its own keys and nothing else.** -/
theorem current_iff : w.Current m ↔ w.value = m.update w.changes := by
  constructor
  · intro h
    refine Finmap.ext_lookup fun k => ?_
    by_cases hk : k ∈ w.changes
    · rw [value, lookup_update_of_mem hk, lookup_update_of_mem hk]
    · rw [value, lookup_update_of_notMem hk, lookup_update_of_notMem hk, h k hk]
  · intro h k hk
    rw [← lookup_update_of_notMem (m := w.snapshot) hk, ← lookup_update_of_notMem (m := m) hk, ← h]
    rfl

/-- The keys that are not set are kept exactly by the current writes. -/
theorem current_iff_kept : w.Current m ↔ ∀ k, k ∉ w.changes → w.value.lookup k = m.lookup k := by
  refine forall_congr' fun k => forall_congr' fun hk => ?_
  rw [value, lookup_update_of_notMem hk]

end Write

/-- A record after some changes, the last of which comes first. -/
def history (m : Record K V) : List (Record K V) → Record K V
  | [] => m
  | c :: cs => (history m cs).update c

/-- **A key holds what was set last**, or what it held at first. -/
theorem lookup_history (m : Record K V) (cs : List (Record K V)) (k : K) :
    (history m cs).lookup k = ((cs.find? fun c => k ∈ c).getD m).lookup k := by
  induction cs with
  | nil => rfl
  | cons c cs ih =>
    rw [history]
    by_cases hk : k ∈ c
    · rw [lookup_update_of_mem hk, List.find?_cons_of_pos (by simpa using hk), Option.getD_some]
    · rw [lookup_update_of_notMem hk, List.find?_cons_of_neg (by simpa using hk), ih]

end Record
