import Mathlib.Data.List.Pairwise

/-!
# Tables with unique indexes

A unique index says which two rows cannot stand in a table together: they
*clash*. A primary key and any number of further indexes, partial ones
included, make one such relation, and a table is a list of rows no two of
which clash. The rows of a table therefore are determined by any column, or
columns, on which two rows can only agree when they clash – a lookup by
these finds the row that has them, whichever rows stand beside it.

A statement that would break the index does not happen: `insert` answers
nothing when the new row clashes with one that is there.
-/

universe u

/-- **A table**: rows that do not clash. -/
structure UniqueRows (α : Type u) (Clash : α → α → Prop) where
  rows : List α
  unique : rows.Pairwise fun a b => ¬ Clash a b

namespace UniqueRows

variable {α : Type u} {Clash : α → α → Prop}

/-- A table without rows. -/
def empty : UniqueRows α Clash := ⟨[], .nil⟩

/-- `INSERT`, unless an index is in the way. -/
def insert [DecidableRel Clash] (t : UniqueRows α Clash) (a : α) : Option (UniqueRows α Clash) :=
  if h : ∀ b ∈ t.rows, ¬ Clash b a then
    some ⟨t.rows ++ [a], List.pairwise_append.mpr ⟨t.unique, List.pairwise_singleton _ _,
      fun b hb c hc => by rw [List.mem_singleton.mp hc]; exact h b hb⟩⟩
  else none

/-- `DELETE FROM … WHERE p`. -/
def delete (t : UniqueRows α Clash) (p : α → Bool) : UniqueRows α Clash :=
  ⟨t.rows.filter fun a => !p a, t.unique.sublist List.filter_sublist⟩

/-- `UPDATE`, of columns that no index reads. -/
def map (t : UniqueRows α Clash) (f : α → α) (hf : ∀ a b, Clash (f a) (f b) → Clash a b) :
    UniqueRows α Clash :=
  ⟨t.rows.map f, List.pairwise_map.mpr (t.unique.imp fun hab h => hab (hf _ _ h))⟩

/-- `UPDATE`, unless an index is in the way. -/
def update [DecidableRel Clash] (t : UniqueRows α Clash) (f : α → α) :
    Option (UniqueRows α Clash) :=
  if h : (t.rows.map f).Pairwise fun a b => ¬ Clash a b then some ⟨t.rows.map f, h⟩ else none

/-- `SELECT … WHERE p` of at most one row. -/
def find? (t : UniqueRows α Clash) (p : α → Bool) : Option α := t.rows.find? p

theorem rows_insert [DecidableRel Clash] {t t' : UniqueRows α Clash} {a : α}
    (h : t.insert a = some t') : t'.rows = t.rows ++ [a] := by
  unfold insert at h
  split at h
  · rw [← Option.some.inj h]
  · cases h

theorem rows_update [DecidableRel Clash] {t t' : UniqueRows α Clash} {f : α → α}
    (h : t.update f = some t') : t'.rows = t.rows.map f := by
  unfold update at h
  split at h
  · rw [← Option.some.inj h]
  · cases h

/-- What was inserted clashed with nothing. -/
theorem not_clash_of_insert [DecidableRel Clash] {t t' : UniqueRows α Clash} {a : α}
    (h : t.insert a = some t') : ∀ b ∈ t.rows, ¬ Clash b a := by
  unfold insert at h
  split at h
  case isTrue hclash => exact hclash
  · cases h

/-- What clashes with nothing can be inserted. -/
theorem exists_insert [DecidableRel Clash] {t : UniqueRows α Clash} {a : α}
    (h : ∀ b ∈ t.rows, ¬ Clash b a) : ∃ t', t.insert a = some t' ∧ t'.rows = t.rows ++ [a] := by
  unfold insert
  rw [dif_pos h]
  exact ⟨_, rfl, rfl⟩

theorem mem_insert [DecidableRel Clash] {t t' : UniqueRows α Clash} {a : α}
    (h : t.insert a = some t') : a ∈ t'.rows := by
  rw [rows_insert h]
  exact List.mem_append_right _ (List.mem_singleton_self a)

theorem mem_insert_of_mem [DecidableRel Clash] {t t' : UniqueRows α Clash} {a b : α}
    (h : t.insert a = some t') (hb : b ∈ t.rows) : b ∈ t'.rows := by
  rw [rows_insert h]
  exact List.mem_append_left _ hb

theorem mem_delete {t : UniqueRows α Clash} {p : α → Bool} {a : α} (ha : a ∈ t.rows)
    (hp : p a = false) : a ∈ (t.delete p).rows :=
  List.mem_filter.mpr ⟨ha, by simp [hp]⟩

/-- **Rows that agree on an index are one row.** -/
theorem eq_of_clash (hsymm : ∀ a b, Clash a b → Clash b a) (t : UniqueRows α Clash) {a b : α}
    (ha : a ∈ t.rows) (hb : b ∈ t.rows) (h : Clash a b) : a = b := by
  by_contra hne
  have : Std.Symm fun a b => ¬ Clash a b := ⟨fun a b hab hba => hab (hsymm b a hba)⟩
  exact t.unique.forall ha hb hne h

/-- **A lookup that two rows can only meet when they clash finds the row that
meets it.** -/
theorem find?_of_mem (hsymm : ∀ a b, Clash a b → Clash b a) (t : UniqueRows α Clash)
    {p : α → Bool} (hp : ∀ a b, p a = true → p b = true → Clash a b) {a : α} (ha : a ∈ t.rows)
    (hpa : p a = true) : t.find? p = some a := by
  unfold find?
  cases hfind : t.rows.find? p with
  | none => exact absurd hpa (List.find?_eq_none.mp hfind a ha)
  | some b =>
    have hb : p b = true := List.find?_some hfind
    rw [t.eq_of_clash hsymm (List.mem_of_find?_eq_some hfind) ha (hp b a hb hpa)]

theorem of_find? {t : UniqueRows α Clash} {p : α → Bool} {a : α} (h : t.find? p = some a) :
    a ∈ t.rows ∧ p a = true :=
  ⟨List.mem_of_find?_eq_some h, List.find?_some h⟩

/-- A lookup that finds nothing. -/
theorem find?_none {t : UniqueRows α Clash} {p : α → Bool} (h : t.find? p = none) {a : α}
    (ha : a ∈ t.rows) : p a = false := by
  simpa using List.find?_eq_none.mp h a ha

end UniqueRows
