import Mathlib.Data.List.Nodup
import Mathlib.Data.List.Forall2

/-!
# Rows of a table

A table of a relational store is a list of rows. The statements that
change one are few: rows are appended, and the rows meeting a condition
are updated in place. What a development needs of them is equally
little – what an updated table contains, that a key the update leaves
alone stays unique, and that a fact about a row and its successor is
established by looking at the one row function.

The last is `evolve_update`: an in-place update relates every row to
the row at the same position by any reflexive relation that the row
function respects on the rows it is applied to. Since
`List.Forall₂` composes, a chain of updates is treated one update at a
time.
-/

namespace Rows

variable {α κ : Type*}

/-- `UPDATE … SET f WHERE p`: the rows meeting `p` are replaced by their
image. -/
def update (p : α → Bool) (f : α → α) (rows : List α) : List α :=
  rows.map fun r => if p r then f r else r

/-- The number of rows a statement with condition `p` touches. -/
def rowcount (p : α → Bool) (rows : List α) : ℕ := rows.countP p

@[simp] theorem length_update (p : α → Bool) (f : α → α) (rows : List α) :
    (update p f rows).length = rows.length := by
  simp [update]

theorem mem_update {p : α → Bool} {f : α → α} {rows : List α} {r : α} :
    r ∈ update p f rows ↔ ∃ r₀ ∈ rows, (if p r₀ then f r₀ else r₀) = r := by
  simp [update]

/-- A row the condition passes over is still there. -/
theorem mem_update_of_not {p : α → Bool} {f : α → α} {rows : List α} {r : α}
    (hr : r ∈ rows) (hp : p r = false) : r ∈ update p f rows :=
  mem_update.mpr ⟨r, hr, by simp [hp]⟩

/-- A row the condition selects is there in its new form. -/
theorem mem_update_of {p : α → Bool} {f : α → α} {rows : List α} {r : α}
    (hr : r ∈ rows) (hp : p r = true) : f r ∈ update p f rows :=
  mem_update.mpr ⟨r, hr, by simp [hp]⟩

/-- An update no row meets changes nothing. -/
theorem update_eq_self {p : α → Bool} {f : α → α} {rows : List α}
    (h : ∀ r ∈ rows, p r = false) : update p f rows = rows := by
  unfold update
  calc rows.map (fun r => if p r then f r else r)
      = rows.map id := List.map_congr_left fun r hr => by simp [h r hr]
    _ = rows := List.map_id rows

/-- **An update that leaves a column alone leaves the whole column
alone.** -/
theorem map_update {p : α → Bool} {f : α → α} {g : α → κ}
    (h : ∀ r, p r = true → g (f r) = g r) (rows : List α) :
    (update p f rows).map g = rows.map g := by
  unfold update
  rw [List.map_map]
  refine List.map_congr_left fun r _ => ?_
  by_cases hp : p r = true
  · simp [hp, h r hp]
  · simp [hp]

/-- **An update relates each row to its successor** by any reflexive
relation the row function respects on the rows of the table. -/
theorem evolve_update_of_mem {R : α → α → Prop} (hrefl : ∀ r, R r r) {p : α → Bool} {f : α → α}
    {rows : List α} (h : ∀ r ∈ rows, p r = true → R r (f r)) :
    List.Forall₂ R rows (update p f rows) := by
  unfold update
  rw [List.forall₂_map_right_iff, List.forall₂_same]
  intro r hr
  by_cases hp : p r = true
  · simpa [hp] using h r hr hp
  · simpa [hp] using hrefl r

theorem evolve_update {R : α → α → Prop} (hrefl : ∀ r, R r r) {p : α → Bool} {f : α → α}
    (h : ∀ r, p r = true → R r (f r)) (rows : List α) :
    List.Forall₂ R rows (update p f rows) :=
  evolve_update_of_mem hrefl fun r _ => h r

/-- A selection by columns an update leaves alone has the columns it leaves alone. -/
theorem map_filter_update {p q : α → Bool} {f : α → α} {g : α → κ} (hq : ∀ r, q (f r) = q r)
    (hg : ∀ r, g (f r) = g r) (rows : List α) :
    ((update p f rows).filter q).map g = (rows.filter q).map g := by
  unfold update
  induction rows with
  | nil => rfl
  | cons r rows ih =>
    by_cases hp : p r = true <;> by_cases hr : q r = true <;> simp [hp, hr, hq, hg, ih]

/-- A lookup by a column that an update leaves alone. -/
theorem find?_update [DecidableEq κ] {key : α → κ} {p : α → Bool} {f : α → α}
    (hf : ∀ r, key (f r) = key r) {rows : List α} {id : κ} {r : α}
    (hr : r ∈ rows.find? fun r => key r = id) :
    ∃ r' ∈ (update p f rows).find? (fun r => key r = id), r' = r ∨ r' = f r := by
  induction rows with
  | nil => cases hr
  | cons x rows ih =>
    have hkey : key (if p x = true then f x else x) = key x := by
      split
      · exact hf x
      · rfl
    by_cases hx : key x = id
    · rw [List.find?_cons_of_pos (by simpa using hx)] at hr
      obtain rfl := Option.some.inj hr
      refine ⟨if p x = true then f x else x, ?_, ?_⟩
      · exact List.find?_cons_of_pos (by simpa [hkey] using hx)
      · split
        · exact .inr rfl
        · exact .inl rfl
    · rw [List.find?_cons_of_neg (by simpa using hx)] at hr
      obtain ⟨r', hr', hcases⟩ := ih hr
      refine ⟨r', ?_, hcases⟩
      show (List.map _ (x :: rows)).find? _ = _
      rw [List.map_cons, List.find?_cons_of_neg (by simpa [hkey] using hx)]
      exact hr'

/-- `JOIN … ON p`: go on with every row that meets the condition. -/
def join {β : Type*} (rows : List α) (p : α → Prop) [DecidablePred p] (k : α → List β) : List β :=
  (rows.filter fun a => decide (p a)).flatMap k

theorem mem_join {β : Type*} {rows : List α} {p : α → Prop} [DecidablePred p] {k : α → List β}
    {b : β} : b ∈ join rows p k ↔ ∃ a ∈ rows, p a ∧ b ∈ k a := by
  simp [join, and_assoc]

section Key

variable {key : α → κ} {rows : List α}

/-- Rows of a table with a unique key are determined by their key. -/
theorem eq_of_key (hkey : (rows.map key).Nodup) {a b : α} (ha : a ∈ rows) (hb : b ∈ rows)
    (h : key a = key b) : a = b :=
  List.inj_on_of_nodup_map hkey ha hb h

/-- A lookup by a unique key finds the row that has it. -/
theorem find?_key [DecidableEq κ] (hkey : (rows.map key).Nodup) {a : α} (ha : a ∈ rows) :
    rows.find? (fun r => decide (key r = key a)) = some a := by
  cases hfind : rows.find? (fun r => decide (key r = key a)) with
  | none =>
    have := List.find?_eq_none.mp hfind a ha
    simp at this
  | some b =>
    have hb : key b = key a := by simpa using List.find?_some hfind
    rw [eq_of_key hkey (List.mem_of_find?_eq_some hfind) ha hb]

end Key

/-! ## Rows followed through a run -/

/-- The row at the position of a given one. -/
theorem exists_right {β : Type*} {R : α → β → Prop} {rows : List α} {rows' : List β}
    (h : List.Forall₂ R rows rows') {a : α} (ha : a ∈ rows) : ∃ b ∈ rows', R a b := by
  induction h with
  | nil => simp at ha
  | cons hab _ ih =>
    rcases List.mem_cons.mp ha with rfl | ha
    · exact ⟨_, List.mem_cons_self, hab⟩
    · obtain ⟨b, hb, hR⟩ := ih ha
      exact ⟨b, List.mem_cons_of_mem _ hb, hR⟩

theorem exists_left {β : Type*} {R : α → β → Prop} {rows : List α} {rows' : List β}
    (h : List.Forall₂ R rows rows') {b : β} (hb : b ∈ rows') : ∃ a ∈ rows, R a b := by
  have hflip : List.Forall₂ (fun x y => R y x) rows' rows := h.flip
  exact exists_right hflip hb

/-- Two stages of a run compose. -/
theorem evolve_trans {R : α → α → Prop} (htrans : ∀ a b c, R a b → R b c → R a c)
    {rows₁ rows₂ rows₃ : List α} (h₁ : List.Forall₂ R rows₁ rows₂)
    (h₂ : List.Forall₂ R rows₂ rows₃) : List.Forall₂ R rows₁ rows₃ := by
  induction h₁ generalizing rows₃ with
  | nil => exact h₂
  | cons hab _ ih =>
    cases h₂ with
    | cons hbc hrest => exact .cons (htrans _ _ _ hab hbc) (ih hrest)

/-- Rows related to their successors by a relation that keeps a column
have the same column. -/
theorem map_eq_of_evolve {R : α → α → Prop} {g : α → κ} (hg : ∀ a b, R a b → g a = g b)
    {rows rows' : List α} (h : List.Forall₂ R rows rows') : rows'.map g = rows.map g := by
  induction h with
  | nil => rfl
  | cons hab _ ih => simp [ih, hg _ _ hab]

end Rows
