import Mathlib.Data.List.Pairwise
import Mathlib.Data.Nat.Basic

/-!
# Epochs

A table often numbers the rows of a key: whoever is let in next gets the next number,
and a number that was given is never given again. The rows are then *rising* – of two
rows of a key the later one has the greater number – and a number identifies a row of
its key.

The other half of such a discipline is that at most one row of a key is *live*, the
one that was let in last. Both assertions are about pairs of rows, so that they are
kept by an update that looks at one row at a time, and an append has to be compared
with the rows that are there.
-/

universe u v w

namespace Epochs

variable {α : Type u} {κ : Type v} {γ : Type w} {key : α → κ} {rows : List α}

/-- **Rows of one key are numbered upwards.** -/
def Rising [LT γ] (key : α → κ) (number : α → γ) (rows : List α) : Prop :=
  rows.Pairwise fun a b => key a = key b → number a < number b

/-- **At most one row of a key is live.** -/
def Single (key : α → κ) (live : α → Prop) (rows : List α) : Prop :=
  rows.Pairwise fun a b => key a = key b → live a → ¬ live b

section Rising

variable {number : α → γ}

theorem rising_nil [LT γ] : Rising key number [] := List.Pairwise.nil

/-- A row with a number above those of its key is appended. -/
theorem Rising.append [LT γ] {b : α} (h : Rising key number rows)
    (hb : ∀ a ∈ rows, key a = key b → number a < number b) :
    Rising key number (rows ++ [b]) := by
  refine List.pairwise_append.mpr ⟨h, List.pairwise_singleton _ _, fun a ha c hc => ?_⟩
  rw [List.mem_singleton.mp hc]
  exact hb a ha

/-- An update that leaves keys and numbers alone. -/
theorem Rising.map [LT γ] {f : α → α} (h : Rising key number rows)
    (hkey : ∀ a, key (f a) = key a) (hnumber : ∀ a, number (f a) = number a) :
    Rising key number (rows.map f) := by
  refine List.pairwise_map.mpr (h.imp fun {a b} hab hsame => ?_)
  rw [hnumber a, hnumber b]
  exact hab (by rw [← hkey a, ← hkey b, hsame])

/-- **A number identifies a row of its key.** -/
theorem Rising.eq_of [Preorder γ] (h : Rising key number rows) {a b : α} (ha : a ∈ rows)
    (hb : b ∈ rows) (hkey : key a = key b) (hnumber : number a = number b) : a = b := by
  by_contra hne
  have hapart : rows.Pairwise fun a b => ¬ (key a = key b ∧ number a = number b) :=
    List.Pairwise.imp (fun {a b} hab (hsame : key a = key b ∧ number a = number b) =>
      lt_irrefl (number a) (lt_of_lt_of_eq (hab hsame.1) hsame.2.symm)) h
  have : Std.Symm fun a b => ¬ (key a = key b ∧ number a = number b) :=
    ⟨fun a b hab hba => hab ⟨hba.1.symm, hba.2.symm⟩⟩
  exact hapart.forall ha hb hne ⟨hkey, hnumber⟩

end Rising

section Single

variable {live : α → Prop}

theorem single_nil : Single key live [] := List.Pairwise.nil

/-- A row is appended whose key has no live row. -/
theorem Single.append {b : α} (h : Single key live rows)
    (hb : ∀ a ∈ rows, key a = key b → ¬ live a) : Single key live (rows ++ [b]) := by
  refine List.pairwise_append.mpr ⟨h, List.pairwise_singleton _ _, fun a ha c hc => ?_⟩
  rw [List.mem_singleton.mp hc]
  exact fun hkey hlive => absurd hlive (hb a ha hkey)

/-- An update that brings no row to life. -/
theorem Single.map {f : α → α} (h : Single key live rows) (hkey : ∀ a, key (f a) = key a)
    (hlive : ∀ a, live (f a) → live a) : Single key live (rows.map f) := by
  refine List.pairwise_map.mpr (h.imp fun {a b} hab hsame ha hb => ?_)
  exact hab (by rw [← hkey a, ← hkey b, hsame]) (hlive a ha) (hlive b hb)

/-- **The live row of a key.** -/
theorem Single.eq_of (h : Single key live rows) {a b : α} (ha : a ∈ rows) (hb : b ∈ rows)
    (hkey : key a = key b) (hla : live a) (hlb : live b) : a = b := by
  by_contra hne
  have hapart : rows.Pairwise fun a b => ¬ (key a = key b ∧ live a ∧ live b) :=
    List.Pairwise.imp (fun hab hsame => hab hsame.1 hsame.2.1 hsame.2.2) h
  have : Std.Symm fun a b => ¬ (key a = key b ∧ live a ∧ live b) :=
    ⟨fun a b hab hba => hab ⟨hba.1.symm, hba.2.2, hba.2.1⟩⟩
  exact hapart.forall ha hb hne ⟨hkey, hla, hlb⟩

end Single

end Epochs
