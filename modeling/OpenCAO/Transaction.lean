import Mathlib.Logic.Relation

/-!
# Transactions

A transaction is a program that reads and writes a state and may fail. A
failure undoes everything: what is *committed* after a failed transaction
is the state it started from.

What a transaction does is said by a weakest precondition with two
postconditions, one for its answer and the state it leaves, one for the
error it fails with. Asking nothing of the error gives partial
correctness, under which invariants are proved; asking of the error that
it is one of the expected ones says that a transaction never fails in
any other way.

The precondition of a composed program is computed from its parts by the
`simp` rules below. A part that has a specification of its own enters
through `wp_mono`, so that no caller looks inside it.
-/

universe u

/-- **A transaction** on states `σ` with errors `ε` and answers `α`. -/
abbrev Tx (σ : Type u) (ε : Type u) (α : Type u) := StateT σ (Except ε) α

namespace Tx

variable {σ ε α β : Type u}

/-- **The weakest precondition** of a transaction, for what it answers and
leaves and for what it fails with. -/
def wp (m : Tx σ ε α) (Q : α → σ → Prop) (E : ε → Prop) (s : σ) : Prop :=
  match m s with
  | .ok r => Q r.1 r.2
  | .error e => E e

/-- What a transaction leaves: a failed one leaves the state it found. -/
def commit (m : Tx σ ε α) (s : σ) : σ :=
  match m s with
  | .ok r => r.2
  | .error _ => s

/-- Go on only under a condition. -/
def require (c : Prop) [Decidable c] (e : ε) : Tx σ ε PUnit :=
  if c then pure ⟨⟩ else throw e

/-- Go on only with a value. -/
def need (o : Option α) (e : ε) : Tx σ ε α :=
  match o with
  | some a => pure a
  | none => throw e

/-- Run a transaction only under a condition. -/
def when (c : Prop) [Decidable c] (m : Tx σ ε PUnit) : Tx σ ε PUnit :=
  if c then m else pure ⟨⟩

/-- Ask the state, and fail with what it answers. -/
def ask (f : σ → Except ε α) : Tx σ ε α := fun s => (f s).map fun a => (a, s)

/-- Run a transaction of a part of the state. -/
def within {τ : Type u} (part : σ → τ) (put : τ → σ → σ) (m : Tx τ ε α) : Tx σ ε α :=
  fun s => (m (part s)).map fun r => (r.1, put r.2 s)

/-- Run a list of transactions one after the other. -/
def each (f : α → Tx σ ε PUnit) : List α → Tx σ ε PUnit
  | [] => pure ⟨⟩
  | a :: l => do f a; each f l

section Rules

variable {Q : α → σ → Prop} {E : ε → Prop} {s : σ}

@[simp] theorem wp_pure (a : α) : wp (pure a : Tx σ ε α) Q E s ↔ Q a s := Iff.rfl

@[simp] theorem wp_throw (e : ε) : wp (throw e : Tx σ ε α) Q E s ↔ E e := Iff.rfl

@[simp] theorem wp_bind (m : Tx σ ε β) (f : β → Tx σ ε α) :
    wp (m >>= f) Q E s ↔ wp m (fun b s' => wp (f b) Q E s') E s := by
  unfold wp
  show (match (m s >>= fun r => f r.1 r.2 : Except ε (α × σ)) with
    | .ok r => Q r.1 r.2 | .error e => E e) ↔ _
  cases m s with
  | ok r => rfl
  | error e => rfl

@[simp] theorem wp_map (m : Tx σ ε β) (f : β → α) :
    wp (f <$> m) Q E s ↔ wp m (fun b s' => Q (f b) s') E s := by
  rw [← bind_pure_comp, wp_bind]
  rfl

@[simp] theorem wp_get {Q : σ → σ → Prop} : wp (get : Tx σ ε σ) Q E s ↔ Q s s := Iff.rfl

@[simp] theorem wp_set {Q : PUnit → σ → Prop} (s' : σ) :
    wp (set s' : Tx σ ε PUnit) Q E s ↔ Q ⟨⟩ s' := Iff.rfl

@[simp] theorem wp_modify {Q : PUnit → σ → Prop} (f : σ → σ) :
    wp (modify f : Tx σ ε PUnit) Q E s ↔ Q ⟨⟩ (f s) := Iff.rfl

@[simp] theorem wp_ite (c : Prop) [Decidable c] (m₁ m₂ : Tx σ ε α) :
    wp (if c then m₁ else m₂) Q E s ↔ (c → wp m₁ Q E s) ∧ (¬ c → wp m₂ Q E s) := by
  by_cases hc : c <;> simp [hc]

@[simp] theorem wp_require {Q : PUnit → σ → Prop} (c : Prop) [Decidable c] (e : ε) :
    wp (require c e : Tx σ ε PUnit) Q E s ↔ (c → Q ⟨⟩ s) ∧ (¬ c → E e) := by
  unfold require
  rw [wp_ite, wp_pure, wp_throw]

@[simp] theorem wp_when {Q : PUnit → σ → Prop} (c : Prop) [Decidable c] (m : Tx σ ε PUnit) :
    wp (when c m) Q E s ↔ (c → wp m Q E s) ∧ (¬ c → Q ⟨⟩ s) := by
  unfold when
  rw [wp_ite, wp_pure]

@[simp] theorem wp_ask (f : σ → Except ε α) :
    wp (ask f) Q E s ↔ (∀ a, f s = .ok a → Q a s) ∧ ∀ e, f s = .error e → E e := by
  unfold wp ask
  cases hf : f s with
  | ok a => simp [Except.map]
  | error e => simp [Except.map]

theorem ask_bind (f : σ → Except ε β) (k : β → Tx σ ε α) :
    (ask f >>= k) s = (f s).bind fun b => k b s := by
  show ((f s).map _).bind _ = _
  cases f s <;> rfl

theorem wp_within {τ : Type u} {part : σ → τ} {put : τ → σ → σ} {m : Tx τ ε α}
    (h : wp m (fun a t => Q a (put t s)) E (part s)) : wp (within part put m) Q E s := by
  unfold wp within at *
  cases hm : m (part s) with
  | ok r =>
    rw [hm] at h
    exact h
  | error e =>
    rw [hm] at h
    exact h

@[simp] theorem wp_need (o : Option α) (e : ε) :
    wp (need o e : Tx σ ε α) Q E s ↔ (∀ a, o = some a → Q a s) ∧ (o = none → E e) := by
  cases o <;> simp [need]

/-- A check that is passed. -/
theorem require_bind {c : Prop} [Decidable c] (hc : c) (e : ε) (k : PUnit → Tx σ ε α) :
    (require c e >>= k) = k ⟨⟩ := by
  rw [require, if_pos hc]
  rfl

/-- A value that is there. -/
theorem need_bind {o : Option β} {b : β} (h : o = some b) (e : ε) (k : β → Tx σ ε α) :
    (need o e >>= k) = k b := by
  rw [h]
  rfl

/-- A part that succeeds. -/
theorem run_bind {m : Tx σ ε β} {b : β} {s' : σ} (h : m s = .ok (b, s')) (k : β → Tx σ ε α) :
    (m >>= k) s = k b s' := by
  show (m s >>= fun r => k r.1 r.2) = _
  rw [h]
  rfl

/-- A part that fails. -/
theorem error_bind {m : Tx σ ε β} {e : ε} (h : m s = .error e) (k : β → Tx σ ε α) :
    (m >>= k) s = .error e := by
  show (m s >>= fun r => k r.1 r.2) = _
  rw [h]
  rfl

/-- What passes a check goes on. -/
theorem of_require {c : Prop} [Decidable c] {e : ε} {k : PUnit → Tx σ ε α} {r : α × σ}
    (h : (require c e >>= k) s = .ok r) : c ∧ k ⟨⟩ s = .ok r := by
  by_cases hc : c
  · rw [show require c e = (pure ⟨⟩ : Tx σ ε PUnit) from if_pos hc] at h
    exact ⟨hc, h⟩
  · rw [show require c e = (throw e : Tx σ ε PUnit) from if_neg hc] at h
    cases h

/-- A list of transactions is run in two parts. -/
theorem each_append (f : α → Tx σ ε PUnit) (l₁ l₂ : List α) :
    each f (l₁ ++ l₂) = (do each f l₁; each f l₂) := by
  induction l₁ with
  | nil => rfl
  | cons a l₁ ih =>
    show (do f a; each f (l₁ ++ l₂)) = (do (do f a; each f l₁); each f l₂)
    rw [ih, bind_assoc]

/-- **A list of transactions fails with any of its members**, at its turn. -/
theorem each_error {f : α → Tx σ ε PUnit} {l₁ l₂ : List α} {a : α} {s₁ : σ} {e : ε}
    (h₁ : each f l₁ s = .ok (⟨⟩, s₁)) (ha : f a s₁ = .error e) :
    each f (l₁ ++ a :: l₂) s = .error e := by
  rw [each_append]
  show (each f l₁ s >>= fun r => each f (a :: l₂) r.2) = _
  rw [h₁]
  show (f a s₁ >>= fun r => each f l₂ r.2) = _
  rw [ha]
  rfl

/-- A list of transactions succeeds with each of its members, at its turn. -/
theorem of_each {f : α → Tx σ ε PUnit} {l₁ l₂ : List α} {a : α} {r : PUnit × σ}
    (h : each f (l₁ ++ a :: l₂) s = .ok r) :
    ∃ s₁ s₂, each f l₁ s = .ok (⟨⟩, s₁) ∧ f a s₁ = .ok (⟨⟩, s₂) := by
  rw [each_append] at h
  cases h₁ : each f l₁ s with
  | error e =>
    have : (each f l₁ s >>= fun r => each f (a :: l₂) r.2) = .ok r := h
    rw [h₁] at this
    cases this
  | ok r₁ =>
    cases ha : f a r₁.2 with
    | error e =>
      rw [show (each f l₁ >>= fun _ => each f (a :: l₂)) s = _ from
        (each_append f l₁ (a :: l₂) ▸ each_error h₁ ha)] at h
      cases h
    | ok r₂ => exact ⟨r₁.2, r₂.2, h₁ ▸ rfl, ha⟩

/-- **Consequence**: a specification serves any caller that asks for
less. -/
theorem wp_mono {m : Tx σ ε α} {Q Q' : α → σ → Prop} {E E' : ε → Prop} (h : wp m Q E s)
    (hQ : ∀ a s', Q a s' → Q' a s') (hE : ∀ e, E e → E' e) : wp m Q' E' s := by
  unfold wp at *
  cases hm : m s with
  | ok r =>
    rw [hm] at h
    exact hQ _ _ h
  | error e =>
    rw [hm] at h
    exact hE _ h

/-- What holds whatever the transaction does. -/
theorem wp_true {m : Tx σ ε α} (hQ : ∀ a s', Q a s') : wp m Q (fun _ => True) s := by
  unfold wp
  cases m s with
  | ok r => exact hQ _ _
  | error e => trivial

/-- Two specifications of one transaction hold together. -/
theorem wp_and {m : Tx σ ε α} {Q Q' : α → σ → Prop} {E E' : ε → Prop} (h : wp m Q E s)
    (h' : wp m Q' E' s) : wp m (fun a s' => Q a s' ∧ Q' a s') (fun e => E e ∧ E' e) s := by
  unfold wp at *
  cases hm : m s with
  | ok r =>
    rw [hm] at h h'
    exact ⟨h, h'⟩
  | error e =>
    rw [hm] at h h'
    exact ⟨h, h'⟩

/-- **The rule of the loop**, for an assertion about what is still to be
done. -/
theorem wp_each_rest {f : α → Tx σ ε PUnit} {I : List α → σ → Prop} (l : List α)
    (h : ∀ a l s, I (a :: l) s → wp (f a) (fun _ => I l) E s) (hs : I l s) :
    wp (each f l) (fun _ => I []) E s := by
  induction l generalizing s with
  | nil => exact hs
  | cons a l ih =>
    show wp (f a >>= fun _ => each f l) _ E s
    rw [wp_bind]
    exact wp_mono (h a l s hs) (fun _ s' hs' => ih hs') fun _ he => he

/-- **The rule of the loop**: what every round keeps, the loop keeps. -/
theorem wp_each {f : α → Tx σ ε PUnit} {I : σ → Prop} (l : List α)
    (h : ∀ a ∈ l, ∀ s, I s → wp (f a) (fun _ => I) E s) (hs : I s) :
    wp (each f l) (fun _ => I) E s := by
  refine wp_mono (wp_each_rest (I := fun rest s => rest ⊆ l ∧ I s) l (fun a rest s hI => ?_)
    ⟨fun _ ha => ha, hs⟩) (fun _ _ h => h.2) fun _ he => he
  refine wp_mono (h a (hI.1 List.mem_cons_self) s hI.2) (fun _ s' hs' => ⟨?_, hs'⟩) fun _ he => he
  exact fun b hb => hI.1 (List.mem_cons_of_mem a hb)

/-- A successful run meets the postcondition. -/
theorem of_wp {m : Tx σ ε α} (h : wp m Q E s) {a : α} {s' : σ} (hm : m s = .ok (a, s')) :
    Q a s' := by
  unfold wp at h
  rw [hm] at h
  exact h

/-- A transaction that cannot fail and has one outcome has this outcome. -/
theorem run_of_wp {m : Tx σ ε α} {a : α} {s' : σ}
    (h : wp m (fun b t => b = a ∧ t = s') (fun _ => False) s) : m s = .ok (a, s') := by
  unfold wp at h
  cases hm : m s with
  | ok r =>
    rw [hm] at h
    rw [← h.1, ← h.2]
  | error e =>
    rw [hm] at h
    exact h.elim

/-- A transaction that cannot fail succeeds. -/
theorem succeeds_of_wp {m : Tx σ ε α} (h : wp m Q (fun _ => False) s) :
    ∃ a s', m s = .ok (a, s') ∧ Q a s' := by
  unfold wp at h
  cases hm : m s with
  | ok r =>
    rw [hm] at h
    exact ⟨r.1, r.2, rfl, h⟩
  | error e =>
    rw [hm] at h
    exact h.elim

/-- A transaction that cannot succeed fails. -/
theorem fails_of_wp {m : Tx σ ε α} (h : wp m (fun _ _ => False) E s) : ∃ e, m s = .error e := by
  unfold wp at h
  cases hm : m s with
  | ok r =>
    rw [hm] at h
    exact h.elim
  | error e => exact ⟨e, rfl⟩

/-- A transaction that cannot succeed and has one error has this error. -/
theorem error_of_wp {m : Tx σ ε α} {e : ε} (h : wp m (fun _ _ => False) (fun e' => e' = e) s) :
    m s = .error e := by
  unfold wp at h
  cases hm : m s with
  | ok r =>
    rw [hm] at h
    exact h.elim
  | error e' =>
    rw [hm] at h
    rw [h]

/-- **What a transaction preserves, its commit preserves.** -/
theorem commit_of_wp {m : Tx σ ε α} {I : σ → Prop} (hs : I s)
    (h : wp m (fun _ => I) (fun _ => True) s) : I (commit m s) := by
  unfold commit
  unfold wp at h
  cases hm : m s with
  | ok r =>
    rw [hm] at h
    exact h
  | error e => exact hs

end Rules

/-! ## What a transaction keeps

An assertion is *kept* by a transaction when it holds after every
successful run that it held before. This is the weakest precondition with
the assertion on both sides; the rules below follow the program, one for
each way of composing it. -/

/-- **The transaction keeps the assertion.** -/
def Keeps (I : σ → Prop) (m : Tx σ ε α) : Prop :=
  ∀ s, I s → wp m (fun _ => I) (fun _ => True) s

section Keeps

variable {I : σ → Prop}

theorem keeps_pure (a : α) : Keeps I (pure a : Tx σ ε α) := fun _ hs => hs

theorem keeps_throw (e : ε) : Keeps I (throw e : Tx σ ε α) := fun _ _ => trivial

theorem keeps_get : Keeps I (get : Tx σ ε σ) := fun _ hs => hs

theorem keeps_require (c : Prop) [Decidable c] (e : ε) :
    Keeps I (require c e : Tx σ ε PUnit) := fun s hs => by
  rw [wp_require]
  exact ⟨fun _ => hs, fun _ => trivial⟩

theorem keeps_need (o : Option α) (e : ε) : Keeps I (need o e : Tx σ ε α) := fun s hs => by
  rw [wp_need]
  exact ⟨fun _ _ => hs, fun _ => trivial⟩

theorem keeps_modify {f : σ → σ} (h : ∀ s, I s → I (f s)) :
    Keeps I (modify f : Tx σ ε PUnit) := fun s hs => h s hs

theorem Keeps.bind {m : Tx σ ε β} {k : β → Tx σ ε α} (hm : Keeps I m)
    (hk : ∀ b, Keeps I (k b)) : Keeps I (m >>= k) := fun s hs => by
  rw [wp_bind]
  exact wp_mono (hm s hs) (fun b s' hs' => hk b s' hs') fun _ h => h

theorem Keeps.get {k : σ → Tx σ ε α} (hk : ∀ s, Keeps I (k s)) :
    Keeps I ((MonadStateOf.get : Tx σ ε σ) >>= k) := .bind keeps_get hk

theorem Keeps.require {c : Prop} [Decidable c] {e : ε} {k : PUnit → Tx σ ε α}
    (hk : Keeps I (k ⟨⟩)) : Keeps I (Tx.require c e >>= k) :=
  .bind (keeps_require c e) fun _ => hk

theorem Keeps.need {o : Option β} {e : ε} {k : β → Tx σ ε α} (hk : ∀ b, Keeps I (k b)) :
    Keeps I (Tx.need o e >>= k) := .bind (keeps_need o e) hk

theorem Keeps.ite {c : Prop} [Decidable c] {m₁ m₂ : Tx σ ε α} (h₁ : c → Keeps I m₁)
    (h₂ : ¬ c → Keeps I m₂) : Keeps I (if c then m₁ else m₂) := fun s hs => by
  rw [wp_ite]
  exact ⟨fun hc => h₁ hc s hs, fun hc => h₂ hc s hs⟩

theorem Keeps.when {c : Prop} [Decidable c] {m : Tx σ ε PUnit} (h : c → Keeps I m) :
    Keeps I (when c m) := fun s hs => by
  rw [wp_when]
  exact ⟨fun hc => h hc s hs, fun _ => hs⟩

theorem Keeps.each {f : α → Tx σ ε PUnit} {l : List α} (h : ∀ a ∈ l, Keeps I (f a)) :
    Keeps I (each f l) := fun _ hs => wp_each l (fun a ha s hs => h a ha s hs) hs

/-- **What a transaction keeps, its commit keeps.** -/
theorem Keeps.commit {m : Tx σ ε α} (h : Keeps I m) {s : σ} (hs : I s) : I (Tx.commit m s) :=
  commit_of_wp hs (h s hs)

end Keeps

/-! ## What a transaction ensures

Often nothing is asked of a run that fails. -/

/-- **Every successful run from `s` ends as `Q` says.** -/
def Ensures (s : σ) (m : Tx σ ε α) (Q : α → σ → Prop) : Prop := wp m Q (fun _ => True) s

section Ensures

variable {Q : α → σ → Prop} {s : σ}

theorem ensures_throw (e : ε) : Ensures s (throw e : Tx σ ε α) Q := trivial

theorem Ensures.mono {Q' : α → σ → Prop} {m : Tx σ ε α} (h : Ensures s m Q)
    (hQ : ∀ a s', Q a s' → Q' a s') : Ensures s m Q' := wp_mono h hQ fun _ he => he

theorem Ensures.bind {m : Tx σ ε β} {k : β → Tx σ ε α} {P : β → σ → Prop} (hm : Ensures s m P)
    (hk : ∀ b s', P b s' → Ensures s' (k b) Q) : Ensures s (m >>= k) Q := by
  unfold Ensures
  rw [wp_bind]
  exact wp_mono hm hk fun _ he => he

theorem Ensures.get {k : σ → Tx σ ε α} (hk : Ensures s (k s) Q) :
    Ensures s ((MonadStateOf.get : Tx σ ε σ) >>= k) Q := by
  unfold Ensures
  rw [wp_bind]
  exact hk

theorem Ensures.require {c : Prop} [Decidable c] {e : ε} {k : PUnit → Tx σ ε α}
    (hk : c → Ensures s (k ⟨⟩) Q) : Ensures s (Tx.require c e >>= k) Q := by
  unfold Ensures
  rw [wp_bind, wp_require]
  exact ⟨hk, fun _ => trivial⟩

theorem Ensures.need {o : Option β} {e : ε} {k : β → Tx σ ε α}
    (hk : ∀ b, o = some b → Ensures s (k b) Q) : Ensures s (Tx.need o e >>= k) Q := by
  unfold Ensures
  rw [wp_bind, wp_need]
  exact ⟨hk, fun _ => trivial⟩

theorem Ensures.modify {f : σ → σ} {k : PUnit → Tx σ ε α} (hk : Ensures (f s) (k ⟨⟩) Q) :
    Ensures s ((modify f : Tx σ ε PUnit) >>= k) Q := by
  unfold Ensures
  rw [wp_bind, wp_modify]
  exact hk

theorem Ensures.set {s' : σ} {k : PUnit → Tx σ ε α} (hk : Ensures s' (k ⟨⟩) Q) :
    Ensures s ((MonadStateOf.set s' : Tx σ ε PUnit) >>= k) Q := by
  unfold Ensures
  rw [wp_bind]
  exact hk

theorem Ensures.when {c : Prop} [Decidable c] {m : Tx σ ε PUnit} {Q : PUnit → σ → Prop}
    (h : c → Ensures s m Q) (hnot : ¬ c → Q ⟨⟩ s) : Ensures s (Tx.when c m) Q := by
  unfold Ensures
  rw [wp_when]
  exact ⟨h, hnot⟩

theorem Ensures.ask {f : σ → Except ε β} {k : β → Tx σ ε α}
    (hk : ∀ b, f s = .ok b → Ensures s (k b) Q) : Ensures s (Tx.ask f >>= k) Q := by
  unfold Ensures
  rw [wp_bind, wp_ask]
  exact ⟨hk, fun _ _ => trivial⟩

theorem Ensures.ite {c : Prop} [Decidable c] {m₁ m₂ : Tx σ ε α} (h₁ : c → Ensures s m₁ Q)
    (h₂ : ¬ c → Ensures s m₂ Q) : Ensures s (if c then m₁ else m₂) Q := by
  unfold Ensures
  rw [wp_ite]
  exact ⟨h₁, h₂⟩

/-- A transaction ensures what its successful run leaves. -/
theorem Ensures.of_run {m : Tx σ ε α} (h : ∀ a s', m s = .ok (a, s') → Q a s') :
    Ensures s m Q := by
  unfold Ensures wp
  cases hm : m s with
  | ok r => exact h r.1 r.2 hm
  | error e => trivial

theorem Ensures.run {m : Tx σ ε α} (h : Ensures s m Q) {a : α} {s' : σ} (hm : m s = .ok (a, s')) :
    Q a s' := of_wp h hm

end Ensures

/-! ## What a transaction is made of

A transaction is *made of* steps of a relation when every successful run of
it leads from the state it found to the state it leaves by finitely many
of them. Unlike an assertion that is kept, this is said once and serves
every assertion that the steps keep. -/

/-- **From `s`, the transaction is made of steps of `R`.** -/
def Makes (R : σ → σ → Prop) (s : σ) (m : Tx σ ε α) : Prop :=
  wp m (fun _ s' => Relation.ReflTransGen R s s') (fun _ => True) s

section Makes

variable {R : σ → σ → Prop} {s : σ}

theorem makes_pure (a : α) : Makes R s (pure a : Tx σ ε α) := .refl

theorem makes_throw (e : ε) : Makes R s (throw e : Tx σ ε α) := trivial

/-- A transaction that is one step. -/
theorem Makes.single {m : Tx σ ε α} (h : Ensures s m fun _ s' => R s s') : Makes R s m :=
  h.mono fun _ _ h => .single h

theorem makes_require (c : Prop) [Decidable c] (e : ε) :
    Makes R s (require c e : Tx σ ε PUnit) := by
  unfold Makes
  rw [wp_require]
  exact ⟨fun _ => .refl, fun _ => trivial⟩

/-- The rule of composition, with what the first part answers. -/
theorem Makes.bind_of {m : Tx σ ε β} {k : β → Tx σ ε α} {P : β → σ → Prop}
    (hm : wp m (fun b s' => Relation.ReflTransGen R s s' ∧ P b s') (fun _ => True) s)
    (hk : ∀ b s', P b s' → Makes R s' (k b)) : Makes R s (m >>= k) := by
  unfold Makes
  rw [wp_bind]
  refine wp_mono hm (fun b s' hs' => ?_) fun _ h => h
  exact wp_mono (hk b s' hs'.2) (fun _ s'' hs'' => hs'.1.trans hs'') fun _ h => h

theorem Makes.bind {m : Tx σ ε β} {k : β → Tx σ ε α} (hm : Makes R s m)
    (hk : ∀ b s', Relation.ReflTransGen R s s' → Makes R s' (k b)) : Makes R s (m >>= k) :=
  .bind_of (wp_mono hm (fun _ _ h => ⟨h, h⟩) fun _ h => h) hk

theorem Makes.get {k : σ → Tx σ ε α} (hk : Makes R s (k s)) :
    Makes R s ((MonadStateOf.get : Tx σ ε σ) >>= k) := Ensures.get hk

theorem Makes.require {c : Prop} [Decidable c] {e : ε} {k : PUnit → Tx σ ε α}
    (hk : c → Makes R s (k ⟨⟩)) : Makes R s (Tx.require c e >>= k) := Ensures.require hk

theorem Makes.need {o : Option β} {e : ε} {k : β → Tx σ ε α}
    (hk : ∀ b, o = some b → Makes R s (k b)) : Makes R s (Tx.need o e >>= k) := Ensures.need hk

theorem Makes.ask {f : σ → Except ε β} {k : β → Tx σ ε α}
    (hk : ∀ b, f s = .ok b → Makes R s (k b)) : Makes R s (Tx.ask f >>= k) := Ensures.ask hk

/-- **A transaction that only reads** leaves what it found and answers with
something that meets `P`. -/
def Reads (P : α → Prop) (s : σ) (m : Tx σ ε α) : Prop :=
  wp m (fun a s' => s' = s ∧ P a) (fun _ => True) s

theorem Reads.bind {m : Tx σ ε β} {k : β → Tx σ ε α} {P : β → Prop} {Q : α → σ → Prop}
    (hm : Reads P s m) (hk : ∀ b, P b → Ensures s (k b) Q) : Ensures s (m >>= k) Q := by
  refine Ensures.bind hm fun b s' h => ?_
  rw [h.1]
  exact hk b h.2

theorem Makes.reads {m : Tx σ ε β} {k : β → Tx σ ε α} {P : β → Prop} (hm : Reads P s m)
    (hk : ∀ b, P b → Makes R s (k b)) : Makes R s (m >>= k) := hm.bind hk

/-- Steps that were made before. -/
theorem Makes.after {s' : σ} {m : Tx σ ε α} (hm : Makes R s' m)
    (h : Relation.ReflTransGen R s s') :
    wp m (fun _ s'' => Relation.ReflTransGen R s s'') (fun _ => True) s' :=
  wp_mono hm (fun _ _ h' => h.trans h') fun _ h => h

theorem Makes.ite {c : Prop} [Decidable c] {m₁ m₂ : Tx σ ε α} (h₁ : c → Makes R s m₁)
    (h₂ : ¬ c → Makes R s m₂) : Makes R s (if c then m₁ else m₂) := Ensures.ite h₁ h₂

theorem Makes.when {c : Prop} [Decidable c] {m : Tx σ ε PUnit} (h : c → Makes R s m) :
    Makes R s (Tx.when c m) := by
  unfold Makes
  rw [wp_when]
  exact ⟨h, fun _ => .refl⟩

theorem Makes.each {f : α → Tx σ ε PUnit} {l : List α} (h : ∀ a ∈ l, ∀ s, Makes R s (f a)) :
    Makes R s (Tx.each f l) :=
  wp_each l (fun a ha s' hs' => wp_mono (h a ha s') (fun _ _ h' => hs'.trans h') fun _ h => h) .refl

theorem Makes.mono {R' : σ → σ → Prop} {m : Tx σ ε α} (h : Makes R s m)
    (hR : ∀ a b, R a b → R' a b) : Makes R' s m :=
  wp_mono h (fun _ _ h => Relation.ReflTransGen.mono hR _ _ h) fun _ h => h

/-- **What every step keeps, the transaction keeps.** -/
theorem Makes.keeps {I : σ → Prop} {m : Tx σ ε α} (hm : Makes R s m)
    (hR : ∀ a b, I a → R a b → I b) (hs : I s) : Ensures s m fun _ => I := by
  refine Ensures.mono hm fun _ s' hrun => ?_
  induction hrun with
  | refl => exact hs
  | tail _ hlast ih => exact hR _ _ ih hlast

/-- **What relates the states around every step relates the states around the
transaction.** -/
theorem Makes.relates {P : σ → σ → Prop} {m : Tx σ ε α} (hm : Makes R s m) (hrefl : ∀ a, P a a)
    (htrans : ∀ a b c, P a b → P b c → P a c) (h : ∀ a b, R a b → P a b) :
    Ensures s m fun _ s' => P s s' := by
  refine Ensures.mono hm fun _ s' hrun => ?_
  induction hrun with
  | refl => exact hrefl s
  | tail _ hlast ih => exact htrans _ _ _ ih (h _ _ hlast)

theorem Keeps.of_makes {I : σ → Prop} {m : Tx σ ε α} (hR : ∀ a b, I a → R a b → I b)
    (hm : ∀ s, Makes R s m) : Keeps I m := fun s hs => (hm s).keeps hR hs

end Makes

end Tx
