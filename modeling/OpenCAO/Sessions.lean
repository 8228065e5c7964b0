import Mathlib.Tactic.SplitIfs

/-!
# Sessions

A session is a program that reads and writes a state and may fail. Unlike a transaction it is
not undone by a failure: what it has done until then stays, and whoever catches the failure sees
it. What is said of a session is said by a weakest precondition with two postconditions, one for
its answer and one for its failure, both of the state that is left.

A session that takes messages from a queue until one of them gives an answer (`receive`) keeps an
invariant while it does so (`wp_receive`).
-/

/-- **A session** on states `σ`, with failures `ε` and answers `α`. -/
abbrev Session (σ ε α : Type) := ExceptT ε (StateM σ) α

namespace Session

variable {σ τ ε α β : Type}

/-- **The weakest precondition** of a session, for what it answers and for what it fails with. -/
def wp (m : Session σ ε α) (Q : α → σ → Prop) (E : ε → σ → Prop) (s : σ) : Prop :=
  match m s with
  | (.ok a, t) => Q a t
  | (.error e, t) => E e t

/-- A session of a part of the state. -/
def within (part : σ → τ) (put : τ → σ → σ) (m : Session τ ε α) : Session σ ε α := fun s =>
  let r := m (part s)
  (r.1, put r.2 s)

/-- A session that is answered without a change, or fails. -/
def ofExcept (r : Except ε α) : Session σ ε α := fun s => (r, s)

/-- Take from a list until something gives an answer. -/
def untilSome (f : β → Session σ ε (Option α)) (ended : Session σ ε α) :
    List β → Session σ ε α
  | [] => ended
  | b :: rest => do
    match ← f b with
    | some a => pure a
    | none => untilSome f ended rest

/-- Take from a queue of the state until something gives an answer. -/
def receive (queue : σ → List β) (pop : σ → σ) (f : β → Session σ ε (Option α))
    (ended : Session σ ε α) : Session σ ε α := fun s =>
  untilSome (fun b => do modify pop; f b) ended (queue s) s

section Rules

variable {Q : α → σ → Prop} {E : ε → σ → Prop} {s : σ}

@[simp] theorem wp_pure (a : α) : wp (pure a : Session σ ε α) Q E s ↔ Q a s := Iff.rfl

@[simp] theorem wp_throw (e : ε) : wp (throw e : Session σ ε α) Q E s ↔ E e s := Iff.rfl

@[simp] theorem wp_bind (m : Session σ ε β) (f : β → Session σ ε α) :
    wp (m >>= f) Q E s ↔ wp m (fun b t => wp (f b) Q E t) E s := by
  show (match (m >>= f) s with | (.ok a, t) => Q a t | (.error e, t) => E e t) ↔ _
  unfold wp
  have hbind : (m >>= f) s = match m s with
      | (.ok b, t) => f b t
      | (.error e, t) => (.error e, t) := by
    show ExceptT.bindCont f (m s).1 (m s).2 = _
    rcases m s with ⟨_ | _, t⟩ <;> rfl
  rw [hbind]
  rcases m s with ⟨_ | _, t⟩ <;> rfl

@[simp] theorem wp_get {Q : σ → σ → Prop} : wp (get : Session σ ε σ) Q E s ↔ Q s s := Iff.rfl

@[simp] theorem wp_modify (f : σ → σ) {Q : PUnit → σ → Prop} :
    wp (modify f : Session σ ε PUnit) Q E s ↔ Q ⟨⟩ (f s) := Iff.rfl

theorem wp_ofExcept {r : Except ε α} (hQ : ∀ a, r = .ok a → Q a s)
    (hE : ∀ e, r = .error e → E e s) : wp (ofExcept r) Q E s := by
  show (match (r, s) with | (.ok a, t) => Q a t | (.error e, t) => E e t)
  cases r with
  | ok a => exact hQ a rfl
  | error e => exact hE e rfl

theorem wp_ite (c : Prop) [Decidable c] (m n : Session σ ε α) :
    wp (if c then m else n) Q E s ↔ (c → wp m Q E s) ∧ (¬ c → wp n Q E s) := by
  split_ifs with h <;> simp [h]

theorem wp_within {part : σ → τ} {put : τ → σ → σ} {m : Session τ ε α} :
    wp (within part put m) Q E s ↔
      wp m (fun a t => Q a (put t s)) (fun e t => E e (put t s)) (part s) := by
  unfold wp within
  dsimp only
  rcases m (part s) with ⟨_ | _, t⟩ <;> rfl

theorem wp_mono {Q' : α → σ → Prop} {E' : ε → σ → Prop} {m : Session σ ε α} (h : wp m Q E s)
    (hQ : ∀ a t, Q a t → Q' a t) (hE : ∀ e t, E e t → E' e t) : wp m Q' E' s := by
  unfold wp at h ⊢
  split at h
  · exact hQ _ _ h
  · exact hE _ _ h

/-- What holds whatever happens. -/
theorem wp_of_forall {m : Session σ ε α} (hQ : ∀ a t, Q a t) (hE : ∀ e t, E e t) :
    wp m Q E s := by
  unfold wp
  split
  · exact hQ _ _
  · exact hE _ _

theorem wp_and {Q' : α → σ → Prop} {E' : ε → σ → Prop} {m : Session σ ε α} (h : wp m Q E s)
    (h' : wp m Q' E' s) : wp m (fun a t => Q a t ∧ Q' a t) (fun e t => E e t ∧ E' e t) s := by
  unfold wp at h h' ⊢
  split at h
  · next hm => rw [hm] at h'; exact ⟨h, h'⟩
  · next hm => rw [hm] at h'; exact ⟨h, h'⟩

/-- **The rule for a loop**: an invariant for each rest of the list. -/
theorem wp_untilSome {f : β → Session σ ε (Option α)} {ended : Session σ ε α}
    (I : List β → σ → Prop)
    (hstep : ∀ b rest s, I (b :: rest) s →
      wp (f b) (fun o t => (∀ a, o = some a → Q a t) ∧ (o = none → I rest t)) E s)
    (hended : ∀ s, I [] s → wp ended Q E s) (l : List β) :
    ∀ s, I l s → wp (untilSome f ended l) Q E s := by
  induction l with
  | nil => exact hended
  | cons b rest ih =>
    intro s hs
    unfold untilSome
    rw [wp_bind]
    refine wp_mono (hstep b rest s hs) (fun o t ho => ?_) fun _ _ h => h
    cases o with
    | some a => exact ho.1 a rfl
    | none => exact ih t (ho.2 rfl)

/-- **The rule for a queue**: an invariant, and what is taken is gone. -/
theorem wp_receive {queue : σ → List β} {pop : σ → σ} {f : β → Session σ ε (Option α)}
    {ended : Session σ ε α} (I : σ → Prop)
    (hstep : ∀ b s, I s → (queue s).head? = some b →
      wp (f b) (fun o t => (∀ a, o = some a → Q a t) ∧
        (o = none → I t ∧ queue t = (queue s).tail)) E (pop s))
    (hended : ∀ s, I s → wp ended Q E s) (hs : I s) :
    wp (receive queue pop f ended) Q E s := by
  refine wp_untilSome (fun rest s => I s ∧ queue s = rest) ?_ (fun s h => hended s h.1)
    (queue s) s ⟨hs, rfl⟩
  intro b rest s h
  rw [wp_bind, wp_modify]
  refine wp_mono (hstep b s h.1 (by rw [h.2, List.head?_cons])) ?_ fun _ _ h => h
  intro o t ho
  exact ⟨ho.1, fun hnone => ⟨(ho.2 hnone).1, (ho.2 hnone).2.trans (h.2 ▸ rfl)⟩⟩

end Rules

end Session
