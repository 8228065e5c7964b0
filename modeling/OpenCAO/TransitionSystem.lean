import Mathlib.Logic.Relation
import Mathlib.Order.Defs.PartialOrder

/-!
# Transition systems

A system is given by its initial states and by a step relation whose
steps carry an event. A state is *reachable* when a run – a finite
sequence of steps – leads to it from an initial state, and an assertion
is an *invariant* when it holds in every reachable state.

The rules here are the only inductions over runs that a development
built on this module has to make: an invariant is established by its
initial case and its step case (`Reachable.invariant`), the step case
being free to use that the state it leaves is itself reachable, and a
relation kept by every step is kept by every run (`Runs.lift`).

Some assertions hold only of the runs whose steps avoid a known defect.
`restrict` keeps the steps that meet a condition, and the runs of the
restricted system are exactly the runs *whose steps all meet the
condition*; everything above applies to it unchanged.
-/

universe u v

/-- **A transition system** over states `σ` with events `ε`. -/
structure TransitionSystem (σ : Type u) (ε : Type v) where
  /-- The initial states. -/
  init : σ → Prop
  /-- The steps: the state left, the event, the state entered. -/
  step : σ → ε → σ → Prop

namespace TransitionSystem

variable {σ : Type u} {ε : Type v} (T : TransitionSystem σ ε)

/-- One step, whatever its event. -/
def Next (s s' : σ) : Prop := ∃ e, T.step s e s'

/-- Finitely many steps. -/
def Runs : σ → σ → Prop := Relation.ReflTransGen T.Next

/-- **The reachable states.** -/
def Reachable (s : σ) : Prop := ∃ s₀, T.init s₀ ∧ T.Runs s₀ s

/-- **The runs whose steps all meet a condition** on the state they
leave and on their event. -/
def restrict (G : σ → ε → Prop) : TransitionSystem σ ε where
  init := T.init
  step s e s' := G s e ∧ T.step s e s'

variable {T}

theorem Reachable.of_init {s : σ} (h : T.init s) : T.Reachable s :=
  ⟨s, h, Relation.ReflTransGen.refl⟩

theorem Reachable.next {s s' : σ} {e : ε} (hs : T.Reachable s) (h : T.step s e s') :
    T.Reachable s' := by
  obtain ⟨s₀, h₀, hrun⟩ := hs
  exact ⟨s₀, h₀, hrun.tail ⟨e, h⟩⟩

/-- **The invariant rule.** -/
theorem Reachable.invariant {I : σ → Prop} (hinit : ∀ s, T.init s → I s)
    (hstep : ∀ s e s', T.Reachable s → I s → T.step s e s' → I s')
    {s : σ} (hs : T.Reachable s) : I s := by
  obtain ⟨s₀, h₀, hrun⟩ := hs
  induction hrun with
  | refl => exact hinit s₀ h₀
  | tail hpre hlast ih =>
    obtain ⟨e, he⟩ := hlast
    exact hstep _ e _ ⟨s₀, h₀, hpre⟩ ih he

/-- **A relation kept by every step is kept by every run** that leaves a
reachable state. -/
theorem Runs.lift {R : σ → σ → Prop} (hrefl : ∀ s, R s s)
    (htrans : ∀ {a b c}, R a b → R b c → R a c)
    (hstep : ∀ s e s', T.Reachable s → T.step s e s' → R s s')
    {s s' : σ} (hs : T.Reachable s) (hrun : T.Runs s s') : R s s' := by
  obtain ⟨s₀, h₀, hpre⟩ := hs
  induction hrun with
  | refl => exact hrefl s
  | tail hmid hlast ih =>
    obtain ⟨e, he⟩ := hlast
    exact htrans ih (hstep _ e _ ⟨s₀, h₀, hpre.trans hmid⟩ he)

theorem Reachable.runs {s s' : σ} (hs : T.Reachable s) (hrun : T.Runs s s') : T.Reachable s' := by
  obtain ⟨s₀, h₀, hpre⟩ := hs
  exact ⟨s₀, h₀, hpre.trans hrun⟩

/-- **What holds at the end of a run and not at its start** began to hold with a step of
the run. -/
theorem Runs.begins {P : σ → Prop} {s s' : σ} (hrun : T.Runs s s') (hs : ¬ P s) (hs' : P s') :
    ∃ u e v, T.Runs s u ∧ ¬ P u ∧ T.step u e v ∧ P v ∧ T.Runs v s' := by
  induction hrun with
  | refl => exact absurd hs' hs
  | @tail u v hpre hlast ih =>
    by_cases hu : P u
    · obtain ⟨u', e, v', hpre', hu', hstep, hv', hpost⟩ := ih hu
      exact ⟨u', e, v', hpre', hu', hstep, hv', hpost.tail hlast⟩
    · obtain ⟨e, he⟩ := hlast
      exact ⟨u, e, v, hpre, hu, he, hs', Relation.ReflTransGen.refl⟩

theorem Reachable.of_restrict {G : σ → ε → Prop} {s : σ}
    (hs : (T.restrict G).Reachable s) : T.Reachable s := by
  refine Reachable.invariant (T := T.restrict G) (I := T.Reachable)
    (fun _ h => Reachable.of_init h) (fun _ e _ _ ih h => ?_) hs
  exact ih.next (e := e) h.2

/-! ## Systems with an executable step

When the step is a function that answers `none` where the event is not
enabled, a list of events can be replayed, and a replay that succeeds
from an initial state exhibits a reachable state. -/

/-- **The system of a step function.** -/
def ofFunction (init : σ → Prop) (step : σ → ε → Option σ) : TransitionSystem σ ε where
  init := init
  step s e s' := step s e = some s'

/-- A step guarded by a condition is enabled only under the condition. -/
theorem of_guarded {c : Prop} [Decidable c] {s s' : σ}
    (h : (if c then some s else none) = some s') : c ∧ s = s' := by
  obtain ⟨hc, hs⟩ := Option.ite_none_right_eq_some.mp h
  exact ⟨hc, Option.some.inj hs⟩

/-- Replay a list of events. -/
def replay (step : σ → ε → Option σ) : σ → List ε → Option σ
  | s, [] => some s
  | s, e :: es => (step s e).bind fun s' => replay step s' es

/-- **A successful replay is a run.** -/
theorem Reachable.replay {init : σ → Prop} {step : σ → ε → Option σ} {s s' : σ} (es : List ε)
    (hs : (ofFunction init step).Reachable s) (h : replay step s es = some s') :
    (ofFunction init step).Reachable s' := by
  induction es generalizing s with
  | nil =>
    obtain rfl : s = s' := by simpa [TransitionSystem.replay] using h
    exact hs
  | cons e es ih =>
    obtain ⟨s₁, hstep, hrest⟩ := Option.bind_eq_some_iff.mp h
    exact ih (hs.next (e := e) hstep) hrest

/-- A successful replay of events that meet the condition in every state is a
run of the restricted system. -/
theorem Reachable.replay_restrict {init : σ → Prop} {step : σ → ε → Option σ} {G : σ → ε → Prop}
    {s s' : σ} (es : List ε) (hs : ((ofFunction init step).restrict G).Reachable s)
    (hG : ∀ e ∈ es, ∀ s, G s e) (h : TransitionSystem.replay step s es = some s') :
    ((ofFunction init step).restrict G).Reachable s' := by
  induction es generalizing s with
  | nil =>
    obtain rfl : s = s' := by simpa [TransitionSystem.replay] using h
    exact hs
  | cons e es ih =>
    obtain ⟨s₁, hstep, hrest⟩ := Option.bind_eq_some_iff.mp h
    have hnext := hs.next (e := e) ⟨hG e List.mem_cons_self s, hstep⟩
    exact ih hnext (fun e he => hG e (List.mem_cons_of_mem _ he)) hrest

/-- **A condition along a replay**: every step of it meets the condition. -/
def Along (step : σ → ε → Option σ) (Q : σ → ε → σ → Prop) : σ → List ε → Prop
  | _, [] => True
  | s, e :: es => ∀ s', step s e = some s' → Q s e s' ∧ Along step Q s' es

/-- The last step of a replay meets the condition. -/
theorem Along.last {step : σ → ε → Option σ} {Q : σ → ε → σ → Prop} {s u v : σ} {es : List ε}
    {e : ε} (h : Along step Q s (es ++ [e])) (hpre : replay step s es = some u)
    (hlast : step u e = some v) : Q u e v := by
  induction es generalizing s with
  | nil =>
    obtain rfl : s = u := by simpa [replay] using hpre
    exact (h v hlast).1
  | cons e' es ih =>
    obtain ⟨s', hstep, hrest⟩ := Option.bind_eq_some_iff.mp hpre
    exact ih (h s' hstep).2 hrest

/-- **Conditions that agree under an invariant agree along every replay**, if one of them keeps
the invariant. -/
theorem along_congr {step : σ → ε → Option σ} {I : σ → Prop} {Q R : σ → ε → σ → Prop}
    (hQR : ∀ s e s', I s → step s e = some s' → (Q s e s' ↔ R s e s'))
    (hkeep : ∀ s e s', I s → step s e = some s' → Q s e s' → I s') {s : σ} (hs : I s)
    (es : List ε) : Along step Q s es ↔ Along step R s es := by
  induction es generalizing s with
  | nil => exact Iff.rfl
  | cons e es ih =>
    refine forall_congr' fun s' => forall_congr' fun hstep => ?_
    rw [hQR s e s' hs hstep]
    refine and_congr_right fun hR => ih (hkeep s e s' hs hstep ?_)
    exact (hQR s e s' hs hstep).mpr hR

end TransitionSystem
