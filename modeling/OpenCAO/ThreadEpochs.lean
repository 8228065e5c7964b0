import OpenCAO.ThreadRoutes

/-!
# The epochs of a thread

A thread that is active has one epoch that is current, and this is the one its specification
points at; a thread that is not has none, and nothing that it has left behind has authority.
The invariant has a part for every thread and a part for every epoch, and each operation on a
thread replaces the parts of this one and leaves those of the others alone, because threads
share neither specification nor epochs.

That a runtime which was left does not come back is a matter of the launches
(`Launches.Onward`): whoever retires an epoch has stopped its runtime, or has found it over.
-/

namespace WorkerThreads

variable {σ : Launches.Settings}

/-- The tables that the epochs are about. -/
structure Core where
  launches : Launches.Store
  specs : UniqueRows Spec Spec.Clash
  threads : UniqueRows Thread Thread.Clash
  epochs : UniqueRows Epoch Epoch.Clash

def Store.core (s : Store) : Core := ⟨s.launches, s.specs, s.threads, s.epochs⟩

/-! ## Rows in order -/

/-- The route of an epoch is one of a managed Worker. -/
structure Routed (l : Launches.Store) (p : Epoch) : Prop where
  runtime : ∃ r ∈ l.runtimes.rows, r.id = p.runtimeSessionId
  enrollment : ∃ e ∈ l.enrollments.rows, e.id = p.enrollmentId ∧
    e.runtime = p.runtimeSessionId ∧ e.managed = true

/-- **The route of an epoch is over.** -/
structure Spent (l : Launches.Store) (p : Epoch) : Prop where
  runtime : ∃ r ∈ l.runtimes.rows, r.id = p.runtimeSessionId ∧ r.state.Over
  enrollment : ∃ e ∈ l.enrollments.rows, e.id = p.enrollmentId ∧
    e.runtime = p.runtimeSessionId ∧ e.managed = true ∧ e.state.Terminal

theorem Routed.onward {a b : Launches.Store} {p : Epoch} (h : Routed a p)
    (hab : Launches.Onward a b) : Routed b p := by
  obtain ⟨⟨r, hr, hrid⟩, e, he, heid, hruntime, hmanaged⟩ := h
  obtain ⟨r', hr', hrid', -⟩ := hab.runtimes r hr
  obtain ⟨e', he', heid', hruntime', hmanaged', -⟩ := hab.enrollments e he
  exact ⟨⟨r', hr', hrid'.trans hrid⟩, e', he', heid'.trans heid, hruntime'.trans hruntime,
    hmanaged'.trans hmanaged⟩

theorem Spent.onward {a b : Launches.Store} {p : Epoch} (h : Spent a p)
    (hab : Launches.Onward a b) : Spent b p := by
  obtain ⟨⟨r, hr, hrid, hrover⟩, e, he, heid, hruntime, hmanaged, heover⟩ := h
  obtain ⟨r', hr', hrid', hrover'⟩ := hab.runtimes r hr
  obtain ⟨e', he', heid', hruntime', hmanaged', heover'⟩ := hab.enrollments e he
  exact ⟨⟨r', hr', hrid'.trans hrid, hrover' ⟨e, he, hruntime.trans hrid.symm, hmanaged⟩ hrover⟩,
    e', he', heid'.trans heid, hruntime'.trans hruntime, hmanaged'.trans hmanaged, heover' heover⟩

/-- **A thread is in order.** -/
structure Thread.Sound (s : Core) (t : Thread) : Prop where
  specified : ∃ c ∈ s.specs.rows, c.id = t.managedSpecId
  active : t.state = .active → ∀ c ∈ s.specs.rows, c.id = t.managedSpecId →
    c.state = .enabled ∧ ∃ p ∈ s.epochs.rows, p.threadId = t.id ∧ p.retiredAt = none ∧
      p.generation = t.generation ∧ p.runtimeSessionId = c.runtimeSessionId ∧
      p.enrollmentId = c.enrollmentId
  idle : t.state ≠ .active → (∀ c ∈ s.specs.rows, c.id = t.managedSpecId → c.state ≠ .enabled) ∧
    ∀ p ∈ s.epochs.rows, p.threadId = t.id → p.retiredAt ≠ none

/-- The connections of a generation before this one are there. -/
def Epoch.Counted (epochs : List Epoch) (p : Epoch) : Prop :=
  1 ≤ p.connectionGeneration ∧ ∀ n, 1 ≤ n → n < p.connectionGeneration →
    ∃ q ∈ epochs, q.threadId = p.threadId ∧ q.generation = p.generation ∧
      q.connectionGeneration = n

/-- **An epoch is in order.** -/
structure Epoch.Sound (s : Core) (p : Epoch) : Prop where
  owned : ∃ t ∈ s.threads.rows, t.id = p.threadId
  routed : Routed s.launches p
  spent : p.retiredAt ≠ none → Spent s.launches p
  counted : p.Counted s.epochs.rows

/-- **The threads of a file are in order.** -/
structure Inv (s : Core) : Prop where
  launches : Launches.Inv s.launches
  threads : ∀ t ∈ s.threads.rows, t.Sound s
  epochs : ∀ p ∈ s.epochs.rows, p.Sound s

theorem Inv.empty : Inv Store.empty.core :=
  ⟨.empty, List.forall_mem_nil _, List.forall_mem_nil _⟩

theorem thread_eq {s : Core} {t u : Thread} (ht : t ∈ s.threads.rows) (hu : u ∈ s.threads.rows)
    (h : t.id = u.id ∨ t.managedSpecId = u.managedSpecId) : t = u :=
  s.threads.eq_of_clash (fun _ _ h => h.imp Eq.symm Eq.symm) ht hu h

theorem spec_clash_symm (a b : Spec) (h : a.Clash b) : b.Clash a := by
  rcases h with h | h | h | h | ⟨h, h', hkey⟩
  · exact .inl h.symm
  · exact .inr (.inl h.symm)
  · exact .inr (.inr (.inl h.symm))
  · exact .inr (.inr (.inr (.inl h.symm)))
  · exact .inr (.inr (.inr (.inr ⟨h.symm, h'.symm, hkey.imp Eq.symm Eq.symm⟩)))

theorem spec_eq {s : Core} {c d : Spec} (hc : c ∈ s.specs.rows) (hd : d ∈ s.specs.rows)
    (h : c.id = d.id) : c = d :=
  s.specs.eq_of_clash spec_clash_symm hc hd (.inl h)

theorem epoch_clash_symm (a b : Epoch) (h : a.Clash b) : b.Clash a := by
  rcases h with h | h | h | ⟨h, hcount | hcurrent⟩
  · exact .inl h.symm
  · exact .inr (.inl h.symm)
  · exact .inr (.inr (.inl h.symm))
  · exact .inr (.inr (.inr ⟨h.symm, .inl ⟨hcount.1.symm, hcount.2.symm⟩⟩))
  · exact .inr (.inr (.inr ⟨h.symm, .inr ⟨hcurrent.2, hcurrent.1⟩⟩))

/-- **Two epochs that are current are one**, of a thread. -/
theorem current_eq {s : Core} {p q : Epoch} (hp : p ∈ s.epochs.rows) (hq : q ∈ s.epochs.rows)
    (h : p.threadId = q.threadId) (hpc : p.retiredAt = none) (hqc : q.retiredAt = none) :
    p = q :=
  s.epochs.eq_of_clash epoch_clash_symm hp hq (.inr (.inr (.inr ⟨h, .inr ⟨hpc, hqc⟩⟩)))

/-! ## Moves -/

/-- An epoch of a thread stays as it is, or is retired. -/
def Epoch.Goes (threadId : String) (p p' : Epoch) : Prop :=
  p' = p ∨ p.threadId = threadId ∧ p.retiredAt = none ∧ ∃ now, p' = { p with retiredAt := some now }

/-- **A thread is changed**, with its specification and its epochs. -/
structure Changed (s s' : Core) (t t' : Thread) : Prop where
  mem : t ∈ s.threads.rows
  id : t'.id = t.id
  managedSpecId : t'.managedSpecId = t.managedSpecId
  passes : Launches.Passes s.launches s'.launches
  threads : s'.threads.rows = s.threads.rows.map fun u => if u.id = t.id then t' else u
  specs : ∃ g : Spec → Spec, s'.specs.rows = s.specs.rows.map g ∧
    (∀ c, (g c).id = c.id) ∧ ∀ c, c.id ≠ t.managedSpecId → g c = c
  epochs : ∃ (f : Epoch → Epoch) (new : List Epoch),
    s'.epochs.rows = s.epochs.rows.map f ++ new ∧ (∀ p : Epoch, p.Goes t.id (f p)) ∧
    (∀ p ∈ s.epochs.rows, p.retiredAt = none → (f p).retiredAt ≠ none → Spent s'.launches p) ∧
    ∀ p ∈ new, p.threadId = t.id ∧ p.retiredAt = none ∧ Routed s'.launches p ∧
      p.Counted s'.epochs.rows
  sound : t'.Sound s'

/-- The thread as it was changed to. -/
theorem Changed.entered {s s' : Core} {t t' : Thread} (h : Changed s s' t t') :
    t' ∈ s'.threads.rows := by
  rw [h.threads]
  exact List.mem_map.mpr ⟨t, h.mem, if_pos rfl⟩

/-- **What a call can do to the tables**; `R` says which threads may get a new number. -/
inductive Moves (R : Thread → Thread → Prop) : Core → Core → Prop
  | quiet {s s' : Core} (passes : Launches.Passes s.launches s'.launches)
      (hspecs : s'.specs = s.specs) (hthreads : s'.threads = s.threads)
      (hepochs : s'.epochs = s.epochs) : Moves R s s'
  /-- A thread begins. -/
  | created {s s' : Core} (c : Spec) (t : Thread) (p : Epoch)
      (passes : Launches.Passes s.launches s'.launches)
      (hspecs : s.specs.insert c = some s'.specs) (hthreads : s.threads.insert t = some s'.threads)
      (hepochs : s.epochs.insert p = some s'.epochs) (hstate : c.state = .enabled)
      (hspec : t.managedSpecId = c.id) (hthread : p.threadId = t.id)
      (hgeneration : p.generation = t.generation) (hfirst : p.connectionGeneration = 1)
      (hcurrent : p.retiredAt = none) (hruntime : p.runtimeSessionId = c.runtimeSessionId)
      (henrollment : p.enrollmentId = c.enrollmentId) (hactive : t.state = .active)
      (hrouted : Routed s'.launches p) : Moves R s s'
  | changed {s s' : Core} (t t' : Thread) (h : Changed s s' t t') (hnumber : t' = t ∨ R t t') :
      Moves R s s'
  /-- A thread goes, with its epochs. -/
  | deleted {s s' : Core} (t : Thread) (g : Spec → Spec) (ht : t ∈ s.threads.rows)
      (passes : Launches.Passes s.launches s'.launches)
      (hspecs : s'.specs.rows = s.specs.rows.map g) (hid : ∀ c, (g c).id = c.id)
      (hother : ∀ c, c.id ≠ t.managedSpecId → g c = c)
      (hthreads : ∀ u, u ∈ s'.threads.rows ↔ u ∈ s.threads.rows ∧ u.id ≠ t.id)
      (hepochs : ∀ p, p ∈ s'.epochs.rows ↔ p ∈ s.epochs.rows ∧ p.threadId ≠ t.id) : Moves R s s'

theorem Moves.passes {R : Thread → Thread → Prop} {s s' : Core} (h : Moves R s s') :
    Launches.Passes s.launches s'.launches := by
  cases h with
  | quiet passes => exact passes
  | created _ _ _ passes => exact passes
  | changed _ _ h => exact h.passes
  | deleted _ _ _ passes => exact passes

/-! ## The invariant -/

theorem Inv.quiet {s s' : Core} (hs : Inv s) (passes : Launches.Passes s.launches s'.launches)
    (hspecs : s'.specs = s.specs) (hthreads : s'.threads = s.threads)
    (hepochs : s'.epochs = s.epochs) : Inv s' := by
  refine ⟨passes.inv hs.launches, ?_, ?_⟩
  · rw [hthreads]
    intro t ht
    obtain ⟨hspecified, hactive, hidle⟩ := hs.threads t ht
    refine ⟨?_, ?_, ?_⟩
    · rwa [hspecs]
    · rwa [hspecs, hepochs]
    · rwa [hspecs, hepochs]
  · rw [hepochs]
    intro p hp
    obtain ⟨howned, hrouted, hspent, hcounted⟩ := hs.epochs p hp
    refine ⟨?_, hrouted.onward passes.onward, fun h => (hspent h).onward passes.onward, ?_⟩
    · rwa [hthreads]
    · rwa [hepochs]

/-- What was counted stays counted when no epoch is lost. -/
theorem Epoch.Counted.mono {l m : List Epoch} {p p' : Epoch} (h : p.Counted l)
    (hthread : p'.threadId = p.threadId) (hgeneration : p'.generation = p.generation)
    (hconnection : p'.connectionGeneration = p.connectionGeneration)
    (hlm : ∀ q ∈ l, ∃ q' ∈ m, q'.threadId = q.threadId ∧ q'.generation = q.generation ∧
      q'.connectionGeneration = q.connectionGeneration) : p'.Counted m := by
  refine ⟨hconnection ▸ h.1, fun n hn hlt => ?_⟩
  obtain ⟨q, hq, hqthread, hqgeneration, hqn⟩ := h.2 n hn (hconnection ▸ hlt)
  obtain ⟨q', hq', hthread', hgeneration', hconnection'⟩ := hlm q hq
  exact ⟨q', hq', hthread'.trans (hqthread.trans hthread.symm),
    hgeneration'.trans (hqgeneration.trans hgeneration.symm), hconnection'.trans hqn⟩

theorem Epoch.Goes.same {threadId : String} {p p' : Epoch} (h : p.Goes threadId p') :
    p'.threadId = p.threadId ∧ p'.generation = p.generation ∧
      p'.connectionGeneration = p.connectionGeneration ∧
      p'.runtimeSessionId = p.runtimeSessionId ∧ p'.enrollmentId = p.enrollmentId := by
  rcases h with rfl | ⟨-, -, now, rfl⟩ <;> exact ⟨rfl, rfl, rfl, rfl, rfl⟩

theorem Epoch.Goes.other {threadId : String} {p p' : Epoch} (h : p.Goes threadId p')
    (hother : p.threadId ≠ threadId) : p' = p := by
  rcases h with h | ⟨h, -⟩
  · exact h
  · exact absurd h hother

/-- **The other threads stay in order.** -/
theorem Changed.inv {s s' : Core} {t t' : Thread} (h : Changed s s' t t') (hs : Inv s) :
    Inv s' := by
  obtain ⟨g, hspecs, hgid, hgother⟩ := h.specs
  obtain ⟨f, new, hepochs, hgoes, hspent, hnew⟩ := h.epochs
  have hkept : ∀ p ∈ s.epochs.rows, f p ∈ s'.epochs.rows := fun p hp => by
    rw [hepochs]
    exact List.mem_append_left _ (List.mem_map_of_mem hp)
  have hthread : ∀ u ∈ s.threads.rows, (if u.id = t.id then t' else u) ∈ s'.threads.rows :=
    fun u hu => by
      rw [h.threads]
      exact List.mem_map_of_mem hu
  refine ⟨h.passes.inv hs.launches, fun u' hu' => ?_, fun p' hp' => ?_⟩
  · rw [h.threads] at hu'
    obtain ⟨u, hu, rfl⟩ := List.mem_map.mp hu'
    split
    case isTrue => exact h.sound
    case isFalse hid =>
      -- a thread with another specification and other epochs
      have hspec : u.managedSpecId ≠ t.managedSpecId := fun hspec =>
        hid (congrArg Thread.id (thread_eq hu h.mem (.inr hspec)))
      have hu := hs.threads u hu
      refine ⟨?_, fun hactive c' hc' hc => ?_, fun hidle => ⟨fun c' hc' hc => ?_, fun p' hp' hp => ?_⟩⟩
      · obtain ⟨c, hc, hcid⟩ := hu.specified
        refine ⟨g c, ?_, (hgid c).trans hcid⟩
        rw [hspecs]
        exact List.mem_map_of_mem hc
      · rw [hspecs] at hc'
        obtain ⟨c, hmem, rfl⟩ := List.mem_map.mp hc'
        rw [hgid c] at hc
        rw [hgother c fun h => hspec (hc.symm.trans h)]
        obtain ⟨henabled, p, hp, hpthread, hpcurrent, hprest⟩ := hu.active hactive c hmem hc
        have hsame := (hgoes p).other fun h => hid (hpthread.symm.trans h)
        exact ⟨henabled, p, hsame ▸ hkept p hp, hpthread, hpcurrent, hprest⟩
      · rw [hspecs] at hc'
        obtain ⟨c, hmem, rfl⟩ := List.mem_map.mp hc'
        rw [hgid c] at hc
        rw [hgother c fun h => hspec (hc.symm.trans h)]
        exact (hu.idle hidle).1 c hmem hc
      · rw [hepochs, List.mem_append] at hp'
        rcases hp' with hp' | hp'
        · obtain ⟨p, hmem, rfl⟩ := List.mem_map.mp hp'
          rw [(hgoes p).same.1] at hp
          rw [(hgoes p).other fun h => hid (hp.symm.trans h)]
          exact (hu.idle hidle).2 p hmem hp
        · exact absurd (hp.symm.trans (hnew p' hp').1) hid
  · have hlm : ∀ q ∈ s.epochs.rows, ∃ q' ∈ s'.epochs.rows, q'.threadId = q.threadId ∧
        q'.generation = q.generation ∧ q'.connectionGeneration = q.connectionGeneration :=
      fun q hq => ⟨f q, hkept q hq, (hgoes q).same.1, (hgoes q).same.2.1, (hgoes q).same.2.2.1⟩
    have howned : ∀ id : String, (∃ u ∈ s.threads.rows, u.id = id) →
        ∃ u ∈ s'.threads.rows, u.id = id := by
      rintro id ⟨u, hu, rfl⟩
      refine ⟨_, hthread u hu, ?_⟩
      split
      case isTrue hid => exact h.id.trans hid.symm
      case isFalse => rfl
    rw [hepochs, List.mem_append] at hp'
    rcases hp' with hp' | hp'
    · obtain ⟨p, hp, rfl⟩ := List.mem_map.mp hp'
      obtain ⟨hsthread, hsgeneration, hsconnection, hsruntime, hsenrollment⟩ := (hgoes p).same
      have hsound := hs.epochs p hp
      have hrouted := hsound.routed.onward h.passes.onward
      refine ⟨hsthread ▸ howned _ hsound.owned, ⟨hsruntime ▸ hrouted.runtime, ?_⟩, fun hretired => ?_,
        hsound.counted.mono hsthread hsgeneration hsconnection hlm⟩
      · rw [hsruntime, hsenrollment]
        exact hrouted.enrollment
      · have hover : Spent s'.launches p := by
          by_cases hcurrent : p.retiredAt = none
          · exact hspent p hp hcurrent hretired
          · exact (hsound.spent hcurrent).onward h.passes.onward
        refine ⟨hsruntime ▸ hover.runtime, ?_⟩
        rw [hsruntime, hsenrollment]
        exact hover.enrollment
    · obtain ⟨hnthread, hncurrent, hnrouted, hncounted⟩ := hnew p' hp'
      exact ⟨hnthread ▸ howned _ ⟨t, h.mem, rfl⟩, hnrouted, fun h => absurd hncurrent h, hncounted⟩

/-- **A thread that begins is in order**, and the others have neither its specification nor its
epoch. -/
theorem Inv.created {s s' : Core} (hs : Inv s) {c : Spec} {t : Thread} {p : Epoch}
    (passes : Launches.Passes s.launches s'.launches)
    (hspecs : s.specs.insert c = some s'.specs) (hthreads : s.threads.insert t = some s'.threads)
    (hepochs : s.epochs.insert p = some s'.epochs) (hstate : c.state = .enabled)
    (hspec : t.managedSpecId = c.id) (hthread : p.threadId = t.id)
    (hgeneration : p.generation = t.generation) (hfirst : p.connectionGeneration = 1)
    (hcurrent : p.retiredAt = none) (hruntime : p.runtimeSessionId = c.runtimeSessionId)
    (henrollment : p.enrollmentId = c.enrollmentId) (hactive : t.state = .active)
    (hrouted : Routed s'.launches p) : Inv s' := by
  have hc : c ∈ s'.specs.rows := UniqueRows.mem_insert hspecs
  have ht : t ∈ s'.threads.rows := UniqueRows.mem_insert hthreads
  have hp : p ∈ s'.epochs.rows := UniqueRows.mem_insert hepochs
  have hkeep : ∀ q ∈ s.epochs.rows, q ∈ s'.epochs.rows := fun q hq =>
    UniqueRows.mem_insert_of_mem hepochs hq
  refine ⟨passes.inv hs.launches, fun u hu => ?_, fun q hq => ?_⟩
  · rw [UniqueRows.rows_insert hthreads, List.mem_append, List.mem_singleton] at hu
    rcases hu with hu | rfl
    · have hsound := hs.threads u hu
      have hold : ∀ c' ∈ s'.specs.rows, c'.id = u.managedSpecId → c' ∈ s.specs.rows :=
        fun c' hc' hid => by
          rw [UniqueRows.rows_insert hspecs, List.mem_append, List.mem_singleton] at hc'
          rcases hc' with hc' | rfl
          · exact hc'
          · obtain ⟨d, hd, hdid⟩ := hsound.specified
            exact absurd (.inl (hdid.trans hid.symm)) (UniqueRows.not_clash_of_insert hspecs d hd)
      have hother : ∀ q ∈ s'.epochs.rows, q.threadId = u.id → q ∈ s.epochs.rows :=
        fun q hq hid => by
          rw [UniqueRows.rows_insert hepochs, List.mem_append, List.mem_singleton] at hq
          rcases hq with hq | rfl
          · exact hq
          · exact absurd (.inl (hid.symm.trans hthread))
              (UniqueRows.not_clash_of_insert hthreads u hu)
      refine ⟨?_, fun h c' hc' hid => ?_, fun h => ⟨fun c' hc' hid => ?_, fun q hq hid => ?_⟩⟩
      · obtain ⟨d, hd, hdid⟩ := hsound.specified
        exact ⟨d, UniqueRows.mem_insert_of_mem hspecs hd, hdid⟩
      · obtain ⟨henabled, q, hq, hrest⟩ := hsound.active h c' (hold c' hc' hid) hid
        exact ⟨henabled, q, hkeep q hq, hrest⟩
      · exact (hsound.idle h).1 c' (hold c' hc' hid) hid
      · exact (hsound.idle h).2 q (hother q hq hid) hid
    · refine ⟨⟨c, hc, hspec.symm⟩, fun _ c' hc' hid => ?_, fun h => absurd hactive h⟩
      obtain rfl := spec_eq hc' hc (hid.trans hspec)
      exact ⟨hstate, p, hp, hthread, hcurrent, hgeneration, hruntime, henrollment⟩
  · rw [UniqueRows.rows_insert hepochs, List.mem_append, List.mem_singleton] at hq
    rcases hq with hq | rfl
    · have hsound := hs.epochs q hq
      obtain ⟨u, hu, hid⟩ := hsound.owned
      exact ⟨⟨u, UniqueRows.mem_insert_of_mem hthreads hu, hid⟩,
        hsound.routed.onward passes.onward, fun h => (hsound.spent h).onward passes.onward,
        hsound.counted.mono rfl rfl rfl fun q' hq' => ⟨q', hkeep q' hq', rfl, rfl, rfl⟩⟩
    · refine ⟨⟨t, ht, hthread.symm⟩, hrouted, fun h => absurd hcurrent h, ?_⟩
      exact ⟨Nat.le_of_eq hfirst.symm, fun n hn hlt => absurd hlt (by omega)⟩

theorem Inv.deleted {s s' : Core} (hs : Inv s) {t : Thread} {g : Spec → Spec}
    (ht : t ∈ s.threads.rows) (passes : Launches.Passes s.launches s'.launches)
    (hspecs : s'.specs.rows = s.specs.rows.map g) (hid : ∀ c, (g c).id = c.id)
    (hother : ∀ c, c.id ≠ t.managedSpecId → g c = c)
    (hmem : ∀ u, u ∈ s'.threads.rows ↔ u ∈ s.threads.rows ∧ u.id ≠ t.id)
    (hepochs : ∀ p, p ∈ s'.epochs.rows ↔ p ∈ s.epochs.rows ∧ p.threadId ≠ t.id) : Inv s' := by
  refine ⟨passes.inv hs.launches, fun u hu => ?_, fun p hp => ?_⟩
  · obtain ⟨hu, hne⟩ := (hmem u).mp hu
    have hspec : u.managedSpecId ≠ t.managedSpecId := fun h =>
      hne (congrArg Thread.id (thread_eq hu ht (.inr h)))
    have hsound := hs.threads u hu
    have hold : ∀ c' ∈ s'.specs.rows, c'.id = u.managedSpecId → c' ∈ s.specs.rows :=
      fun c' hc' h => by
        rw [hspecs] at hc'
        obtain ⟨c, hc, rfl⟩ := List.mem_map.mp hc'
        rw [hid c] at h
        rw [hother c fun h' => hspec (h.symm.trans h')]
        exact hc
    refine ⟨?_, fun h c' hc' hcid => ?_, fun h => ⟨fun c' hc' hcid => ?_, fun p hp hpid => ?_⟩⟩
    · obtain ⟨c, hc, hcid⟩ := hsound.specified
      refine ⟨g c, ?_, (hid c).trans hcid⟩
      rw [hspecs]
      exact List.mem_map_of_mem hc
    · obtain ⟨henabled, p, hp, hthread, hrest⟩ := hsound.active h c' (hold c' hc' hcid) hcid
      exact ⟨henabled, p, (hepochs p).mpr ⟨hp, fun h => hne (hthread.symm.trans h)⟩, hthread, hrest⟩
    · exact (hsound.idle h).1 c' (hold c' hc' hcid) hcid
    · exact (hsound.idle h).2 p ((hepochs p).mp hp).1 hpid
  · obtain ⟨hp, hne⟩ := (hepochs p).mp hp
    have hsound := hs.epochs p hp
    obtain ⟨u, hu, huid⟩ := hsound.owned
    refine ⟨⟨u, (hmem u).mpr ⟨hu, fun h => hne (huid.symm.trans h)⟩, huid⟩,
      hsound.routed.onward passes.onward, fun h => (hsound.spent h).onward passes.onward,
      hsound.counted.1, fun n hn hlt => ?_⟩
    obtain ⟨q, hq, hthread, hrest⟩ := hsound.counted.2 n hn hlt
    exact ⟨q, (hepochs q).mpr ⟨hq, fun h => hne (hthread.symm.trans h)⟩, hthread, hrest⟩

/-- **Every move keeps the invariant.** -/
theorem Inv.moves {R : Thread → Thread → Prop} {s s' : Core} (hs : Inv s) (h : Moves R s s') :
    Inv s' := by
  cases h with
  | quiet passes hspecs hthreads hepochs => exact hs.quiet passes hspecs hthreads hepochs
  | created c t p passes hspecs hthreads hepochs hstate hspec hthread hgeneration hfirst hcurrent
      hruntime henrollment hactive hrouted =>
    exact hs.created passes hspecs hthreads hepochs hstate hspec hthread hgeneration hfirst
      hcurrent hruntime henrollment hactive hrouted
  | changed t t' h => exact h.inv hs
  | deleted t g ht passes hspecs hid hother hthreads hepochs =>
    exact hs.deleted ht passes hspecs hid hother hthreads hepochs

/-! ## What the statements leave -/

section Statements

variable {s : Store}

theorem launching_ensures {m : Tx Launches.Store Launches.Error PUnit}
    {Q : PUnit → Launches.Store → Prop} (h : Tx.Ensures s.launches m Q) :
    Tx.Ensures s (launching m) fun _ t => ∃ l, Q ⟨⟩ l ∧ t = { s with launches := l } := by
  unfold launching
  refine .get ?_
  cases hm : m s.launches with
  | ok r => exact ⟨r.2, h.run hm, rfl⟩
  | error e => exact Tx.ensures_throw _

theorem insertSpec_ensures (c : Spec) : Tx.Ensures s (insertSpec c) fun _ t =>
    ∃ specs, s.specs.insert c = some specs ∧ t = { s with specs := specs } := by
  unfold insertSpec
  exact .get (.need fun specs h => ⟨specs, h, rfl⟩)

theorem insertThread_ensures (u : Thread) : Tx.Ensures s (insertThread u) fun _ t =>
    ∃ threads, s.threads.insert u = some threads ∧ t = { s with threads := threads } := by
  unfold insertThread
  exact .get (.need fun threads h => ⟨threads, h, rfl⟩)

theorem insertEpoch_ensures (p : Epoch) : Tx.Ensures s (insertEpoch p) fun _ t =>
    ∃ epochs, s.epochs.insert p = some epochs ∧ t = { s with epochs := epochs } := by
  unfold insertEpoch
  exact .get (.need fun epochs h => ⟨epochs, h, rfl⟩)

theorem updateSpecs_ensures (f : Spec → Spec) : Tx.Ensures s (updateSpecs f) fun _ t =>
    ∃ specs, specs.rows = s.specs.rows.map f ∧ t = { s with specs := specs } := by
  unfold updateSpecs
  exact .get (.need fun specs h => ⟨specs, UniqueRows.rows_update h, rfl⟩)

theorem updateThreads_ensures (f : Thread → Thread) : Tx.Ensures s (updateThreads f) fun _ t =>
    ∃ threads, threads.rows = s.threads.rows.map f ∧ t = { s with threads := threads } := by
  unfold updateThreads
  exact .get (.need fun threads h => ⟨threads, UniqueRows.rows_update h, rfl⟩)

theorem updateEpochs_ensures (f : Epoch → Epoch) : Tx.Ensures s (updateEpochs f) fun _ t =>
    ∃ epochs, epochs.rows = s.epochs.rows.map f ∧ t = { s with epochs := epochs } := by
  unfold updateEpochs
  exact .get (.need fun epochs h => ⟨epochs, UniqueRows.rows_update h, rfl⟩)

/-- What a look at the recorded results answers. -/
def Recorded (s : Store) (actorId : String) (operation : Operation) (request : Request)
    (answer : Option Answer) : Prop :=
  answer = (s.result? actorId operation request.idempotencyKey).map ResultRow.result ∧
    ∀ r ∈ s.result? actorId operation request.idempotencyKey, r.request = request

theorem recorded_reads (actorId : String) (operation : Operation) (request : Request) :
    Tx.Reads (Recorded s actorId operation request) s (recorded actorId operation request) := by
  unfold recorded
  refine Tx.Ensures.get ?_
  cases hr : s.result? actorId operation request.idempotencyKey with
  | none =>
    refine ⟨rfl, ?_, ?_⟩
    · rw [hr]
      rfl
    · rw [hr]
      exact fun r h => nomatch h
  | some r =>
    refine .require fun hsame => ⟨rfl, ?_, ?_⟩
    · rw [hr]
      rfl
    · rw [hr]
      exact fun r' h => Option.some.inj h ▸ hsame

theorem record_ensures (actorId : String) (operation : Operation) (request : Request)
    (answer : Answer) : Tx.Ensures s (record actorId operation request answer) fun _ t =>
      t.core = s.core ∧ t.ledger = s.ledger := by
  unfold record
  refine .get ?_
  cases s.result? actorId operation request.idempotencyKey with
  | none => exact .need fun results _ => ⟨rfl, rfl⟩
  | some r =>
    show Tx.Ensures s (Tx.require _ _) _
    unfold Tx.Ensures
    rw [Tx.wp_require]
    exact ⟨fun _ => ⟨rfl, rfl⟩, fun _ => trivial⟩

/-- What a command has read of its thread. -/
structure ThreadRow.Of (row : ThreadRow) (s : Store) (threadId : String) : Prop where
  thread : row.thread ∈ s.core.threads.rows
  id : row.thread.id = threadId
  spec : row.spec ∈ s.core.specs.rows
  managedSpecId : row.spec.id = row.thread.managedSpecId
  epoch : ∀ p ∈ row.epoch, p ∈ s.core.epochs.rows ∧ p.threadId = row.thread.id ∧
    p.generation = row.thread.generation ∧ p.retiredAt = none

theorem of_epoch? {t : Thread} {p : Epoch} (h : s.epoch? t = some p) :
    p ∈ s.core.epochs.rows ∧ p.threadId = t.id ∧ p.generation = t.generation ∧
      p.retiredAt = none := by
  obtain ⟨hp, hprops⟩ := UniqueRows.of_find? h
  exact ⟨hp, of_decide_eq_true hprops⟩

theorem of_threadRow? {c : Caller} {threadId : String} {active : Bool} {row : ThreadRow}
    (h : s.threadRow? c threadId active = some row) : row.Of s threadId := by
  unfold Store.threadRow? at h
  obtain ⟨t, ht, h⟩ := Option.bind_eq_some_iff.mp h
  obtain ⟨spec, hspec, h⟩ := Option.bind_eq_some_iff.mp h
  obtain ⟨principal, -, h⟩ := Option.bind_eq_some_iff.mp h
  obtain ⟨source, -, h⟩ := Option.bind_eq_some_iff.mp h
  obtain ⟨_, -, h⟩ := Option.bind_eq_some_iff.mp h
  obtain rfl := Option.some.inj h
  obtain ⟨ht, htid⟩ := UniqueRows.of_find? ht
  obtain ⟨hspec, hsid⟩ := UniqueRows.of_find? hspec
  exact ⟨ht, of_decide_eq_true htid, hspec, of_decide_eq_true hsid, fun p hp => of_epoch? hp⟩

theorem of_managedWorkerThreadForDelete? {c : Caller} {threadId : String} {row : ThreadRow}
    (h : s.managedWorkerThreadForDelete? c threadId = some row) : row.Of s threadId := by
  unfold Store.managedWorkerThreadForDelete? at h
  obtain ⟨row', hrow, h⟩ := Option.bind_eq_some_iff.mp h
  obtain ⟨r, -, h⟩ := Option.bind_eq_some_iff.mp h
  obtain ⟨e, -, h⟩ := Option.bind_eq_some_iff.mp h
  obtain rfl := Option.some.inj (Option.ite_none_right_eq_some.mp h).2
  exact of_threadRow? hrow

end Statements

/-! ## The next connection of a thread -/

/-- **The next connection**: the epoch that was current is retired, its route is spent, and the
specification points at the next one. -/
theorem Changed.connected {s s' : Core} (hs : Inv s) {t : Thread} {specId : String} {p : Epoch}
    {n : Route} {now : ℕ} (ht : t ∈ s.threads.rows) (hactive : t.state = .active)
    (hspec : specId = t.managedSpecId) (hp : p ∈ s.epochs.rows) (hthread : p.threadId = t.id)
    (hgeneration : p.generation = t.generation) (hcurrent : p.retiredAt = none)
    (passes : Launches.Passes s.launches s'.launches) (hspent : Spent s'.launches p)
    (hrouted : Routed s'.launches (p.next n)) (hthreads : s'.threads = s.threads)
    (hpointed : ∃ c ∈ s.specs.rows, p.PointedBy specId c)
    (hspecs : s'.specs.rows = s.specs.rows.map fun c =>
      if p.PointedBy specId c then
        { c with runtimeSessionId := n.runtimeId, enrollmentId := n.enrollmentId } else c)
    (hepochs : s'.epochs.rows = s.epochs.rows.map (fun q =>
      if p.IsCurrent q then { q with retiredAt := some now } else q) ++ [p.next n]) :
    Changed s s' t t := by
  have hnext : p.next n ∈ s'.epochs.rows := by
    rw [hepochs]
    exact List.mem_append_right _ (List.mem_singleton_self _)
  have hgoes : ∀ q : Epoch, q.Goes t.id
      (if p.IsCurrent q then { q with retiredAt := some now } else q) := fun q => by
    split
    case isTrue h => exact .inr ⟨h.2.1.trans hthread, h.2.2.2.2, now, rfl⟩
    case isFalse => exact .inl rfl
  have hkept : ∀ q ∈ s.epochs.rows, ∃ q' ∈ s'.epochs.rows, q'.threadId = q.threadId ∧
      q'.generation = q.generation ∧ q'.connectionGeneration = q.connectionGeneration :=
    fun q hq => by
      obtain ⟨h, h', h'', -⟩ := (hgoes q).same
      refine ⟨_, ?_, h, h', h''⟩
      rw [hepochs]
      exact List.mem_append_left _ (List.mem_map_of_mem hq)
  refine ⟨ht, rfl, rfl, passes, ?_, ⟨_, hspecs, fun c => ?_, fun c hne => ?_⟩,
    ⟨_, [p.next n], hepochs, hgoes, fun q hq hqcurrent hqretired => ?_, ?_⟩, ?_⟩
  · rw [hthreads]
    refine ((List.map_congr_left fun u hu => ?_).trans (List.map_id _)).symm
    split
    case isTrue hid => exact thread_eq ht hu (.inl hid.symm)
    case isFalse => rfl
  · split <;> rfl
  · exact if_neg fun h => hne (h.1.trans hspec)
  · split at hqretired
    case isTrue h =>
      rw [current_eq hq hp h.2.1 hqcurrent hcurrent]
      exact hspent
    case isFalse => exact absurd hqcurrent hqretired
  · refine List.forall_mem_singleton.mpr ⟨hthread, rfl, hrouted, Nat.le_add_left 1 _, ?_⟩
    intro m hm hlt
    rcases Nat.lt_succ_iff_lt_or_eq.mp hlt with hlt | rfl
    · obtain ⟨q, hq, hqthread, hqgeneration, hqm⟩ := (hs.epochs p hp).counted.2 m hm hlt
      obtain ⟨q', hq', h, h', h''⟩ := hkept q hq
      exact ⟨q', hq', h.trans hqthread, h'.trans hqgeneration, h''.trans hqm⟩
    · exact hkept p hp
  · refine ⟨?_, fun _ c' hc' hid => ?_, fun h => absurd hactive h⟩
    · obtain ⟨c, hc, hid⟩ := (hs.threads t ht).specified
      refine ⟨_, hspecs ▸ List.mem_map_of_mem hc, ?_⟩
      split <;> exact hid
    · -- the specification of the thread is the one that was pointed on
      obtain ⟨c, hc, hpc⟩ := hpointed
      have hnow := List.mem_map_of_mem (f := fun c => if p.PointedBy specId c then
        { c with runtimeSessionId := n.runtimeId, enrollmentId := n.enrollmentId } else c) hc
      rw [← hspecs] at hnow
      rw [if_pos hpc] at hnow
      obtain rfl := spec_eq hc' hnow (hid.trans (hspec.symm.trans hpc.1.symm))
      exact ⟨hpc.2.1, p.next n, hnext, hthread, rfl, hgeneration, rfl, rfl⟩

section Operations

variable {s : Store} {R : Thread → Thread → Prop}

theorem retireEpoch_ensures (p : Epoch) (now : ℕ) (reason : Reason) :
    Tx.Ensures s (retireEpoch p now reason) fun _ t => ∃ epochs : UniqueRows Epoch Epoch.Clash,
      epochs.rows = s.epochs.rows.map (fun q =>
        if p.IsCurrent q then { q with retiredAt := some now } else q) ∧
      t = { s with epochs := epochs } := by
  unfold retireEpoch
  exact .get (.require fun _ => updateEpochs_ensures _)

theorem repointSpec_ensures (specId : String) (p : Epoch) (n : Route) (reason : Reason) :
    Tx.Ensures s (repointSpec specId p n reason) fun _ t =>
      (∃ c ∈ s.specs.rows, p.PointedBy specId c) ∧ ∃ specs : UniqueRows Spec Spec.Clash,
        specs.rows = s.specs.rows.map (fun c =>
          if p.PointedBy specId c then
            { c with runtimeSessionId := n.runtimeId, enrollmentId := n.enrollmentId } else c) ∧
        t = { s with specs := specs } := by
  unfold repointSpec
  exact .get (.require fun h => (updateSpecs_ensures _).mono fun _ _ hspecs => ⟨h, hspecs⟩)

/-- A new route is one of a managed Worker. -/
theorem enrollRoute_ensures (n : Route) (principalId : String) (now : ℕ) :
    Tx.Ensures s (enrollRoute σ n principalId now) fun _ t => ∃ l,
      Launches.Passes s.launches l ∧
      (∀ p : Epoch, p.runtimeSessionId = n.runtimeId → p.enrollmentId = n.enrollmentId →
        Routed l p) ∧
      (∀ e ∈ s.launches.enrollments.rows, e.principal = principalId → e.state.Terminal) ∧
      t = { s with launches := l } := by
  unfold enrollRoute
  refine (launching_ensures (Launches.enroll_ensures _)).mono fun _ t ht => ?_
  obtain ⟨l, ⟨passes, ⟨r, hr, hrid⟩, e, he, heid, hruntime, hmanaged, hothers⟩, rfl⟩ := ht
  refine ⟨l, passes, fun p hpr hpe => ⟨⟨r, hr, hrid.trans hpr.symm⟩, e, he, heid.trans hpe.symm,
    hruntime.trans hpr.symm, hmanaged⟩, hothers, rfl⟩

/-- The route of an epoch that is revoked is spent. -/
theorem spent_of_revoked {a b : Launches.Store} {p : Epoch} {enrollmentIds runtimeIds : List String}
    (h : Routed a p) (henrollment : p.enrollmentId ∈ enrollmentIds)
    (hruntime : p.runtimeSessionId ∈ runtimeIds)
    (hruntimes : ∀ r ∈ a.runtimes.rows, r.id ∈ runtimeIds →
      ∃ r' ∈ b.runtimes.rows, r'.id = r.id ∧ r'.state.Over)
    (henrollments : ∀ e ∈ a.enrollments.rows, e.id ∈ enrollmentIds →
      ∃ e' ∈ b.enrollments.rows, e.Remains e' ∧ e'.state.Terminal) : Spent b p := by
  obtain ⟨⟨r, hr, hrid⟩, e, he, heid, heruntime, hmanaged⟩ := h
  obtain ⟨r', hr', hrid', hrover⟩ := hruntimes r hr (hrid ▸ hruntime)
  obtain ⟨e', he', hremains, heover⟩ := henrollments e he (heid ▸ henrollment)
  exact ⟨⟨r', hr', hrid'.trans hrid, hrover⟩, e', he', hremains.id.trans heid,
    hremains.runtime.trans heruntime, hremains.managed.trans hmanaged, heover⟩

theorem advance_moves (hs : Inv s.core) {c : Command} {row : ThreadRow} {threadId : String}
    (hrow : row.Of s threadId) (hactive : row.thread.state = .active) :
    Tx.Ensures s (advanceWorkerThreadConnection σ c row) fun _ t => Moves R s.core t.core := by
  unfold advanceWorkerThreadConnection
  refine .need fun p hp => (retireEpoch_ensures _ _ _).bind fun _ s₁ h₁ => ?_
  obtain ⟨epochs, hepochs, rfl⟩ := h₁
  obtain ⟨hpmem, hpthread, hpgeneration, hpcurrent⟩ :=
    hrow.epoch p (Option.filter_eq_some_iff.mp hp).1
  refine (launching_ensures (Launches.revokeRoutes_ensures _ _)).bind fun _ s₂ h₂ => ?_
  obtain ⟨l, ⟨hrevoked, hruntimes, henrollments⟩, rfl⟩ := h₂
  refine (enrollRoute_ensures _ _ _).bind fun _ s₃ h₃ => ?_
  obtain ⟨l', henrolled, hrouted, -, rfl⟩ := h₃
  refine (insertEpoch_ensures _).bind fun _ s₄ h₄ => ?_
  obtain ⟨epochs', hnext, rfl⟩ := h₄
  refine (repointSpec_ensures _ _ _ _).bind fun _ s₅ h₅ => ?_
  obtain ⟨hpointed, specs, hspecs, rfl⟩ := h₅
  refine .get ?_
  have hspent : Spent l p := spent_of_revoked (hs.epochs p hpmem).routed
    (List.mem_singleton_self _) (List.mem_singleton_self _) hruntimes henrollments
  have hrows := UniqueRows.rows_insert hnext
  rw [hepochs] at hrows
  have hchanged : Moves R s.core
      (Store.core { s with launches := l', specs := specs, epochs := epochs' }) :=
    .changed row.thread row.thread (.connected hs hrow.thread hactive hrow.managedSpecId hpmem
      hpthread hpgeneration hpcurrent (hrevoked.trans henrolled) (hspent.onward henrolled.onward)
      (hrouted (p.next c.route) rfl rfl) rfl hpointed hspecs hrows) (.inl rfl)
  unfold Tx.Ensures
  rw [Tx.wp_need]
  exact ⟨fun _ _ => hchanged, fun _ => trivial⟩

theorem Moves.refl (s : Core) : Moves R s s := .quiet (.refl _) rfl rfl rfl

theorem admit_moves (hs : Inv s.core) (c : Command) :
    Tx.Ensures s (admitManagedWorkerCommand σ c) fun _ t => Moves R s.core t.core := by
  unfold admitManagedWorkerCommand
  refine .get (.need fun row hrow => .require fun h => .require fun _ => .require fun _ => ?_)
  cases c.lane with
  | executing => exact .refl _
  | unsettled => exact Tx.ensures_throw _
  | bound => exact .refl _
  | unbound => exact advance_moves hs (of_threadRow? hrow) h.2.1

theorem assign_ensures (f : Assignment) :
    Tx.Ensures s (assign f) fun _ t => t.core = s.core := by
  unfold assign
  exact .get (.need fun ledger _ => rfl)

theorem command_moves (hs : Inv s.core) (c : Command) (f : Assignment) :
    Tx.Ensures s (commandWorkerThread σ c f) fun _ t => Moves R s.core t.core := by
  unfold commandWorkerThread
  refine (admit_moves (R := R) hs c).bind fun _ s₁ h₁ => (assign_ensures f).mono fun _ s₂ h₂ => ?_
  rw [h₂]
  exact h₁

theorem recover_moves (hs : Inv s.core) (c : RecoveryCall) :
    Tx.Ensures s (runtimeRecoveryRetryTarget σ c) fun _ t => Moves R s.core t.core := by
  unfold runtimeRecoveryRetryTarget
  refine .get (.need fun spec hspec => .need fun t ht => .need fun p hp => .need fun r hr => ?_)
  refine .need fun e he => .require fun hlane => .require fun _ => .require fun _ => ?_
  obtain ⟨hspec, hsprops⟩ := UniqueRows.of_find? hspec
  obtain ⟨hspecruntime, hprincipal, -⟩ := of_decide_eq_true hsprops
  obtain ⟨ht, htprops⟩ := UniqueRows.of_find? ht
  obtain ⟨hmanaged, hactive, -⟩ := of_decide_eq_true htprops
  obtain ⟨hp, hpprops⟩ := Option.filter_eq_some_iff.mp hp
  obtain ⟨hpruntime, hpenrollment⟩ := of_decide_eq_true hpprops
  obtain ⟨hpmem, hpthread, hpgeneration, hpcurrent⟩ := of_epoch? hp
  obtain ⟨hr, -⟩ := Option.filter_eq_some_iff.mp hr
  obtain ⟨hrmem, hrid⟩ := UniqueRows.of_find? hr
  have hrid : r.id = c.runtimeSessionId := of_decide_eq_true hrid
  obtain ⟨he, heprincipal⟩ := Option.filter_eq_some_iff.mp he
  have heprincipal : e.principal = c.workerId := of_decide_eq_true heprincipal
  obtain ⟨hemem, heruntime⟩ := Launches.of_enrollmentOf? he
  -- the enrollment of the runtime is the one of the epoch
  have heid : e.id = p.enrollmentId ∧ e.managed = true := by
    obtain ⟨e', he', heid', heruntime', hmanaged⟩ := (hs.epochs p hpmem).routed.enrollment
    have hsame : e' = e := s.launches.enrollments.eq_of_clash Launches.enrollment_clash_symm he'
      hemem (.inr (.inl (by rw [heruntime', hpruntime, hspecruntime, heruntime])))
    exact hsame ▸ ⟨heid', hmanaged⟩
  have hpr : p.runtimeSessionId = c.runtimeSessionId := hpruntime.trans hspecruntime
  -- what the completed turn leaves, or what was found
  have hspend : Tx.Ensures s (Tx.when (c.completedTurn = true)
      (launching (Launches.spendRoute p.enrollmentId p.runtimeSessionId))) fun _ s₁ =>
        ∃ l, Launches.Passes s.launches l ∧
          (∃ r' ∈ l.runtimes.rows, r'.id = p.runtimeSessionId ∧ r'.state.Over) ∧
          (∃ e' ∈ l.enrollments.rows, e.Remains e' ∧ e'.principal = c.workerId) ∧
          s₁ = { s with launches := l } := by
    unfold Tx.Ensures
    rw [Tx.wp_when]
    refine ⟨fun _ => ?_, fun hnot => ?_⟩
    · refine Tx.Ensures.mono (launching_ensures (Launches.spendRoute_ensures fun u hu howner =>
        hlane.2.2.2 u hu (howner.trans heid.1.symm))) fun _ s₁ h₁ => ?_
      obtain ⟨l, ⟨passes, hruntimes, henrollments⟩, rfl⟩ := h₁
      obtain ⟨r', hr', hrid', hover⟩ := hruntimes r hrmem (hrid.trans hpr.symm)
      obtain ⟨e', he', hremains, heprincipal'⟩ := henrollments e hemem
      exact ⟨l, passes, ⟨r', hr', hrid'.trans (hrid.trans hpr.symm), hover⟩,
        ⟨e', he', hremains, heprincipal'.trans heprincipal⟩, rfl⟩
    · have hover : r.state.Over := hlane.1.resolve_right fun h => hnot h.1
      exact ⟨s.launches, .refl _, ⟨r, hrmem, hrid.trans hpr.symm, hover⟩,
        ⟨e, hemem, .refl e, heprincipal⟩, rfl⟩
  refine hspend.bind fun _ s₁ h₁ => ?_
  obtain ⟨l, hpasses, hrover, ⟨e', he', hremains, heprincipal'⟩, rfl⟩ := h₁
  refine (retireEpoch_ensures _ _ _).bind fun _ s₂ h₂ => ?_
  obtain ⟨epochs, hepochs, rfl⟩ := h₂
  refine (enrollRoute_ensures _ _ _).bind fun _ s₃ h₃ => ?_
  obtain ⟨l', henrolled, hrouted, hothers, rfl⟩ := h₃
  refine (repointSpec_ensures _ _ _ _).bind fun _ s₄ h₄ => ?_
  obtain ⟨hpointed, specs, hspecs, rfl⟩ := h₄
  refine (insertEpoch_ensures _).mono fun _ s₅ h₅ => ?_
  obtain ⟨epochs', hnext, rfl⟩ := h₅
  have hspent : Spent l p := ⟨hrover, e', he', hremains.id.trans heid.1,
    hremains.runtime.trans (heruntime.trans hpr.symm), hremains.managed.trans heid.2,
    hothers e' he' heprincipal'⟩
  have hrows := UniqueRows.rows_insert hnext
  rw [hepochs] at hrows
  exact .changed t t (.connected hs ht hactive hmanaged.symm hpmem hpthread hpgeneration hpcurrent
    (hpasses.trans henrolled) (hspent.onward henrolled.onward) (hrouted (p.next c.route) rfl rfl)
    rfl hpointed hspecs hrows) (.inl rfl)

theorem insertPrincipal_ensures (p : Principal) : Tx.Ensures s (insertPrincipal p) fun _ t =>
    ∃ ledger, t = { s with ledger := ledger } := by
  unfold insertPrincipal
  exact .get (.need fun principals _ => ⟨_, rfl⟩)

theorem create_moves (c : CreateCall) :
    Tx.Ensures s (createManagedWorkerThread σ c) fun _ t => Moves R s.core t.core := by
  unfold createManagedWorkerThread
  refine .require fun _ => .get (.require fun _ => ?_)
  split
  · exact .require fun _ => .need fun t _ => .refl _
  · refine (insertPrincipal_ensures _).bind fun _ s₁ h₁ => ?_
    obtain ⟨ledger, rfl⟩ := h₁
    refine (enrollRoute_ensures _ _ _).bind fun _ s₂ h₂ => ?_
    obtain ⟨l, passes, hrouted, -, rfl⟩ := h₂
    refine (insertSpec_ensures _).bind fun _ s₃ h₃ => ?_
    obtain ⟨specs, hspecs, rfl⟩ := h₃
    refine (insertThread_ensures _).bind fun _ s₄ h₄ => ?_
    obtain ⟨threads, hthreads, rfl⟩ := h₄
    refine (insertEpoch_ensures _).bind fun _ s₅ h₅ => ?_
    obtain ⟨epochs, hepochs, rfl⟩ := h₅
    exact .created _ _ _ passes hspecs hthreads hepochs rfl rfl rfl rfl rfl rfl rfl rfl rfl
      (hrouted _ rfl rfl)

theorem requireCaller_reads (c : Caller) :
    Tx.Reads (fun _ => c.attached = true ∧ c.current = true) s (requireCaller c) := by
  unfold requireCaller Tx.Reads
  rw [Tx.wp_bind, Tx.wp_require]
  refine ⟨fun hattached => ?_, fun _ => trivial⟩
  rw [Tx.wp_require]
  exact ⟨fun hcurrent => ⟨rfl, hattached, hcurrent⟩, fun _ => trivial⟩

theorem new_moves (c : CreateCall) :
    Tx.Ensures s (newWorkerThread σ c) fun _ t => Moves R s.core t.core := by
  unfold newWorkerThread
  refine (requireCaller_reads _).bind fun _ _ => (recorded_reads _ _ _).bind fun answer _ => ?_
  cases answer with
  | some answer => exact .refl _
  | none =>
    refine (create_moves (R := R) c).bind fun answer s₁ h₁ => (record_ensures _ _ _ _).bind
      fun _ s₂ h₂ => ?_
    show Moves R s.core s₂.core
    rw [h₂.1]
    exact h₁

/-! ## Ends of threads -/

theorem Epoch.retire_retire (threadId : String) (now : ℕ) (p : Epoch) :
    (p.retire threadId now).retire threadId now = p.retire threadId now := by
  unfold Epoch.retire
  split
  · exact if_neg fun h => absurd h.2 (Option.some_ne_none now)
  · rfl

theorem Epoch.retire_goes (threadId : String) (now : ℕ) (p : Epoch) :
    p.Goes threadId (p.retire threadId now) := by
  unfold Epoch.retire
  split
  case isTrue h => exact .inr ⟨h.1, h.2, now, rfl⟩
  case isFalse => exact .inl rfl

/-- An epoch of the thread is retired. -/
theorem Epoch.retire_retired {threadId : String} {now : ℕ} {p : Epoch}
    (h : p.threadId = threadId) : (p.retire threadId now).retiredAt ≠ none := by
  unfold Epoch.retire
  split
  case isTrue => exact Option.some_ne_none now
  case isFalse hnot => exact fun hcurrent => hnot ⟨h, hcurrent⟩

theorem revokeWorkerThreadEpochs_ensures (threadId : String) :
    Tx.Ensures s (revokeWorkerThreadEpochs threadId) fun _ t => ∃ l,
      Launches.Passes s.launches l ∧
      (∀ p ∈ s.epochs.rows, p.threadId = threadId → Routed s.launches p → Spent l p) ∧
      t = { s with launches := l } := by
  unfold revokeWorkerThreadEpochs
  refine .get ((launching_ensures (Launches.revokeRoutes_ensures _ _)).mono fun _ t ht => ?_)
  obtain ⟨l, ⟨passes, hruntimes, henrollments⟩, rfl⟩ := ht
  refine ⟨l, passes, fun p hp hthread hrouted => ?_, rfl⟩
  have hof : p ∈ s.epochsOf threadId := List.mem_filter.mpr ⟨hp, decide_eq_true hthread⟩
  exact spent_of_revoked hrouted (List.mem_map_of_mem hof)
    (List.mem_map_of_mem hof) hruntimes henrollments

theorem retireManagedWorkerThread_ensures {t : Thread} (ht : t ∈ s.core.threads.rows)
    (hactive : t.state = .active) {final : WorkerThreadState} (hfinal : final ≠ .active) (now : ℕ) :
    Tx.Ensures s (retireManagedWorkerThread t.managedSpecId final now) fun _ s' =>
      ∃ (epochs : UniqueRows Epoch Epoch.Clash) (threads : UniqueRows Thread Thread.Clash),
        epochs.rows = s.epochs.rows.map (Epoch.retire t.id now) ∧
        threads.rows = s.threads.rows.map (t.enter .active final) ∧
        s' = { s with epochs := epochs, threads := threads } := by
  unfold retireManagedWorkerThread
  refine .get ?_
  have hfind : (s.threads.find? fun u => u.managedSpecId = t.managedSpecId) = some t :=
    s.threads.find?_of_mem (fun _ _ h => h.imp Eq.symm Eq.symm) (fun a b ha hb =>
      .inr ((of_decide_eq_true ha).trans (of_decide_eq_true hb).symm)) ht (decide_eq_true rfl)
  rw [hfind]
  show Tx.Ensures s (Tx.when _ _) _
  unfold Tx.Ensures
  rw [Tx.wp_when]
  refine ⟨fun _ => ?_, fun hnot => absurd (fun h => hfinal (h.symm.trans hactive)) hnot⟩
  refine Tx.Ensures.require fun _ => (updateEpochs_ensures _).bind fun _ s₁ h₁ => ?_
  obtain ⟨epochs, hepochs, rfl⟩ := h₁
  refine (updateThreads_ensures _).mono fun _ s₂ h₂ => ?_
  obtain ⟨threads, hthreads, rfl⟩ := h₂
  exact ⟨epochs, threads, hepochs, hthreads, rfl⟩

/-- **A thread is terminalized**: its Work is settled, its routes are spent, and it enters its
last state when it was active. -/
structure Terminalized (row : ThreadRow) (final : WorkerThreadState) (now : ℕ) (s t : Store) :
    Prop where
  settled : Settled row.spec.principalId s.ledger t.ledger
  passes : Launches.Passes s.launches t.launches
  spent : ∀ p ∈ s.epochs.rows, p.threadId = row.thread.id → Spent t.launches p
  epochs : t.epochs.rows = s.epochs.rows.map (Epoch.retire row.thread.id now)
  specs : t.specs.rows = s.specs.rows.map fun spec =>
    if row.thread.state = .active ∧ spec.id = row.spec.id then { spec with state := .stopped }
    else spec
  threads : t.threads.rows = s.threads.rows.map fun u =>
    if row.thread.state = .active ∧ u.id = row.thread.id then
      { row.thread with state := final, generation := row.thread.generation + 1 }
    else u
  results : t.results = s.results

theorem terminalize_ensures (hs : Inv s.core) {c : LifecycleCall} {row : ThreadRow}
    {threadId : String} (hrow : row.Of s threadId) {final : WorkerThreadState}
    (hfinal : final ≠ .active) (blocked : Reason) (reasonCode : String) :
    Tx.Ensures s (terminalizeWorkerThread c row final blocked reasonCode) fun _ t =>
      Terminalized row final c.now s t := by
  unfold terminalizeWorkerThread
  refine .require fun _ => .get (.require fun _ => ?_)
  have hsettle : Tx.Ensures s (Tx.within Store.ledger (fun l s => { s with ledger := l })
      (settleWorkerWork
        { actorId := c.caller.id
          principalId := row.spec.principalId
          projectScopeDigest := row.source.projectScopeDigest
          runtimeIds := (s.epochsOf row.thread.id).map Epoch.runtimeSessionId
          opened := c.opened
          blocked := blocked
          reasonCode := reasonCode
          now := c.now })) fun _ t =>
      ∃ l, Settled row.spec.principalId s.ledger l ∧ t = { s with ledger := l } :=
    Tx.wp_within ((settleWorkerWork_ensures _ _).mono fun _ l h => ⟨l, h, rfl⟩)
  refine hsettle.bind fun _ s₁ h₁ => ?_
  obtain ⟨ledger, hsettled, rfl⟩ := h₁
  refine (revokeWorkerThreadEpochs_ensures row.thread.id).bind fun _ s₂ h₂ => ?_
  obtain ⟨l, passes, hrevoked, rfl⟩ := h₂
  have hspent : ∀ p ∈ s.epochs.rows, p.threadId = row.thread.id → Spent l p := fun p hp hthread =>
    hrevoked p hp hthread (hs.epochs p hp).routed
  refine (updateEpochs_ensures _).bind fun _ s₃ h₃ => ?_
  obtain ⟨epochs, hepochs, rfl⟩ := h₃
  unfold Tx.Ensures
  rw [Tx.wp_when]
  refine ⟨fun hactive => ?_, fun hnot => ?_⟩
  · refine (updateSpecs_ensures _).bind fun _ s₄ h₄ => ?_
    obtain ⟨specs, hspecs, rfl⟩ := h₄
    rw [hrow.managedSpecId]
    refine (retireManagedWorkerThread_ensures
      (s := { s with launches := l, ledger := ledger, specs := specs, epochs := epochs })
      hrow.thread hactive hfinal c.now).mono fun _ s₅ h₅ => ?_
    obtain ⟨epochs', threads, hepochs', hthreads, rfl⟩ := h₅
    refine ⟨hsettled, passes, hspent, ?_, ?_, ?_, rfl⟩
    · show epochs'.rows = _
      rw [hepochs', hepochs, List.map_map]
      exact List.map_congr_left fun p _ => p.retire_retire row.thread.id c.now
    · show specs.rows = _
      rw [hspecs]
      refine List.map_congr_left fun spec _ => ?_
      simp only [hactive, true_and]
    · show threads.rows = _
      rw [hthreads]
      refine List.map_congr_left fun u hu => ?_
      unfold Thread.enter
      by_cases hid : u.id = row.thread.id
      · obtain rfl := thread_eq (s := s.core) hu hrow.thread (.inl hid)
        rw [if_pos ⟨hid, hactive, rfl⟩, if_pos ⟨hactive, hid⟩]
      · rw [if_neg fun h => hid h.1, if_neg fun h => hid h.2]
  · refine ⟨hsettled, passes, hspent, hepochs, ?_, ?_, rfl⟩
    · refine ((List.map_congr_left fun spec _ => ?_).trans (List.map_id _)).symm
      exact if_neg fun h => hnot h.1
    · refine ((List.map_congr_left fun u _ => ?_).trans (List.map_id _)).symm
      exact if_neg fun h => hnot h.1

/-- **A finished thread is in order**: it is archived in its next generation. -/
theorem Terminalized.changed (hs : Inv s.core) {row : ThreadRow} {threadId : String}
    (hrow : row.Of s threadId) (hactive : row.thread.state = .active)
    {final : WorkerThreadState} (hfinal : final ≠ .active) {now : ℕ} {t : Store}
    (h : Terminalized row final now s t) :
    Changed s.core t.core row.thread
      { row.thread with state := final, generation := row.thread.generation + 1 } := by
  refine ⟨hrow.thread, rfl, rfl, h.passes, ?_, ⟨_, h.specs, fun c => ?_, fun c hne => ?_⟩,
    ⟨_, [], h.epochs.trans (List.append_nil _).symm, Epoch.retire_goes row.thread.id now,
      fun p hp hcurrent hretired => ?_, List.forall_mem_nil _⟩, ?_⟩
  · refine h.threads.trans (List.map_congr_left fun u _ => ?_)
    simp only [hactive, true_and]
  · split <;> rfl
  · exact if_neg fun h => hne (h.2.trans hrow.managedSpecId)
  · refine h.spent p hp (Decidable.byContradiction fun hne => hretired ?_)
    rwa [(p.retire_goes row.thread.id now).other hne]
  · refine ⟨?_, fun h => absurd h hfinal, fun _ => ⟨fun c hc hid => ?_, fun p hp hthread => ?_⟩⟩
    · obtain ⟨c, hc, hid⟩ := (hs.threads _ hrow.thread).specified
      refine ⟨_, h.specs ▸ List.mem_map_of_mem hc, ?_⟩
      split <;> exact hid
    · rw [show t.core.specs.rows = _ from h.specs] at hc
      obtain ⟨c, -, rfl⟩ := List.mem_map.mp hc
      have hcid : c.id = row.spec.id := by
        rw [hrow.managedSpecId]
        split at hid <;> exact hid
      rw [if_pos ⟨hactive, hcid⟩]
      exact SpecState.noConfusion
    · rw [show t.core.epochs.rows = _ from h.epochs] at hp
      obtain ⟨p, -, rfl⟩ := List.mem_map.mp hp
      rw [(p.retire_goes row.thread.id now).same.1] at hthread
      exact Epoch.retire_retired hthread

/-- A command that was recorded is answered as before, and changes nothing. -/
def Replayed (s : Store) (actorId : String) (operation : Operation) (request : Request)
    (answer : Answer) (t : Store) : Prop :=
  (∃ r, s.result? actorId operation request.idempotencyKey = some r ∧ r.request = request ∧
    answer = r.result) ∧ t = s

theorem Recorded.replayed {actorId : String} {operation : Operation} {request : Request}
    {answer : Answer} (h : Recorded s actorId operation request (some answer)) :
    Replayed s actorId operation request answer s := by
  obtain ⟨hanswer, hsame⟩ := h
  obtain ⟨r, hr, hresult⟩ := Option.map_eq_some_iff.mp hanswer.symm
  exact ⟨⟨r, hr, hsame r hr, hresult.symm⟩, rfl⟩

theorem Recorded.fresh {actorId : String} {operation : Operation} {request : Request}
    (h : Recorded s actorId operation request none) :
    s.result? actorId operation request.idempotencyKey = none :=
  Option.map_eq_none_iff.mp h.1.symm

/-- The command is for the generation of its thread. -/
structure ThreadRow.Expected (row : ThreadRow) (s : Store) (request : Request) : Prop where
  read : row.Of s request.workerThreadId
  generation : ∀ generation ∈ request.expectedGeneration, row.thread.generation = generation

/-- **What a finish does.** -/
theorem finish_ensures (hs : Inv s.core) (c : LifecycleCall)
    (hR : ∀ t : Thread, t.id = c.request.workerThreadId → t.state = .active →
      R t { t with state := .archived, generation := t.generation + 1 }) :
    Tx.Ensures s (finishWorkerThread c) fun answer t =>
      Replayed s c.caller.id .finishWorkerThread c.request answer t ∨
      s.result? c.caller.id .finishWorkerThread c.request.idempotencyKey = none ∧
      ∃ row : ThreadRow, row.Expected s c.request ∧ row.thread.state = .active ∧
        { row.thread with state := .archived, generation := row.thread.generation + 1 } ∈
          t.core.threads.rows ∧
        Settled row.spec.principalId s.ledger t.ledger ∧ Moves R s.core t.core := by
  unfold finishWorkerThread
  refine (requireCaller_reads _).bind fun _ _ => .get (.need fun row hrow => ?_)
  have hrow := of_managedWorkerThreadForDelete? hrow
  refine (recorded_reads _ _ _).bind fun answer hanswer => ?_
  cases answer with
  | some answer => exact .inl hanswer.replayed
  | none =>
    refine .require fun hgeneration => .require fun hactive => ?_
    refine (terminalize_ensures hs hrow (by decide) _ _).bind fun _ s₁ h₁ => ?_
    have hchanged := h₁.changed hs hrow hactive (by decide)
    refine (record_ensures _ _ _ _).bind fun _ s₂ h₂ => .inr ⟨hanswer.fresh, row, ⟨hrow, hgeneration⟩,
      hactive, ?_, ?_, ?_⟩
    · rw [h₂.1]
      exact hchanged.entered
    · rw [h₂.2]
      exact h₁.settled
    · rw [h₂.1]
      exact .changed _ _ hchanged (.inr (hR _ hrow.id hactive))

/-- **A resumed thread is in order**: its specification is enabled and points at the epoch that
begins the next generation. -/
theorem Changed.resumed {s s' : Core} {t : Thread} {spec : Spec} {n : Route}
    (ht : t ∈ s.threads.rows) (hstate : t.state = .archived) (hspec : spec ∈ s.specs.rows)
    (hid : spec.id = t.managedSpecId) (hstopped : spec.state = .stopped)
    (passes : Launches.Passes s.launches s'.launches) {p : Epoch} (hthread : p.threadId = t.id)
    (hgeneration : p.generation = t.generation + 1) (hfirst : p.connectionGeneration = 1)
    (hcurrent : p.retiredAt = none) (hruntime : p.runtimeSessionId = n.runtimeId)
    (henrollment : p.enrollmentId = n.enrollmentId) (hrouted : Routed s'.launches p)
    (hthreads : s'.threads.rows = s.threads.rows.map (t.enter .archived .active))
    (hspecs : s'.specs.rows = s.specs.rows.map fun c =>
      if c.id = spec.id ∧ c.state = .stopped then
        { c with
          runtimeSessionId := n.runtimeId
          enrollmentId := n.enrollmentId
          state := .enabled }
      else c)
    (hepochs : s'.epochs.rows = s.epochs.rows ++ [p]) :
    Changed s s' t { t with state := .active, generation := t.generation + 1 } := by
  refine ⟨ht, rfl, rfl, passes, ?_, ⟨_, hspecs, fun c => ?_, fun c hne => ?_⟩,
    ⟨fun q => q, [p], ?_, fun _ => .inl rfl, fun q _ hq hretired => absurd hq hretired, ?_⟩, ?_⟩
  · rw [hthreads]
    refine List.map_congr_left fun u hu => ?_
    unfold Thread.enter
    by_cases huid : u.id = t.id
    · obtain rfl := thread_eq hu ht (.inl huid)
      rw [if_pos ⟨huid, hstate, rfl⟩, if_pos huid]
    · rw [if_neg fun h => huid h.1, if_neg huid]
  · split <;> rfl
  · exact if_neg fun h => hne (h.1.trans hid)
  · rw [List.map_id']
    exact hepochs
  · refine List.forall_mem_singleton.mpr ⟨hthread, hcurrent, hrouted, Nat.le_of_eq hfirst.symm, ?_⟩
    intro m hm hlt
    exact absurd hlt (by omega)
  · refine ⟨?_, fun _ c' hc' hcid => ?_, fun h => absurd rfl h⟩
    · refine ⟨_, hspecs ▸ List.mem_map_of_mem hspec, ?_⟩
      split <;> exact hid
    · have hnow := List.mem_map_of_mem (f := fun c : Spec =>
        if c.id = spec.id ∧ c.state = .stopped then
          { c with
            runtimeSessionId := n.runtimeId
            enrollmentId := n.enrollmentId
            state := .enabled }
        else c) hspec
      rw [← hspecs] at hnow
      rw [if_pos ⟨rfl, hstopped⟩] at hnow
      obtain rfl := spec_eq hc' hnow (hcid.trans hid.symm)
      refine ⟨rfl, p, ?_, hthread, hcurrent, hgeneration, hruntime, henrollment⟩
      rw [hepochs]
      exact List.mem_append_right _ (List.mem_singleton_self p)

/-- **What a resumption does.** -/
theorem resume_ensures (c : LifecycleCall)
    (hR : ∀ t : Thread, t.id = c.request.workerThreadId → t.state = .archived →
      R t { t with state := .active, generation := t.generation + 1 }) :
    Tx.Ensures s (resumeWorkerThread σ c) fun answer t =>
      Replayed s c.caller.id .resumeWorkerThread c.request answer t ∨
      s.result? c.caller.id .resumeWorkerThread c.request.idempotencyKey = none ∧
      ∃ row : ThreadRow, row.Expected s c.request ∧ row.thread.state = .archived ∧
        { row.thread with state := .active, generation := row.thread.generation + 1 } ∈
          t.core.threads.rows ∧ Moves R s.core t.core := by
  unfold resumeWorkerThread
  refine (requireCaller_reads _).bind fun _ _ => .get (.need fun row hrow => ?_)
  have hrow := of_threadRow? hrow
  refine (recorded_reads _ _ _).bind fun answer hanswer => ?_
  cases answer with
  | some answer => exact .inl hanswer.replayed
  | none =>
    refine .require fun hgeneration => .require fun hstate => .require fun _ => .require fun _ => ?_
    refine (revokeWorkerThreadEpochs_ensures _).bind fun _ s₁ h₁ => ?_
    obtain ⟨l, hrevoked, -, rfl⟩ := h₁
    refine (enrollRoute_ensures _ _ _).bind fun _ s₂ h₂ => ?_
    obtain ⟨l', henrolled, hrouted, -, rfl⟩ := h₂
    refine (insertEpoch_ensures _).bind fun _ s₃ h₃ => ?_
    obtain ⟨epochs, hepochs, rfl⟩ := h₃
    refine (updateSpecs_ensures _).bind fun _ s₄ h₄ => ?_
    obtain ⟨specs, hspecs, rfl⟩ := h₄
    refine (updateThreads_ensures _).bind fun _ s₅ h₅ => ?_
    obtain ⟨threads, hthreads, rfl⟩ := h₅
    refine (record_ensures _ _ _ _).bind fun _ s₆ h₆ => .inr ⟨hanswer.fresh, row, ⟨hrow, hgeneration⟩,
      hstate.1, ?_⟩
    rw [h₆.1]
    have hchanged : Changed s.core ⟨l', specs, threads, epochs⟩ row.thread
        { row.thread with state := .active, generation := row.thread.generation + 1 } :=
      .resumed hrow.thread hstate.1 hrow.spec hrow.managedSpecId hstate.2
        (hrevoked.trans henrolled) rfl rfl rfl rfl rfl rfl (hrouted _ rfl rfl) hthreads hspecs
        (UniqueRows.rows_insert hepochs)
    exact ⟨hchanged.entered, .changed _ _ hchanged (.inr (hR _ hrow.id hstate.1))⟩

/-- **A deletion takes the thread with its epochs**, whatever it has been. -/
theorem deleteLedger_moves {row : ThreadRow} {threadId : String} (hrow : row.Of s threadId)
    {c : LifecycleCall} {final : WorkerThreadState} {now : ℕ} {t : Store}
    (h : Terminalized row final now s t) :
    Tx.Ensures t (deleteWorkerThreadLedger c row) fun _ u => Moves R s.core u.core := by
  unfold deleteWorkerThreadLedger
  refine .get (.require fun _ => (revokeWorkerThreadEpochs_ensures _).bind fun _ s₁ h₁ => ?_)
  obtain ⟨l, hrevoked, -, rfl⟩ := h₁
  refine (updateSpecs_ensures _).bind fun _ s₂ h₂ => ?_
  obtain ⟨specs, hspecs, rfl⟩ := h₂
  refine .modify ((record_ensures _ _ _ _).bind fun _ s₃ h₃ => .get (.require fun _ => ?_))
  have hcore : s₃.core = ⟨l, specs, t.threads, t.epochs⟩ := h₃.1
  refine .deleted row.thread (fun spec =>
    if spec.id = row.spec.id then { spec with state := .revoked } else spec) hrow.thread ?_ ?_ ?_
    ?_ ?_ ?_
  · show Launches.Passes s.launches s₃.core.launches
    rw [hcore]
    exact h.passes.trans hrevoked
  · show s₃.core.specs.rows = _
    rw [hcore, hspecs, show t.specs.rows = _ from h.specs, List.map_map]
    refine List.map_congr_left fun spec _ => ?_
    -- whether it was stopped before does not matter
    by_cases hstopped : row.thread.state = .active ∧ spec.id = row.spec.id
    · simp only [Function.comp_apply, if_pos hstopped, if_pos hstopped.2]
    · simp only [Function.comp_apply, if_neg hstopped]
  · intro spec
    split <;> rfl
  · exact fun spec hne => if_neg fun h => hne (h.trans hrow.managedSpecId)
  · intro u
    have hthreads : s₃.threads = t.threads := congrArg Core.threads hcore
    show u ∈ (s₃.threads.delete _).rows ↔ _
    rw [hthreads]
    show u ∈ t.threads.rows.filter _ ↔ _
    rw [List.mem_filter, h.threads, List.mem_map, Bool.not_eq_true', decide_eq_false_iff_not]
    constructor
    · rintro ⟨⟨v, hv, rfl⟩, hne⟩
      split at hne
      case isTrue => exact absurd rfl hne
      case isFalse hnot =>
        rw [if_neg hnot]
        exact ⟨hv, hne⟩
    · exact fun ⟨hu, hne⟩ => ⟨⟨u, hu, if_neg fun h => hne h.2⟩, hne⟩
  · intro p
    have hepochs : s₃.epochs = t.epochs := congrArg Core.epochs hcore
    show p ∈ (s₃.epochs.delete _).rows ↔ _
    rw [hepochs]
    show p ∈ t.epochs.rows.filter _ ↔ _
    rw [List.mem_filter, h.epochs, List.mem_map, Bool.not_eq_true', decide_eq_false_iff_not]
    constructor
    · rintro ⟨⟨q, hq, rfl⟩, hne⟩
      rw [(q.retire_goes row.thread.id now).same.1] at hne
      rw [(q.retire_goes row.thread.id now).other hne]
      exact ⟨hq, hne⟩
    · exact fun ⟨hp, hne⟩ => ⟨⟨p, hp, (p.retire_goes row.thread.id now).other hne⟩, hne⟩

/-- **What a deletion does.** -/
theorem delete_ensures (hs : Inv s.core) (c : LifecycleCall) :
    Tx.Ensures s (deleteWorkerThread c) fun answer t =>
      Replayed s c.caller.id .deleteWorkerThread c.request answer t ∨
      s.result? c.caller.id .deleteWorkerThread c.request.idempotencyKey = none ∧
      ∃ row : ThreadRow, row.Expected s c.request ∧ Moves R s.core t.core := by
  unfold deleteWorkerThread
  refine (requireCaller_reads _).bind fun _ _ => .get ?_
  split
  · refine .need fun r hr => .require fun hsame => .inl ⟨⟨r, hr, hsame, rfl⟩, rfl⟩
  · refine .need fun row hrow => ?_
    have hrow := of_managedWorkerThreadForDelete? hrow
    refine (recorded_reads _ _ _).bind fun answer hanswer => ?_
    cases answer with
    | some answer => exact .inl hanswer.replayed
    | none =>
      refine .require fun hgeneration => ?_
      refine (terminalize_ensures hs hrow (by decide) _ _).bind fun _ s₁ h₁ => ?_
      exact (deleteLedger_moves hrow h₁).mono fun _ _ h =>
        .inr ⟨hanswer.fresh, row, ⟨hrow, hgeneration⟩, h⟩

/-- **What an instruction does to threads.** -/
theorem instruct_ensures (hs : Inv s.core) (c : InstructCall) :
    Tx.Ensures s (instructWorkerThread σ c) fun answer t =>
      Replayed s c.command.caller.id .instructWorkerThread c.request answer t ∨
      s.result? c.command.caller.id .instructWorkerThread c.request.idempotencyKey = none ∧
      ∃ row : ThreadRow, row.Expected s c.request ∧ Moves R s.core t.core := by
  unfold instructWorkerThread
  refine (requireCaller_reads _).bind fun _ _ => .get (.need fun row hrow => ?_)
  have hrow := of_threadRow? hrow
  refine (recorded_reads _ _ _).bind fun answer hanswer => ?_
  cases answer with
  | some answer => exact .inl hanswer.replayed
  | none =>
    refine .require fun hgeneration => .require fun _ => ?_
    refine (admit_moves (R := R) hs _).bind fun _ s₁ h₁ => (assign_ensures _).bind fun _ s₂ h₂ => ?_
    refine (record_ensures _ _ _ _).bind fun _ s₃ h₃ => .inr ⟨hanswer.fresh, row,
      ⟨hrow, hgeneration⟩, ?_⟩
    rw [h₃.1, h₂]
    exact h₁

/-- What a dispatcher writes leaves the runtimes of managed Workers over. -/
theorem dispatch_passes (l : Launches.Store) (w : RuntimeWrite) :
    Tx.Ensures l (dispatch w) fun _ l' => Launches.Passes l l' := by
  cases w with
  | reserved id =>
    exact Launches.updateRuntimes_passes fun r => Launches.remains_of_alive rfl fun h => h.2
  | returned id =>
    refine Launches.updateRuntimes_passes fun r => Launches.remains_of_alive rfl fun h => ?_
    rw [h.2]
    decide
  | reported id state =>
    refine Tx.Ensures.get (.require fun hnone => ?_)
    refine (Launches.updateRuntimes_ensures _).mono fun _ l' hl' => ?_
    obtain ⟨runtimes, hrows, rfl⟩ := hl'
    refine Launches.passes_runtimes ⟨fun r hr => ⟨Launches.Runtime.setState id state r, ?_, ?_, ?_⟩,
      (Launches.Onward.refl l).enrollments⟩
    · show _ ∈ runtimes.rows
      rw [hrows]
      exact List.mem_map_of_mem hr
    · unfold Launches.Runtime.setState
      split <;> rfl
    · rintro ⟨e, he, hruntime, hmanaged⟩ hover
      unfold Launches.Runtime.setState
      split
      case isTrue hid =>
        -- the enrollment of the runtime would have been found
        have hfound : l.enrollmentOf? id = some e :=
          l.enrollments.find?_of_mem Launches.enrollment_clash_symm (fun a b ha hb =>
            .inr (.inl ((of_decide_eq_true ha).trans (of_decide_eq_true hb).symm))) he
            (decide_eq_true (hruntime.trans hid))
        rw [hnone e hfound] at hmanaged
        exact Bool.noConfusion hmanaged
      case isFalse => exact hover

end Operations

/-! ## Runs -/

section Runs

variable {s : Store}

/-- The steps that give a thread its next generation. -/
def Renumbers : Event → Thread → Thread → Prop
  | .finish c, t, t' => c.request.workerThreadId = t.id ∧ t.state = .active ∧
      t' = { t with state := .archived, generation := t.generation + 1 }
  | .resume c, t, t' => c.request.workerThreadId = t.id ∧ t.state = .archived ∧
      t' = { t with state := .active, generation := t.generation + 1 }
  | _, _, _ => False

/-- **A step is a move.** -/
theorem step_moves (hs : Inv s.core) (e : Event) :
    Moves (Renumbers e) s.core (step σ s e).core := by
  have hcommit : ∀ {α : Type} {m : Tx Store Error α},
      Tx.Ensures s m (fun _ t => Moves (Renumbers e) s.core t.core) →
      Moves (Renumbers e) s.core (Tx.commit m s).core := fun h =>
    Tx.commit_of_wp (I := fun t : Store => Moves (Renumbers e) s.core t.core) (.refl _) h
  have hlaunch : ∀ {m : Tx Launches.Store Launches.Error PUnit},
      Tx.Ensures s.launches m (fun _ l => Launches.Passes s.launches l) →
      Moves (Renumbers e) s.core (Tx.commit (launching m) s).core := fun h =>
    hcommit ((launching_ensures h).mono fun _ t ⟨l, passes, ht⟩ => ht ▸ .quiet passes rfl rfl rfl)
  cases e with
  | launch e => exact .quiet (Launches.launch_passes s.launches e) rfl rfl rfl
  | register r => exact hlaunch (Launches.insertRuntime_passes r)
  | dispatch w => exact hlaunch (dispatch_passes s.launches w)
  | ledger l => exact .refl _
  | prune old => exact .refl _
  | create c => exact hcommit (new_moves c)
  | instruct c =>
    refine hcommit ((instruct_ensures (R := Renumbers (.instruct c)) hs c).mono fun _ t h => ?_)
    rcases h with ⟨-, rfl⟩ | ⟨-, row, -, h⟩
    · exact .refl _
    · exact h
  | command c f => exact hcommit (command_moves hs c f)
  | finish c =>
    refine hcommit ((finish_ensures (R := Renumbers (.finish c)) hs c fun t hid hstate =>
      ⟨hid.symm, hstate, rfl⟩).mono fun _ t h => ?_)
    rcases h with ⟨-, rfl⟩ | ⟨-, row, -, -, -, -, h⟩
    · exact .refl _
    · exact h
  | resume c =>
    refine hcommit ((resume_ensures (R := Renumbers (.resume c)) c fun t hid hstate =>
      ⟨hid.symm, hstate, rfl⟩).mono fun _ t h => ?_)
    rcases h with ⟨-, rfl⟩ | ⟨-, row, -, -, -, h⟩
    · exact .refl _
    · exact h
  | delete c =>
    refine hcommit ((delete_ensures (R := Renumbers (.delete c)) hs c).mono fun _ t h => ?_)
    rcases h with ⟨-, rfl⟩ | ⟨-, row, -, h⟩
    · exact .refl _
    · exact h
  | recover c => exact hcommit (recover_moves hs c)

/-- **The invariant of every run.** -/
theorem inv_of_reachable (h : (system σ).Reachable s) : Inv s.core := by
  refine TransitionSystem.Reachable.invariant (T := system σ) (I := fun s => Inv s.core) ?_ ?_ h
  · rintro s rfl
    exact .empty
  · intro s e s' _ hs hstep
    rw [show s' = step σ s e from hstep]
    exact hs.moves (step_moves hs e)

/-- **What is over stays over**, in every run. -/
theorem onward_of_runs {u : Store} (h : (system σ).Reachable s) (hrun : (system σ).Runs s u) :
    Launches.Onward s.launches u.launches := by
  refine TransitionSystem.Runs.lift (R := fun a b : Store => Launches.Onward a.launches b.launches)
    (fun s => .refl s.launches) .trans (fun s e s' hs hstep => ?_) h hrun
  rw [show s' = step σ s e from hstep]
  exact (step_moves (inv_of_reachable hs) e).passes.onward

/-- A thread stays what it is, or gets a new number. -/
theorem Moves.renumbered {R : Thread → Thread → Prop} {s s' : Core} (h : Moves R s s') {t t' : Thread}
    (ht : t ∈ s.threads.rows) (ht' : t' ∈ s'.threads.rows) (hid : t'.id = t.id) :
    t' = t ∨ R t t' := by
  cases h with
  | quiet _ _ hthreads =>
    rw [hthreads] at ht'
    exact .inl (thread_eq ht' ht (.inl hid))
  | created c u p _ _ hthreads =>
    have hmem := UniqueRows.mem_insert_of_mem hthreads ht
    exact .inl (thread_eq ht' hmem (.inl hid))
  | changed u u' h hnumber =>
    have hnow : (if t.id = u.id then u' else t) ∈ s'.threads.rows := by
      rw [h.threads]
      exact List.mem_map_of_mem ht
    by_cases hsame : t.id = u.id
    · rw [if_pos hsame] at hnow
      obtain rfl := thread_eq ht h.mem (.inl hsame)
      rw [thread_eq ht' hnow (.inl (hid.trans h.id.symm))]
      exact hnumber
    · rw [if_neg hsame] at hnow
      exact .inl (thread_eq ht' hnow (.inl hid))
  | deleted u g _ _ _ _ _ hthreads => exact .inl (thread_eq ((hthreads t').mp ht').1 ht (.inl hid))

end Runs

end WorkerThreads
