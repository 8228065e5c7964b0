import OpenCAO.History

/-!
# Work, attention and Attempt

Three columns say where a Work stands: its state, whose attention it has,
and the state of its latest Attempt. The read model has a table for each
pair (`_WORK_ATTENTION`, `_WORK_ATTEMPT_STATES`) and reports a violation
where a Work is not on it.

Every write that hands a Work over moves all three to a place on the
tables, whatever they were before. Three operations do not: the recovery of
an abandoned capture gives the Attempt a state that no table knows, the
interruption of a Work that waits for the requester's decision suspends the Work
and leaves its completed Attempt, and an augmentation moves the attention alone.
In the runs without them the tables hold.
-/

namespace WorkFile

open Tx

variable {f g : WorkFile}

/-- `_WORK_ATTENTION`. -/
def workAttention : WorkState → Option AttentionOwner
  | .active => some .worker
  | .waitingSupervisor | .waitingReview => some .cao
  | .waitingUser | .userNeeded => some .user
  | .suspended | .completed | .canceled | .failed => some .none
  | .open => none

/-- `_WORK_ATTEMPT_STATES`. -/
def workAttemptStates : WorkState → Option (List AttemptState)
  | .active => some [.assigned, .accepted, .working]
  | .waitingSupervisor => some [.waitingSupervisor]
  | .waitingReview => some [.submitted]
  | .waitingUser => some [.completed]
  | .userNeeded => some [.inputRequired]
  | .suspended => some [.suspended]
  | .completed => some [.completed]
  | .canceled => some [.completed, .canceled, .failed]
  | .failed => some [.failed]
  | .open => none

/-- The tables admit an Attempt state for a Work. A state of a Work that they
leave out is not admitted at all. -/
def Admits (w : Work) (state : AttemptState) : Prop :=
  workAttention w.state = some w.attentionOwner ∧
    ∃ l ∈ workAttemptStates w.state, state ∈ l

instance (w : Work) (state : AttemptState) : Decidable (Admits w state) := by
  unfold Admits
  infer_instance

/-- **The Work, its attention and its latest Attempt are on the tables.** -/
def Paired (f : WorkFile) : Prop := ∃ a ∈ f.latestAttempt?, Admits f.work a.state

instance (f : WorkFile) : Decidable (Paired f) := by
  unfold Paired
  infer_instance

theorem Paired.of_same (hf : Paired f) (hwork : g.work = f.work)
    (hattempts : g.attempts = f.attempts) : Paired g := by
  obtain ⟨a, ha, hstate⟩ := hf
  refine ⟨a, ?_, ?_⟩
  · unfold latestAttempt? at *
    rw [hattempts]
    exact ha
  · rw [hwork]
    exact hstate

theorem latestAttempt?_update {number : ℕ} {h : Attempt → Attempt} {a : Attempt}
    (ha : f.latestAttempt? = some a) (hnumber : a.number = number) :
    (withAttempt number h f).latestAttempt? = some (h a) := by
  unfold latestAttempt? withAttempt Rows.update at *
  rw [List.head?_map, ha]
  simp [hnumber]

/-- A handover puts Work and Attempt on the tables, wherever they were. -/
theorem Handover.admits {k : WriteKind} {number : ℕ} {h : Attempt → Attempt} {m : Move}
    (hk : k ∈ closings) (hm : Handover f number k h m) (a : Attempt) :
    Admits (m.apply f.work) (h a).state := by
  cases hm with
  | supervise h hh => simp [Admits, Move.apply, workAttention, workAttemptStates, (hh a).2]
  | abandoned => simp [closings, paired, settled] at hk
  | _ =>
    simp [Admits, Move.apply, workAttention, workAttemptStates, Attempt.inState, Attempt.verified]

theorem Renewal.paired {workerId : PrincipalId} {isPaused : Bool}
    (h : Renewal f (.renew workerId isPaused) g) : Paired g := by
  have hwork := h.work_eq
  cases h
  refine ⟨_, rfl, ?_⟩
  rw [hwork]
  simp [Admits, Move.apply, workAttention, workAttemptStates, attemptOn]

theorem Replacement.paired {workerId : PrincipalId} (h : Replacement f (.replace workerId) g) :
    Paired g := by
  have hwork := h.work_eq
  cases h
  refine ⟨_, rfl, ?_⟩
  rw [hwork]
  by_cases hsuspended : f.work.state = .suspended
  · simp [Admits, Move.apply, workAttention, workAttemptStates, attemptOn, hsuspended]
  · simp [Admits, Move.apply, workAttention, workAttemptStates, attemptOn, hsuspended]

/-- A decision of the requester is consumed by an Attempt that is with its Worker. -/
theorem paired_consumption {f₁ f₂ : WorkFile} {c : BoundaryContinuation}
    (h : ∃ a, f₁.latestAttempt? = some a ∧ a.state = .assigned) (hsent : Messaged f₁ f₂)
    (hconsumed : Consumption f₂ c g) : Paired g := by
  obtain ⟨a, ha, hstate⟩ := h
  have hwork := hconsumed.work_eq
  have hattempts : g.attempts = f₁.attempts := by
    cases hconsumed
    cases hsent <;> rfl
  refine ⟨a, ?_, ?_⟩
  · unfold latestAttempt? at *
    rw [hattempts]
    exact ha
  · rw [hwork, hstate]
    simp [Admits, Move.apply, workAttention, workAttemptStates]

/-- **Every paired write keeps the tables.** -/
theorem Paired.write (hf : Paired f) (hhistory : History f) {k : WriteKind} (hk : k ∈ closings)
    (h : Write f k g) : Paired g := by
  obtain ⟨a, ha, hstate⟩ := hf
  have hnumber := hhistory.latest_number ha
  cases h with
  | message g hsent =>
    refine Paired.of_same ⟨a, ha, hstate⟩ hsent.work_eq ?_
    cases hsent <;> rfl
  | acknowledge c hc hassigned =>
    have hlatest : c.number = a.number :=
      (hhistory.number_of_live hc (by rw [hassigned]; rfl)).trans hnumber.symm
    obtain rfl : c = a :=
      Rows.eq_of_key hhistory.nodup_numbers hc (mem_of_latestAttempt? ha) hlatest
    refine ⟨c.inState .accepted, latestAttempt?_update ha rfl, hstate.1, ?_⟩
    -- Only an active Work has an Attempt that is assigned.
    have hadmits := hstate.2
    rw [hassigned] at hadmits
    show ∃ l ∈ workAttemptStates f.work.state, AttemptState.accepted ∈ l
    cases hs : f.work.state <;> simp [workAttemptStates, hs] at hadmits ⊢
  | handover k number h m hm htarget hmovable =>
    have htarget := hhistory.number_of_target hm htarget hmovable
    exact ⟨h a, latestAttempt?_update ha (hnumber.trans htarget.symm), hm.admits hk a⟩
  | cancel hm hnone => cases hnone.symm.trans ha
  | finish keeps =>
    refine ⟨if a.state.terminal then a else a.inState .canceled, ?_, ?_⟩
    · show (endAttempts f).latestAttempt? = _
      unfold latestAttempt? endAttempts Rows.update at *
      rw [List.head?_map, ha]
      cases hs : a.state.terminal <;> simp [hs]
    · show Admits ((Move.finish keeps).apply f.work) _
      cases hs : a.state <;>
        simp [Admits, Move.apply, workAttention, workAttemptStates, AttemptState.terminal,
          Attempt.inState, hs]
  | attend | bypass => simp [closings, paired, settled] at hk
  | renew worker isPaused g h => exact h.paired
  | renewContinued worker f₁ f₂ g c _ h hsent _ hconsumed =>
    refine paired_consumption ?_ hsent hconsumed
    cases h
    exact ⟨_, rfl, rfl⟩
  | replace worker g h => exact h.paired
  | replaceContinued worker f₁ f₂ g c hawaiting h hsent _ hconsumed =>
    refine paired_consumption ?_ hsent hconsumed
    cases h
    exact ⟨_, rfl, by simp [attemptOn, hawaiting]⟩
  | reply c d g hc _ _ hconsumed =>
    have hwork := hconsumed.work_eq
    have hattempts : g.latestAttempt? = f.latestAttempt? := by
      cases hconsumed
      rfl
    refine ⟨c.inState .working, latestAttempt?_update (hattempts.trans hc) rfl, ?_⟩
    show Admits g.work _
    rw [hwork]
    simp [Admits, Move.apply, workAttention, workAttemptStates, Attempt.inState]
  | accept d _ hwaiting =>
    refine ⟨a, ha, ?_⟩
    obtain ⟨-, hcompleted⟩ := hstate
    rw [hwaiting] at hcompleted
    show Admits (Move.complete.apply f.work) _
    simpa [Admits, Move.apply, workAttention, workAttemptStates] using hcompleted
  | _ => exact ⟨a, ha, hstate⟩

theorem paired_file (n : NewWork) (packet : Option AttachmentPacket) (runtime : Option RuntimeId) :
    Paired (n.file packet runtime) := by
  refine ⟨_, rfl, ?_⟩
  simp [NewWork.file, Admits, workAttention, workAttemptStates, attemptOn]

/-- An Attempt of a Work that goes on has not ended, unless it waits for the
decision of its requester. -/
theorem Paired.live (hf : Paired f) (hlive : f.work.state.terminal = false)
    (hdecided : f.work.state ≠ .waitingUser) :
    ∃ a, f.latestAttempt? = some a ∧ a.state.terminal = false := by
  obtain ⟨a, ha, -, l, hl, hstate⟩ := hf
  refine ⟨a, ha, ?_⟩
  have hlive : ∀ s, s.terminal = false → s ≠ WorkState.waitingUser →
      ∀ l ∈ workAttemptStates s, ∀ t ∈ l, t.terminal = false := by
    intro s
    cases s <;> simp [workAttemptStates, WorkState.terminal, AttemptState.terminal]
  exact hlive _ ‹_› hdecided l hl _ hstate

end WorkFile

namespace Store

open WorkFile Tx

/-- The parts of the runs in which the tables hold: no augmentation, no recovery of
a capture that was abandoned, no interruption of a Work that waits for the
decision of its requester. -/
def MovesTogether : World → Part → WorkFile → Prop
  | _, .call (.augment _ _ _), _ => False
  | _, .call (.reconcileAbandonedCapture c), f =>
      ∀ a ∈ f.attempt? c.attemptNumber, ¬ f.Abandoned c a
  | _, .interrupt _, f => f.work.state ≠ .waitingUser
  | _, _, _ => True

/-- The history of the Work is a chain, and the Work is on the tables. -/
def Consistent (f : WorkFile) : Prop := History f ∧ Paired f

theorem Consistent.write {f g : WorkFile} (hf : Consistent f) (h : Writes closings f g) : Consistent g := by
  obtain ⟨k, hk, hw⟩ := h
  exact ⟨hf.1.write hw, hf.2.write hf.1 hk hw⟩

theorem Consistent.closings {f : WorkFile} {m : FileTx PUnit} (hf : Consistent f)
    (h : Makes (Writes closings) f m) : Ensures f m fun _ => Consistent :=
  h.keeps (fun _ _ hI hw => hI.write hw) hf

theorem Consistent.settled {f : WorkFile} {m : FileTx PUnit} (hf : Consistent f)
    (h : Makes (Writes WorkFile.settled) f m) : Ensures f m fun _ => Consistent :=
  hf.closings (makes_mono (by decide) h)

/-- The recovery of a capture that was not abandoned changes nothing. -/
theorem ensures_notAbandoned (env : Env) (c : Capture) {f : WorkFile}
    (h : ∀ a ∈ f.attempt? c.attemptNumber, ¬ f.Abandoned c a) :
    Ensures f (reconcileAbandonedCapture env c) fun _ g => g = f := by
  unfold reconcileAbandonedCapture
  refine .get ?_
  split
  · rfl
  · next a ha => exact .ite (fun habandoned => absurd habandoned (h a ha)) fun _ => rfl

/-- **Every guarded part keeps the tables.** -/
theorem consistent_parts : PartsKeep MovesTogether Consistent where
  part env p f hp hf hguard := by
    cases p with
    | call c =>
      by_cases hparts : c.Parts
      · cases c with
        | augment actor directive reason => exact hguard.elim
        | reconcileAbandonedCapture c =>
          exact (ensures_notAbandoned env c hguard).mono fun _ g hg => hg ▸ hf
        | _ => exact hparts.elim
      · exact hf.closings (c.makes_closings env hparts)
    | interrupt w =>
      exact hf.settled (makes_interruptTarget_of_live w fun hlive => hf.2.live hlive hguard)
    | resume w actorId =>
      refine hf.settled (makes_resumeInterruptedTarget_of_suspended env w actorId fun hsuspended => ?_)
      obtain ⟨a, ha, -, hstate⟩ := hf.2
      refine ⟨a, ha, ?_⟩
      rw [hsuspended] at hstate
      simpa [workAttemptStates] using hstate
    | recoverExpired t => exact absurd rfl (hp t)
  expired env t := .of_makes (fun _ _ hf hw => hf.write hw) fun _ =>
    makes_mono (by decide) (makes_recoverExpiredTurn env t)
  assign env n := .of_makes (fun _ _ hf hw => hf.write hw) fun _ =>
    makes_message (by decide) env _
  new n _ packet runtime hpacket := ⟨history_file hpacket runtime, paired_file n packet runtime⟩

end Store

namespace Supervision

open WorkFile

/-- Every Work is on the tables. -/
def OnTables (s : Store) : Prop := ∀ f ∈ s.files, Paired f

instance (s : Store) : Decidable (OnTables s) := by
  unfold OnTables
  infer_instance

/-- **Work, attention and Attempt move together**: in every run without the three
operations, every Work is on the tables in every store. -/
theorem work_and_attempt_paired {s : Store}
    (hs : (system.restrict (Store.Guarded Store.MovesTogether)).Reachable s) : OnTables s :=
  fun f hf => ((files_of_guarded Store.consistent_parts hs).holds f hf).2

/-- A Worker accepts its assignment. -/
theorem work_and_attempt_paired_accepted :
    OnTables (after [opened 1, called 1 (.acceptAssignment 1)]) := by
  refine work_and_attempt_paired ?_
  have hinit : (system.restrict (Store.Guarded Store.MovesTogether)).Reachable ⟨[]⟩ :=
    .of_init rfl
  have hopened : (system.restrict (Store.Guarded Store.MovesTogether)).Reachable
      (after [opened 1]) := hinit.next (e := opened 1) ⟨fun _ hi => (nomatch hi), rfl⟩
  exact hopened.next (e := called 1 (.acceptAssignment 1))
    ⟨⟨fun _ _ => trivial, fun _ _ _ => trivial⟩, rfl⟩

/-- A capture of the first Attempt that nobody ended. -/
def abandonedCapture : Capture :=
  { sourceEventId := .other "worker-output-interrupted:wout_1", attemptNumber := 1,
    workGeneration := 1, exact := true, successful := false, pending := false, notified := false,
    key := .none }

/-- The recovery of an abandoned capture leaves an Attempt in a state that the tables
do not know. -/
theorem abandoned_capture_parts :
    system.Reachable (after [opened 1, called 1 (.reconcileAbandonedCapture abandonedCapture)]) ∧
      ¬ OnTables (after [opened 1, called 1 (.reconcileAbandonedCapture abandonedCapture)]) :=
  ⟨reachable_after _, by decide⟩

end Supervision
