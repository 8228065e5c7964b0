import OpenCAO.Assignments

/-!
# What most programs leave alone

An assignment is sent where another Attempt is started, a pause is recorded
where a decision asks for one, and a pause ends with its resumption or with
its Work. All other programs do nothing of the kind, whatever else they
write: an assertion about the Work, its pauses and its assignments that
holds beside such writes (`Still`) and after the moves by which a Work keeps
its authority (`Abiding`), or goes on at all (`Steady`), is kept by them. There is one lemma for each program,
in the shape of the program.
-/

namespace WorkFile

/-- **A change beside the Work**: the Work and its pauses are as they were, and
its Attempts change in place. -/
structure Beside (f g : WorkFile) : Prop where
  work : g.work = f.work
  attempts : List.Forall₂ SameAttempt f.attempts g.attempts
  pauses : g.pauses = f.pauses
  resumptions : g.resumptions = f.resumptions

/-- What most statements leave as it is. -/
def footing (f : WorkFile) :
    Work × List Attempt × List WorkPause × List WorkPauseResumption × List Message :=
  (f.work, f.attempts, f.pauses, f.resumptions, f.messages)

/-- The updates of a Work that goes on: they leave no Work paused. -/
def Move.runs : Move → Bool
  | goOn | submit | present | supervise | recover | attend | awaitUser _ | consume _
  | interrupt _ | resume | complete => true
  | pause _ | renew _ _ | reassign _ | replace _ | replaceReassign _ | release | cancel
  | finish _ => false

/-- The updates of a Work that keep its authority. -/
def Move.stays : Move → Bool
  | goOn | submit | present | supervise | attend | awaitUser _ => true
  | recover | consume _ | pause _ | renew _ _ | reassign _ | replace _ | replaceReassign _
  | interrupt _ | release | resume | complete | cancel | finish _ => false

theorem Move.runs_of_stays {m : Move} (h : m.stays = true) : m.runs = true := by
  cases m <;> first | rfl | cases h

end WorkFile

open WorkFile in
/-- **An assertion that holds beside the Work**, and does not mind a message that
is no assignment. -/
class Still (I : WorkFile → Prop) : Prop where
  beside : ∀ {f g : WorkFile}, I f → Beside f g → g.messages ⊆ f.messages → I g
  sent : ∀ {f g : WorkFile} {m : Message}, I f → Beside f g → m.kind ≠ .assignment →
    g.messages = m :: f.messages → I g

open WorkFile in
/-- **An assertion that holds after the moves of a Work that keep its authority.** -/
class Abiding (I : WorkFile → Prop) : Prop extends Still I where
  stayed : ∀ {f : WorkFile} {m : Move}, I f → m.stays = true → Movable m f → I (moved m f)

open WorkFile in
/-- **An assertion that holds after the moves of a Work that goes on.** -/
class Steady (I : WorkFile → Prop) : Prop extends Still I where
  moved : ∀ {f : WorkFile} {m : Move}, I f → m.runs = true → Movable m f → I (moved m f)

instance {I : WorkFile → Prop} [Steady I] : Abiding I where
  stayed hf hm := Steady.moved hf (WorkFile.Move.runs_of_stays hm)

namespace WorkFile

open Tx

variable {I : WorkFile → Prop} {f g : WorkFile} {α β : Type}

theorem Beside.refl (f : WorkFile) : Beside f f := ⟨rfl, sameAttempts_refl, rfl, rfl⟩

theorem Beside.of_footing (h : g.footing = f.footing) : Beside f g where
  work := congrArg (·.1) h
  attempts := by
    have hattempts : g.attempts = f.attempts := congrArg (·.2.1) h
    rw [hattempts]
    exact sameAttempts_refl
  pauses := congrArg (·.2.2.1) h
  resumptions := congrArg (·.2.2.2.1) h

theorem Beside.withAttempt {number : ℕ} {u : Attempt → Attempt} (hu : ∀ a, SameAttempt a (u a)) :
    Beside f (WorkFile.withAttempt number u f) := ⟨rfl, sameAttempts_withAttempt hu, rfl, rfl⟩

/-- A Work that goes on was not paused. -/
theorem Movable.unpaused {m : Move} (hm : Movable m f) (h : m.runs = true) :
    f.work.pausedBoundaryId = none := by
  by_contra hpaused
  obtain ⟨id, hid⟩ := Option.ne_none_iff_exists'.mp hpaused
  have hkept : (m.apply f.work).pausedBoundaryId = some id := by
    rw [← hid]
    cases m <;> first | rfl | cases h
  obtain ⟨hstate, hattention, hsuspended, -⟩ := hm.2.2.1 id hkept
  cases m <;> simp [Move.apply] at hstate hattention hsuspended <;> cases h

theorem keeps_check (result : Except ServiceError α) : Keeps I (Tx.check result) := fun f hf => by
  rw [Tx.wp_check]
  exact ⟨fun _ _ => hf, fun _ _ => trivial⟩

theorem keeps_after_check {result : Except ServiceError β} {k : β → FileTx α}
    (hk : ∀ b, Keeps I (k b)) : Keeps I (Tx.check result >>= k) :=
  .bind (keeps_check result) hk

theorem keeps_of_reads {P : WorkFile → α → Prop} {m : FileTx α} (h : ∀ f, Reads (P f) f m) :
    Keeps I m := fun f hf => wp_mono (h f) (fun _ _ hg => hg.1 ▸ hf) fun _ h => h

theorem keeps_enter (env : Env) (actor : Actor) : Keeps I (enter env actor) :=
  keeps_of_reads fun _ => reads_enter env actor

/-- What is asked for is sent, unless it was sent before. -/
theorem wp_message_request (env : Env) (r : MessageRequest) :
    wp (message env r) (fun _ g => g = f ∨
      ∃ m : Message, m.toMessageRequest = r ∧ g =
        { f with nextNumber := f.nextNumber + 1, messages := m :: f.messages })
      (fun _ => True) f := by
  unfold message
  rw [wp_bind, wp_get, wp_bind, wp_need]
  refine ⟨fun a _ => ?_, fun _ => trivial⟩
  rw [wp_bind, wp_require]
  refine ⟨fun _ => ?_, fun _ => trivial⟩
  split
  · rw [wp_bind, wp_require]
    exact ⟨fun _ => .inl rfl, fun _ => trivial⟩
  · rw [wp_bind, wp_require]
    refine ⟨fun _ => ?_, fun _ => trivial⟩
    rw [wp_bind, Tx.wp_check]
    refine ⟨fun _ _ => ?_, fun _ _ => trivial⟩
    rw [wp_bind, wp_newId, wp_bind, wp_modify, wp_pure]
    exact .inr ⟨_, rfl, rfl⟩

theorem keeps_endWork (hend : ∀ f m, I f → I (moved m f)) (m : Move) : Keeps I (move m) :=
  fun f hf => by
    unfold move
    rw [Tx.wp_statement]
    exact ⟨fun _ => hend f m hf, fun _ => trivial⟩

section Still

variable [Still I]

theorem Still.footing (hf : I f) (h : g.footing = f.footing) : I g := by
  refine Still.beside hf (.of_footing h) ?_
  have hmessages : g.messages = f.messages := congrArg (·.2.2.2.2) h
  rw [hmessages]
  exact List.Subset.refl _

theorem keeps_statement {c : WorkFile → Prop} [DecidablePred c] {error : String}
    {change : WorkFile → WorkFile} (h : ∀ f, (change f).footing = f.footing) :
    Keeps I (Tx.statement c error change) := fun f hf => by
  rw [Tx.wp_statement]
  exact ⟨fun _ => Still.footing hf (h f), fun _ => trivial⟩

theorem keeps_change {change : WorkFile → WorkFile} (h : ∀ f, (change f).footing = f.footing) :
    Keeps I (modify change : FileTx PUnit) := keeps_modify fun f hf => Still.footing hf (h f)

theorem keeps_withAttempt (number : ℕ) {u : Attempt → Attempt} (hu : ∀ a, SameAttempt a (u a)) :
    Keeps I (modify (withAttempt number u) : FileTx PUnit) :=
  keeps_modify fun _ hf => Still.beside hf (.withAttempt hu) (List.Subset.refl _)

theorem Still.write {k : WriteKind} (hk : k ∈ WriteKind.lease :: .number :: reconciliations)
    (hf : I f) (hw : Write f k g) : I g := by
  cases hw with
  | number | abandon | lease | supersede | rederive => exact Still.footing hf rfl
  | handover _ _ _ _ hm => cases hm <;> simp [reconciliations] at hk
  | message | prune | complete | decide | giveUp | sealDecision | close | record | acknowledge
  | cancel | finish | attend | bypass | release | renew | renewContinued | replace
  | replaceContinued | reply | pause | resume | review | reject | accept =>
    simp [reconciliations] at hk

theorem keeps_of_makes {m : FileTx α}
    (h : ∀ f, Makes (Writes (.lease :: .number :: reconciliations)) f m) : Keeps I m :=
  Keeps.of_makes (fun _ _ hf hw => by
    obtain ⟨_, hk, hw⟩ := hw
    exact Still.write hk hf hw) h

theorem keeps_newId : Keeps I newId := fun f hf => by
  rw [wp_newId]
  exact Still.footing hf rfl

theorem keeps_abandonTurns (p : ReasonerTurn → Bool) : Keeps I (abandonTurns p) :=
  keeps_change fun _ => rfl

theorem keeps_fenceReasonerTurns : Keeps I fenceReasonerTurns := keeps_abandonTurns _

theorem keeps_setAttemptState (number : ℕ) (state : AttemptState) :
    Keeps I (setAttemptState number state) := keeps_withAttempt number (sameAttempt_inState state)

theorem keeps_insertDisposition (d : BoundaryDisposition) :
    Keeps I (insertDisposition d) := keeps_statement fun _ => rfl

theorem keeps_insertTurn (env : Env) (t : ReasonerTurn) : Keeps I (insertTurn env t) :=
  keeps_statement fun _ => rfl

theorem keeps_backfill (env : Env) : Keeps I (backfillRecoveryActions env) :=
  keeps_of_makes fun _ => makes_mono (by decide) (makes_backfillRecoveryActions env)

/-- **A message that is no assignment.** -/
theorem keeps_message (env : Env) {r : MessageRequest} (hr : r.kind ≠ .assignment) :
    Keeps I (message env r) := fun f hf => by
  refine wp_mono (wp_message_request env r) (fun _ g hg => ?_) fun _ h => h
  rcases hg with rfl | ⟨m, hrequest, rfl⟩
  · exact hf
  · rw [← hrequest] at hr
    exact Still.sent hf ⟨rfl, sameAttempts_refl, rfl, rfl⟩ hr rfl

theorem keeps_notice (env : Env) {r : MessageRequest} (hr : r.kind ≠ .assignment) :
    Keeps I (do let _ ← message env r) :=
  .bind (keeps_message env hr) fun _ => keeps_pure _

theorem keeps_supersedeBoundaries (p : Boundary → Bool) (reason : SupersessionReason) :
    Keeps I (supersedeBoundaries p reason) :=
  .get fun _ => .each fun _ _ => .bind (keeps_statement fun _ => rfl) fun _ => keeps_abandonTurns _

theorem keeps_recordBoundaryTx (env : Env) (sourceId : PrincipalId) (role : PrincipalRole)
    (r : BoundaryInput) : Keeps I (recordBoundaryTx env sourceId role r) := by
  unfold recordBoundaryTx
  refine .get fun f => ?_
  split
  · exact .require (.bind (.when fun _ => keeps_backfill env) fun _ => keeps_pure _)
  · refine .require (.need fun a => .require (.require (.require (.require (.require ?_)))))
    exact .bind (keeps_of_reads fun _ => reads_requireNotPaused) fun _ => .bind keeps_newId
      fun _ => .bind (keeps_statement fun _ => rfl) fun _ =>
      .bind (.when fun _ => keeps_backfill env) fun _ => keeps_pure _

theorem keeps_pruneMessages (handled : List WorkMessageId) :
    Keeps I (pruneMessages handled) :=
  keeps_modify fun _ hf => Still.beside hf ⟨rfl, sameAttempts_refl, rfl, rfl⟩
    (List.filter_subset_self _)

/-! ### The ends of a Work

They keep what holds after any move. -/

theorem keeps_cancelAttempt (env : Env) (actorId : PrincipalId) (goalVersion : ℕ) (reason : String)
    (directive : Option DirectiveId) (latest : Option Attempt) :
    Keeps I (cancelAttempt env actorId goalVersion reason directive latest) := by
  unfold cancelAttempt
  split
  · exact keeps_pure _
  · exact .bind (keeps_setAttemptState _ _) fun _ => .when fun _ => keeps_notice env (by simp)

theorem keeps_cancelWork (hend : ∀ f m, I f → I (moved m f)) (env : Env) (actorId : PrincipalId)
    (reason : String) (directive : Option DirectiveId) :
    Keeps I (cancelWork env actorId reason directive) :=
  .get fun _ => .require (.ite (fun _ => keeps_pure _) fun _ =>
    .bind keeps_fenceReasonerTurns fun _ => .bind (keeps_endWork hend _) fun _ =>
    .bind (keeps_cancelAttempt env _ _ _ _ _) fun _ => .get fun _ => keeps_supersedeBoundaries _ _)

theorem keeps_closeBoundaries (env : Env) (actor : Actor) (attachment : AttachmentId)
    (bs : List Boundary) : Keeps I (Tx.each (closeBoundary env actor attachment) bs) :=
  .each fun _ _ => .bind keeps_newId fun _ => .bind keeps_newId fun _ =>
    .bind (keeps_insertTurn env _) fun _ => keeps_insertDisposition _

theorem keeps_closeConversationWork (hend : ∀ f m, I f → I (moved m f)) (env : Env)
    (actor : Actor) (attachment : AttachmentId) :
    Keeps I (closeConversationWork env actor attachment) :=
  .get fun _ => .bind (keeps_closeBoundaries env actor attachment _) fun _ =>
    .ite (fun _ => keeps_pure _) fun _ => keeps_cancelWork hend env _ _ _

theorem keeps_finishWorker (hend : ∀ f m, I f → I (moved m f)) (worker : PrincipalId)
    (keeps : Bool) : Keeps I (finishWorker worker keeps) :=
  .get fun _ => .require (.ite (fun _ => keeps_pure _) fun _ => .bind keeps_fenceReasonerTurns
    fun _ => .bind (keeps_endWork hend _) fun _ => .bind
    (keeps_modify fun _ hf => Still.beside hf ⟨rfl, sameAttempts_endAttempts, rfl, rfl⟩
      (List.Subset.refl _)) fun _ => keeps_supersedeBoundaries _ _)

end Still

section Abiding

variable [Abiding I]

theorem keeps_stay {m : Move} (hm : m.stays = true) : Keeps I (move m) := fun f hf => by
  unfold move
  rw [Tx.wp_statement]
  exact ⟨fun hmovable => Abiding.stayed hf hm hmovable, fun _ => trivial⟩

theorem keeps_advance (number : ℕ) {u : Attempt → Attempt} (hu : ∀ a, SameAttempt a (u a))
    {m : Move} (hm : m.stays = true) : Keeps I (advance number u m) :=
  .bind (keeps_withAttempt number hu) fun _ => keeps_stay hm

theorem keeps_handOver (number : ℕ) (state : AttemptState) {m : Move} (hm : m.stays = true) :
    Keeps I (advance number (.inState state) m) := keeps_advance number (sameAttempt_inState state) hm

theorem keeps_verify (number : ℕ) : Keeps I (advance number .verified .present) :=
  keeps_advance number (u := Attempt.verified) (fun _ => ⟨rfl, rfl, rfl, rfl, rfl, rfl⟩) rfl

/-! ### Decisions -/

theorem keeps_escalateSupervision (env : Env) (b : Boundary) (reason : EscalationReason)
    (turn : Option TurnId) (request : Option Digest) :
    Keeps I (escalateSupervision env b reason turn request) := by
  unfold escalateSupervision
  refine .get fun f => .bind keeps_newId fun id => .bind ?_ fun _ =>
    .bind (keeps_statement fun _ => rfl) fun _ => .bind (keeps_handOver _ _ rfl) fun _ =>
    .bind (keeps_abandonTurns _) fun _ => .bind (keeps_message env fun h => (nomatch h)) fun _ =>
    keeps_pure _
  cases turn with
  | some t => exact .bind (keeps_change fun _ => rfl) fun _ => keeps_pure _
  | none =>
    exact .bind keeps_newId fun _ => .bind (keeps_statement fun _ => rfl) fun _ => keeps_pure _

/-! ### Reports, reviews and recoveries -/

theorem keeps_recordBoundary (env : Env) (actor : Actor) (r : BoundaryInput) :
    Keeps I (recordBoundary env actor r) :=
  .require (.bind (keeps_recordBoundaryTx env _ _ _) fun _ => .get fun _ =>
    keeps_notice env fun h => (nomatch h))

theorem keeps_report (env : Env) (actor : Actor) (r : ReportInput) :
    Keeps I (report env actor r) := by
  unfold report
  refine .get fun f => .need fun a => .require (keeps_after_check fun _ => .require ?_)
  split
  · exact keeps_check _
  · refine .require (.require (.require (.require (.require (.require (.require ?_))))))
    split
    · exact .bind (keeps_handOver _ _ rfl) fun _ => keeps_notice env fun h => (nomatch h)
    · have hreported : ∀ a, SameAttempt a (r.kind.reported a) := fun _ => ⟨rfl, rfl, rfl, rfl, rfl, rfl⟩
      exact .bind (keeps_advance _ hreported rfl) fun _ => .bind (keeps_recordBoundaryTx env _ _ _)
        fun _ => keeps_notice env fun h => (nomatch h)

theorem keeps_review (env : Env) (actor : Actor) (r : ReviewInput) :
    Keeps I (review env actor r) := by
  unfold review
  refine .require (keeps_after_check fun _ => .get fun f => .need fun a =>
    .bind (keeps_of_reads fun _ => reads_authorizeWorkActor actor) fun _ => .require ?_)
  split
  · exact keeps_check _
  · refine keeps_after_check fun _ => .require (.bind (keeps_of_reads fun _ => reads_currentGoal)
      fun _ => .require (keeps_after_check fun _ => .require (.bind keeps_newId fun _ =>
      .bind (keeps_statement fun _ => rfl) fun _ => .ite (fun _ => keeps_pure _) fun _ => ?_)))
    split
    · exact .bind (keeps_verify _) fun _ => keeps_notice env fun h => (nomatch h)
    · exact .bind (keeps_handOver _ _ rfl) fun _ => .bind (keeps_recordBoundaryTx env _ _ _) fun _ =>
        keeps_notice env fun h => (nomatch h)

theorem keeps_recordRequesterDecision (env : Env) (actor : Actor) (r : RequesterDecisionInput)
    (hcomplete : r.accepted = true → Keeps I (move .complete)) :
    Keeps I (recordRequesterDecision env actor r) := by
  unfold recordRequesterDecision
  refine .require (.need fun attachment => keeps_after_check fun _ => keeps_after_check fun _ =>
    .get fun f => .need fun q => .need fun a =>
    .bind (keeps_of_reads fun _ => reads_authorizeWorkActor actor) fun _ => .need fun requester =>
    .require ?_)
  split
  · exact keeps_check _
  · refine keeps_after_check fun _ => .require (.bind (keeps_of_reads fun _ => reads_currentGoal)
      fun _ => .require (.require (keeps_after_check fun _ => ?_)))
    split
    · exact keeps_require _ _
    · refine .bind keeps_newId fun _ => .ite (fun haccepted => ?_) fun _ => ?_
      · exact .bind keeps_fenceReasonerTurns fun _ => .bind (hcomplete haccepted) fun _ =>
          keeps_statement fun _ => rfl
      · exact .get fun _ => .bind (keeps_handOver _ _ rfl) fun _ =>
          .bind (keeps_recordBoundaryTx env _ _ _) fun _ => keeps_statement fun _ => rfl

theorem keeps_augment (env : Env) (actor : Actor) (directive : DirectiveId) (reason : String) :
    Keeps I (augment env actor directive reason) :=
  .bind (keeps_enter env actor) fun _ => .get fun _ => .require (keeps_after_check fun _ =>
    .need fun _ => .bind (keeps_recordBoundaryTx env _ _ _) fun _ =>
    .bind (keeps_message env fun h => (nomatch h)) fun _ => keeps_stay rfl)

theorem keeps_recoverExpiredTurn (env : Env) (t : ReasonerTurn) :
    Keeps I (recoverExpiredTurn env t) :=
  .get fun _ => .ite (fun _ => .bind (keeps_abandonTurns _) fun _ => .need fun b =>
    .ite (fun _ => .bind (keeps_escalateSupervision env b _ _ _) fun _ => keeps_pure _) fun _ =>
      .bind (keeps_abandonTurns _) fun _ => keeps_notice env fun h => (nomatch h))
    fun _ => keeps_pure _

theorem keeps_recoverIncompleteTurn (env : Env) (id : BoundaryId) (m : WorkMessageId) (n : ℕ) :
    Keeps I (recoverIncompleteTurn env id m n) := by
  unfold recoverIncompleteTurn
  refine .get fun f => ?_
  split
  · exact .ite (fun _ => .bind (keeps_abandonTurns _) fun _ =>
      .ite (fun _ => .bind (keeps_escalateSupervision env _ _ _ _) fun _ => keeps_pure _) fun _ =>
        .bind (keeps_abandonTurns _) fun _ => keeps_notice env fun h => (nomatch h))
      fun _ => keeps_pure _
  · exact keeps_pure _

theorem keeps_recordSecondaryFailure (env : Env) (event : SourceEventId) (n : ℕ) :
    Keeps I (recordSecondaryFailure env event n) :=
  .get fun _ => .need fun _ => .ite (fun _ => keeps_pure _) fun _ =>
    .bind (keeps_recordBoundaryTx env _ _ _) fun _ => keeps_pure _

theorem keeps_finalizeCapture (env : Env) (c : Capture) :
    Keeps I (finalizeCapture env c) := by
  unfold finalizeCapture
  refine .get fun f => .need fun a => .ite (fun _ => keeps_pure _) fun _ => .bind ?_ fun _ =>
    .when fun _ => keeps_notice env fun h => (nomatch h)
  unfold publishCapture
  refine .get fun f => ?_
  split
  · exact keeps_pure _
  · exact .ite (fun _ => .bind (keeps_handOver _ _ rfl) fun _ =>
      .bind (keeps_recordBoundaryTx env _ _ _) fun _ => keeps_pure _) fun _ => keeps_pure _

theorem keeps_reconcileAbandonedCapture (env : Env) (c : Capture) :
    Keeps I (reconcileAbandonedCapture env c) := by
  unfold reconcileAbandonedCapture
  refine .get fun f => ?_
  split
  · exact keeps_pure _
  · exact .ite (fun _ => .bind (keeps_handOver _ _ rfl) fun _ =>
      .bind (keeps_recordBoundaryTx env _ _ _) fun _ => keeps_notice env fun h => (nomatch h))
      fun _ => keeps_pure _

end Abiding

section Steady

variable [Steady I]

theorem keeps_move {m : Move} (hm : m.runs = true) : Keeps I (move m) := fun f hf => by
  unfold move
  rw [Tx.wp_statement]
  exact ⟨fun hmovable => Steady.moved hf hm hmovable, fun _ => trivial⟩

theorem keeps_consumeUserNeededBoundary (actorId : PrincipalId) (work : Work) (b : Boundary)
    (source successor generation : ℕ) (id : WorkMessageId) :
    Keeps I (consumeUserNeededBoundary actorId work b source successor generation id) :=
  .bind (keeps_statement fun _ => rfl) fun _ => .get fun _ => .require (keeps_move rfl)

theorem keeps_interruptTarget (w : WorkId) : Keeps I (interruptTarget w) := by
  unfold interruptTarget
  refine .bind (keeps_of_reads fun _ => reads_requireLive _) fun _ => .get fun f => .require
    (.bind keeps_fenceReasonerTurns fun _ => .bind (keeps_move rfl) fun _ => ?_)
  split
  · exact .ite (fun _ => keeps_pure _) fun _ => keeps_setAttemptState _ _
  · exact keeps_pure _

theorem keeps_recoverWorker (env : Env) (w : WorkerFailure) (bySupervisor : Bool) :
    Keeps I (recoverWorker env w bySupervisor) :=
  .get fun _ => .need fun _ => .ite (fun _ => keeps_pure _) fun _ => .require
    (.bind (keeps_move rfl) fun _ => .bind (keeps_setAttemptState _ _) fun _ =>
      .bind (keeps_recordBoundaryTx env _ _ _) fun _ => keeps_notice env fun h => (nomatch h))

end Steady

end WorkFile
