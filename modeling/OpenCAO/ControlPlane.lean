import OpenCAO.Recovery
import OpenCAO.TransitionSystem

/-!
# The control plane

The store holds the files of all Works. Every transaction of the service
is a `Call` on one Work, but for three that reach further: a Work can be
opened to interrupt another, a Work that ends lets the one it interrupted
go on, and the scan for expired supervisions goes through all files in
one transaction.

A transaction that fails leaves the store as it was, so a step of the
control plane is what a transaction commits.
-/

/-- **The store.** -/
structure Store where
  files : List WorkFile
  deriving DecidableEq, Repr

/-- A transaction on the store. -/
abbrev StoreTx := Tx Store Failure

namespace Store

variable (s : Store)

def file? (w : WorkId) : Option WorkFile := s.files.find? fun f => f.id = w

/-- The files of the other Works. -/
def others (w : WorkId) : List WorkFile := s.files.filter fun f => f.id ≠ w

/-- What a transaction on a Work finds outside its file. -/
def env (w : WorkId) (world : World) : Env :=
  { world with
    turnKeyTaken := fun p key => (s.others w).any fun f => f.turns.any fun t =>
      t.supervisorId = p ∧ t.idempotencyKey = key
    sourceEventTaken := fun p event => (s.others w).any fun f => f.boundaries.any fun b =>
      b.sourcePrincipalId = p ∧ b.sourceEventId = event
    messageKeyTaken := fun p key => (s.others w).any fun f => f.messages.any fun m =>
      m.senderId = p ∧ m.idempotencyKey = key }

/-- The store with another file of a Work. -/
def put (w : WorkId) (f : WorkFile) : Store :=
  { files := Rows.update (fun g => g.id = w) (fun _ => f) s.files }

/-- A transaction on the file of a Work. -/
def onFile {α : Type} (w : WorkId) (world : World) (m : Env → FileTx α) : StoreTx α := do
  let s ← get
  let f ← Tx.need (s.file? w) (.service (.notFound "work item"))
  match m (s.env w world) f with
  | .ok (a, g) => do
    set (s.put w g)
    pure a
  | .error e => throw e

end Store

/-! ## Calls -/

/-- **The transactions on one Work.** -/
inductive Call where
  | recordBoundary (actor : Actor) (request : WorkFile.BoundaryInput)
  | acquireReasonerTurn (actor : Actor) (boundaryId : Option BoundaryId)
      (expectedGeneration leaseSeconds : ℕ) (key : TurnKey) (token : String)
  | disposeBoundary (actor : Actor) (boundaryId : BoundaryId) (request : BoundaryDispositionInput)
  | createAttempt (actor : Actor) (request : WorkFile.RetryInput)
  | resumeWork (actor : Actor) (request : WorkFile.WorkResumeInput)
  | replyUserNeeded (actor : Actor) (request : WorkFile.ReplyInput)
  | replyOpenBoundary (actor : Actor) (inReplyTo : Option WorkMessageId)
      (messageText key token : String)
  | replaceGoal (actor : Actor) (request : WorkFile.WorkAssignment) (reason : String)
      (directiveId : DirectiveId) (intentId receiptId : Option ℕ) (purpose : Option String)
  | cancelWork (actor : Actor) (reason : String) (directiveId : Option DirectiveId)
  | closeConversation (actor : Actor) (attachmentId : AttachmentId)
  | finishWorker (workerId : PrincipalId) (keepsSuspension : Bool)
  | review (actor : Actor) (request : WorkFile.ReviewInput)
  | recordRequesterDecision (actor : Actor) (request : WorkFile.RequesterDecisionInput)
  | augment (actor : Actor) (directiveId : DirectiveId) (reason : String)
  | report (actor : Actor) (request : WorkFile.ReportInput)
  | recoverIncompleteTurn (boundaryId : BoundaryId) (messageId : WorkMessageId)
      (deliveryGeneration : ℕ)
  | reconcileCompletedTurn (event : SourceEventId) (attemptNumber : ℕ)
  | recoverUnstartedWorker (event : SourceEventId) (attemptNumber : ℕ)
  | recoverAmbiguousWorker (event : SourceEventId) (attemptNumber : ℕ)
  | recoverTerminalWorker (event : SourceEventId) (attemptNumber : ℕ) (reason : String)
  | failAssignmentDependency (event : SourceEventId) (attemptNumber : ℕ)
  | recordSecondaryFailure (event : SourceEventId) (attemptNumber : ℕ)
  | finalizeCapture (capture : WorkFile.Capture)
  | reconcileAbandonedCapture (capture : WorkFile.Capture)
  | backfillRecoveryActions
  | acceptAssignment (attemptNumber : ℕ)
  | pruneMessages (handled : List WorkMessageId)
  deriving DecidableEq, Repr

namespace WorkFile

/-- The acknowledgement of an assignment by its Worker (service 18448). -/
def acceptAssignment (attemptNumber : ℕ) : FileTx PUnit := do
  let f ← get
  let a ← Tx.need (f.attempt? attemptNumber) (.service (.notFound "attempt"))
  if a.state = .assigned then setAttemptState attemptNumber .accepted else pure ⟨⟩

/-- `Database.prune`, as far as it is about messages of this Work: handled
ones are deleted, but for the evidence of continuations and resumptions. -/
def pruneMessages (handled : List WorkMessageId) : FileTx PUnit :=
  modify fun f => { f with messages := f.messages.filter fun m =>
    m.id ∉ handled ∨ (∃ c ∈ f.continuations, c.messageId = m.id) ∨
      ∃ r ∈ f.resumptions, r.messageId = m.id }

end WorkFile

/-- What a call does. -/
def Call.run (env : Env) : Call → FileTx PUnit
  | .recordBoundary actor r => WorkFile.recordBoundary env actor r
  | .acquireReasonerTurn actor b g l key token =>
      WorkFile.acquireReasonerTurn env actor b g l key token
  | .disposeBoundary actor b r => do
      let _ ← WorkFile.disposeBoundary env actor b r true
  | .createAttempt actor r => WorkFile.createAttempt env actor r
  | .resumeWork actor r => WorkFile.resumeWork env actor r
  | .replyUserNeeded actor r => WorkFile.replyUserNeeded env actor r
  | .replyOpenBoundary actor m text key token =>
      WorkFile.replyOpenBoundary env actor m text key token
  | .replaceGoal actor r reason directive intent receipt purpose => do
      WorkFile.enter env actor
      WorkFile.requireLive "terminal work cannot be revised"
      WorkFile.replaceGoal env actor.id r reason directive intent receipt purpose
  | .cancelWork actor reason directive => do
      WorkFile.enter env actor
      WorkFile.requireLive "terminal work cannot receive a cancellation directive"
      WorkFile.cancelWork env actor.id reason directive
  | .closeConversation actor attachment =>
      WorkFile.closeConversationWork env actor attachment
  | .finishWorker worker keeps => WorkFile.finishWorker worker keeps
  | .review actor r => WorkFile.review env actor r
  | .recordRequesterDecision actor r => WorkFile.recordRequesterDecision env actor r
  | .augment actor directive reason => WorkFile.augment env actor directive reason
  | .report actor r => WorkFile.report env actor r
  | .recoverIncompleteTurn b m g => WorkFile.recoverIncompleteTurn env b m g
  | .reconcileCompletedTurn event n => WorkFile.reconcileCompletedTurn env event n
  | .recoverUnstartedWorker event n => WorkFile.recoverUnstartedWorker env event n
  | .recoverAmbiguousWorker event n => WorkFile.recoverAmbiguousWorker env event n
  | .recoverTerminalWorker event n reason => WorkFile.recoverTerminalWorker env event n reason
  | .failAssignmentDependency event n => WorkFile.failAssignmentDependency env event n
  | .recordSecondaryFailure event n => WorkFile.recordSecondaryFailure env event n
  | .finalizeCapture c => WorkFile.finalizeCapture env c
  | .reconcileAbandonedCapture c => WorkFile.reconcileAbandonedCapture env c
  | .backfillRecoveryActions => WorkFile.backfillRecoveryActions env
  | .acceptAssignment n => WorkFile.acceptAssignment n
  | .pruneMessages handled => WorkFile.pruneMessages handled

/-! ## Works -/

/-- A Work to be opened. -/
structure NewWork where
  id : WorkId
  actorId : PrincipalId
  requesterId : Option PrincipalId
  attachment : Option (AttachmentId × AttachmentIdentity)
  assignment : WorkFile.WorkAssignment
  origin : WorkFile.GoalOrigin
  deriving DecidableEq, Repr

namespace NewWork

/-- The conversation of a new Work, sealed. -/
def packet (n : NewWork) (world : World) : Except ServiceError (Option AttachmentPacket) :=
  match n.attachment with
  | none => .ok none
  | some (id, identity) =>
    match world.attachmentSeal id with
    | .ok current => .ok (some (WorkFile.sealedAttachment id identity current.1 current.2))
    | .error e => .error e

/-- The first goal revision of a new Work. -/
def goal (n : NewWork) (packet : Option AttachmentPacket) : GoalRevision :=
  WorkFile.goalRevision n.id 1 n.assignment
    { n.origin with
      reason := "initial assignment", createdBy := n.actorId, sourceDirectiveId := none,
      priorVersion := none }
    n.requesterId (some n.actorId) packet

/-- **The file of a new Work**, `_create_work_tx`. -/
def file (n : NewWork) (packet : Option AttachmentPacket) (runtime : Option RuntimeId) :
    WorkFile :=
  let goal := n.goal packet
  { id := n.id
    work :=
      { supervisorId := n.actorId, supervisorAttachmentId := n.attachment.map (·.1),
        requesterId := n.requesterId, assignedWorkerId := n.assignment.workerId,
        state := .active, attentionOwner := .worker, generation := 1, goalVersion := 1,
        suspendedByWorkItemId := none, userNeededBoundaryId := none, pausedBoundaryId := none }
    attachment := n.attachment.map (·.2)
    goals := [goal]
    attempts := [WorkFile.attemptOn n.id goal 1 n.assignment.workerId runtime .assigned]
    boundaries := [], turns := [], dispositions := [], supersessions := [], continuations := []
    pauses := [], resumptions := [], messages := [], reviews := [], decisions := []
    nextNumber := 0 }

/-- The assignment that a new Work sends. -/
def assignmentMessage (n : NewWork) : MessageRequest :=
  { senderId := n.actorId, recipientId := n.assignment.workerId, kind := .assignment,
    payload := ⟨.assign, none, some 1, [], [n.assignment.objective]⟩, attemptNumber := 1,
    goalVersion := 1, idempotencyKey := .none }

end NewWork

namespace Store

/-- The Work that a new one interrupts. -/
def interrupt (interrupter : WorkId) (interrupts : Option (WorkId × World)) : StoreTx PUnit :=
  match interrupts with
  | some (target, there) => onFile target there fun _ => WorkFile.interruptTarget interrupter
  | none => pure ⟨⟩

/-- **A new Work**, which may interrupt another. -/
def createWork (world : World) (n : NewWork) (interrupts : Option (WorkId × World)) :
    StoreTx PUnit := do
  interrupt n.id interrupts
  let s ← get
  Tx.require (∀ f ∈ s.files, f.id ≠ n.id) (.integrity "work_items")
  let admission ← Tx.check world.admission
  let packet ← Tx.check (n.packet world)
  set ({ files := n.file packet admission.runtimeSessionId :: s.files } : Store)
  onFile n.id world fun env => do
    let _ ← WorkFile.message env n.assignmentMessage

/-- The Work that waits for another to end. -/
def interrupted? (s : Store) (w : WorkId) : Option WorkFile :=
  s.files.find? fun f => f.work.state = .suspended ∧ f.work.suspendedByWorkItemId = some w

/-- The end of a Worker does not return to the Works that its own Works
interrupted. -/
def returns : Call → Bool
  | .finishWorker _ _ => false
  | _ => true

/-- A call on a Work; if the Work ends by it, the Work it interrupted goes
on. -/
def call (w : WorkId) (world : World) (c : Call) (there : World) (resumer : PrincipalId) :
    StoreTx PUnit := do
  let before ← get
  onFile w world fun env => c.run env
  let after ← get
  if returns c = true ∧ (before.file? w).all (fun f => !f.work.state.terminal) ∧
      (after.file? w).any fun f => f.work.state.terminal then
    match after.interrupted? w with
    | some target => onFile target.id there fun env =>
        WorkFile.resumeInterruptedTarget env w resumer
    | none => pure ⟨⟩
  else pure ⟨⟩

/-- The expired turns of all Works, the longest expired first. -/
def expiredTurns (s : Store) (now : Instant) : List (WorkId × ReasonerTurn) :=
  (s.files.flatMap fun f => (f.expiredTurns now).map fun t => (f.id, t)).mergeSort
    fun t u => t.2.leaseExpiresAt ≤ u.2.leaseExpiresAt

/-- **`recover_expired_reasoner_turns`**: one transaction over all Works. -/
def recoverExpiredReasonerTurns (world : World) : StoreTx PUnit := do
  let s ← get
  Tx.each (fun t => onFile t.1 world fun env => WorkFile.recoverExpiredTurn env t.2)
    (s.expiredTurns world.now)

end Store

/-! ## The system -/

/-- **The transactions of the control plane.** -/
inductive Transaction where
  | createWork (world : World) (new : NewWork) (interrupts : Option (WorkId × World))
  | call (work : WorkId) (world : World) (call : Call) (there : World) (resumer : PrincipalId)
  | recoverExpiredReasonerTurns (world : World)

/-- What a transaction does. -/
def Transaction.run : Transaction → StoreTx PUnit
  | .createWork world n interrupts => Store.createWork world n interrupts
  | .call w world c there resumer => Store.call w world c there resumer
  | .recoverExpiredReasonerTurns world => Store.recoverExpiredReasonerTurns world

namespace Supervision

/-- **The control plane**: it starts with no Work and commits one
transaction after the other; a failed one changes nothing. -/
def system : TransitionSystem Store Transaction where
  init s := s.files = []
  step s t s' := Tx.commit t.run s = s'

/-- The store after a list of transactions. -/
def after (ts : List Transaction) : Store :=
  ts.foldl (fun s t => Tx.commit t.run s) ⟨[]⟩

theorem reachable_after (ts : List Transaction) : system.Reachable (after ts) := by
  unfold after
  have hinit : system.Reachable ⟨[]⟩ := .of_init rfl
  generalize (⟨[]⟩ : Store) = s at hinit
  induction ts generalizing s with
  | nil => exact hinit
  | cons t ts ih => exact ih _ (hinit.next (e := t) rfl)

/-! ### Samples

For runs on concrete inputs: a world that agrees to everything, the CAO that
supervises the sample Work, and that Work. -/

/-- A world in which every check passes and no message is refused. -/
def willing (now : Instant) : World :=
  { now, callerCurrent := .ok (), purpose := .ok (), payloadSafe := .ok (),
    cached := none, wakeReady := fun _ => true, admission := .ok ⟨false, some 30⟩,
    preflight := .clear, executionSettled := true, directivePending := true,
    completionReady := .ok (), residue := .ok (), requesterKnown := true,
    messageRefused := fun _ => none, attachmentSeal := fun _ => .ok (10, 1),
    runtimeLive := fun _ => true, recoveryRoute := fun _ => .systemReconciliation,
    wakeDispatched := fun _ => false }

/-- The CAO of the samples, in its conversation. -/
def sampleActor : Actor := { id := 7, role := .cao, attachmentId := some 5, attachmentGeneration := 1 }

/-- What the sample Work is about. -/
def sampleAssignment : WorkFile.WorkAssignment :=
  { title := "", objective := "", maturity := "", acceptance := [], nonGoals := [], priority := 0,
    metadata := "", completionContract := "", dependencies := [], workerId := 8 }

/-- A sample Work, assigned by the CAO to Worker 8. -/
def sampleWork (id : WorkId) : NewWork :=
  { id := id, actorId := 7, requesterId := some 9, attachment := some (5, ⟨7, 70, ""⟩),
    assignment := sampleAssignment,
    origin :=
      { reason := "", createdBy := 7, sourceIntentId := none, sourceDirectiveId := none,
        correlationId := none, priorVersion := none, managedTaskPolicy := none,
        workerPurpose := none } }

/-- The Worker of the sample Work. -/
def sampleWorker : Actor := { id := 8, role := .worker, attachmentId := none, attachmentGeneration := 0 }

/-- A Boundary of the first Attempt of the sample Work 1, on its packets. -/
def sampleBoundary (event : String) (kind : BoundaryKind) : WorkFile.BoundaryInput :=
  let goal := (sampleWork 1).goal (some (WorkFile.sealedAttachment 5 ⟨7, 70, ""⟩ 10 1))
  let attempt := WorkFile.attemptOn 1 goal 1 8 (some 30) .assigned
  { sourceEventId := .other event, attemptNumber := 1, expectedGoalVersion := 1,
    expectedGoalPacketDigest := attempt.goalPacketDigest,
    expectedTaskPacketDigest := attempt.taskPacketDigest, expectedGeneration := 1, kind := kind,
    summary := "",
    metadata :=
      { runtimeRecovery := false, systemRecovery := false, directiveId := none, reason := "",
        dynamicThreadRecovery := false, target := none, evidence := none, rest := "" } }

/-- The sample Work is opened. -/
def opened (id : WorkId) : Transaction := .createWork (willing 0) (sampleWork id) none

/-- A call on a Work in the willing world. -/
def called (id : WorkId) (c : Call) : Transaction := .call id (willing 0) c (willing 0) 7

end Supervision
