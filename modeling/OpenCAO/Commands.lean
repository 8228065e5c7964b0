import OpenCAO.Supervision

/-!
# Commands

The transactions of `service.py` that renew, change or end the authority
of a Work: a retry, the end of a pause, the reply to a question, the
replacement of its goal, its interruption and the return from it, a
review, the decision of the requester, the close of a conversation, and
what a Worker reports.

They stand on the statements and on the parts of a decision of
`Supervision`. Each acts on one file; a transaction that concerns two
Works is composed of one such part for each.
-/

namespace WorkFile

/-! ## Retries -/

/-- What `create_attempt` is asked for. -/
structure RetryInput where
  workerId : Option PrincipalId
  runtimeSessionId : Option RuntimeId
  reason : String
  key : Option String
  deriving DecidableEq, Repr

/-- The Worker of a retry. -/
def RetryInput.worker (r : RetryInput) (previous : Attempt) : PrincipalId :=
  r.workerId.getD previous.workerId

/-- The runtime of a retry, which stays with its Worker. -/
def RetryInput.runtime (r : RetryInput) (previous : Attempt) : Option RuntimeId :=
  match r.runtimeSessionId with
  | some id => some id
  | none => if r.worker previous = previous.workerId then previous.runtimeSessionId else none

/-- The identity of a retry: the key of the caller, or the request. -/
def RetryInput.source (r : RetryInput) (f : WorkFile) (previous : Attempt) : SourceEventId :=
  match r.key with
  | some key => .retry key
  | none => .retryRequest f.id previous.number f.work.generation (r.worker previous)
      (r.runtime previous) r.reason

/-- The Boundary that stands for a retry. -/
def RetryInput.boundaryInput (r : RetryInput) (f : WorkFile) (previous : Attempt) :
    BoundaryInput :=
  { sourceEventId := r.source f previous, attemptNumber := previous.number,
    expectedGoalVersion := f.work.goalVersion,
    expectedGoalPacketDigest := previous.goalPacketDigest,
    expectedTaskPacketDigest := previous.taskPacketDigest,
    expectedGeneration := f.work.generation, kind := .retryRequest, summary := r.reason,
    metadata :=
      { runtimeRecovery := false, systemRecovery := false, directiveId := none, reason := "",
        dynamicThreadRecovery := false,
        target := some (r.worker previous, r.runtime previous), evidence := none, rest := "" } }

/-- The decision that stands for a retry. -/
def RetryInput.decision (r : RetryInput) (f : WorkFile) (previous : Attempt) (b : Boundary)
    (decidedBy : PrincipalId) (id : DispositionId) (turnId : TurnId) : BoundaryDisposition :=
  { id := id, boundaryId := b.id, reasonerTurnId := turnId, decidedBy := decidedBy,
    generation := f.work.generation, kind := .retry, reason := r.reason, instruction := "",
    resumeCondition := "",
    requestDigest := .retryDecision b.id f.work.generation r.reason (r.worker previous)
      (r.runtime previous) }

/-- The decision to retry, with the turn that the system seals for it, and
the Attempt it starts. -/
def sealRetry (env : Env) (actor : Actor) (previous : Attempt) (b : Boundary) (r : RetryInput) :
    FileTx PUnit := do
  let f ← get
  let turnId ← newId
  let id ← newId
  let d := r.decision f previous b actor.id id turnId
  insertTurn env (sealedFor b d f.work.goalVersion env.now .none)
  insertDisposition d
  let _ ← retryAttempt env actor.id previous r.reason (some (r.worker previous)) false .assign

/-- The Work can be retried. -/
def requireRetriable : FileTx PUnit := do
  let f ← get
  Tx.require (f.work.state ≠ .completed ∧ f.work.state ≠ .canceled)
    (.service (.conflict "terminal work cannot be retried"))
  Tx.require (f.work.state ≠ .suspended)
    (.service (.conflict "suspended work cannot be retried before it resumes"))

/-- The Boundary is the one that this retry would record, at the current
authority of the Work. -/
def SameRetry (f : WorkFile) (previous : Attempt) (r : RetryInput) (b : Boundary) : Prop :=
  b.attemptNumber = previous.number ∧ b.goalVersion = f.work.goalVersion ∧
    b.generation = f.work.generation ∧ b.goalPacketDigest = previous.goalPacketDigest ∧
    b.taskPacketDigest = previous.taskPacketDigest ∧ b.kind = .retryRequest ∧
    b.summary = r.reason ∧ b.inputDigest = (r.boundaryInput f previous).digest f.id

instance (f : WorkFile) (previous : Attempt) (r : RetryInput) (b : Boundary) :
    Decidable (f.SameRetry previous r b) := by
  unfold SameRetry
  infer_instance

/-- **`create_attempt`**: a retry with its Boundary, its turn, its decision
and its Attempt. -/
def createAttempt (env : Env) (actor : Actor) (r : RetryInput) : FileTx PUnit := do
  enter env actor
  match env.cached with
  | some result => Tx.check result
  | none =>
    let f ← get
    let previous ← Tx.need f.latestAttempt?
      (.service (.conflict "work item has no attempt to retry"))
    Tx.require (env.sourceEventTaken actor.id (r.source f previous) = false)
      (.service (.conflict "retry boundary provenance does not match this request"))
    match f.boundaries.find? fun b =>
        b.sourcePrincipalId = actor.id ∧ b.sourceEventId = r.source f previous with
    | some b =>
      if f.Disposed b.id then Tx.check env.residue
      else
        requireRetriable
        Tx.require (f.SameRetry previous r b)
          (.service (.conflict "retry boundary provenance does not match this request"))
        Tx.check env.purpose
        Tx.require (∀ t ∈ f.turns, t.boundaryId = b.id → t.state ≠ .leased)
          (.service (.conflict "retry boundary has an active reasoner turn"))
        sealRetry env actor previous b r
    | none =>
      requireRetriable
      Tx.check env.purpose
      Tx.require (f.openBoundaries = [])
        (.service (.conflict "work already has an unresolved boundary"))
      let b ← recordBoundaryTx env actor.id actor.role (r.boundaryInput f previous)
      sealRetry env actor previous b r

/-! ## The end of a pause -/

/-- What `resume_work` is asked for. -/
structure WorkResumeInput where
  pauseBoundaryId : BoundaryId
  expectedGeneration : ℕ
  reason : String
  instruction : String
  deriving DecidableEq, Repr

/-- **`resume_work`**: a pause is consumed by another Attempt. -/
def resumeWork (env : Env) (actor : Actor) (r : WorkResumeInput) : FileTx PUnit := do
  Tx.check env.payloadSafe
  enter env actor
  match env.cached with
  | some result => Tx.check result
  | none =>
    Tx.check env.purpose
    let f ← get
    Tx.require (f.work.generation = r.expectedGeneration)
      (.service (.staleGeneration r.expectedGeneration f.work.generation))
    Tx.require (f.work.pausedBoundaryId = some r.pauseBoundaryId)
      (.service (.conflict "The requested pause is not current for this Work"))
    let previous ← Tx.need (f.latestAttempt?.filter fun a => a.state = .suspended)
      (.service (.conflict "Paused Work has no suspended current Attempt"))
    let a ← retryAttempt env actor.id previous r.reason none true .correct
    let g ← get
    let m ← Tx.need (g.messages.find? fun m =>
      m.attemptNumber = a.number ∧ m.kind = .assignment) .assertion
    insertResumption
      { boundaryId := r.pauseBoundaryId, previousAttemptNumber := previous.number,
        successorAttemptNumber := a.number, expectedGeneration := r.expectedGeneration,
        successorGeneration := r.expectedGeneration + 1, messageId := m.id,
        resumedBy := actor.id }

/-! ## Replies -/

/-- What a supervisor replies. -/
structure ReplyInput where
  boundaryId : BoundaryId
  expectedGeneration : ℕ
  messageText : String
  key : String
  deriving DecidableEq, Repr

/-- **`_reply_user_needed`**: the requester's decision continues the Work, in
another Attempt where its route asks for one. -/
def replyUserNeeded (env : Env) (actor : Actor) (r : ReplyInput) : FileTx PUnit := do
  Tx.check env.payloadSafe
  enter env actor
  match env.cached with
  | some result => Tx.check result
  | none =>
    Tx.check env.purpose
    let f ← get
    let a ← Tx.need (f.latestAttempt?.filter fun a =>
        f.work.generation = r.expectedGeneration ∧ f.work.state = .userNeeded ∧
          f.work.attentionOwner = .user ∧ a.state = .inputRequired)
      (.service (.conflict "requester-input continuation no longer owns the exact Work state"))
    let pointed ← currentUserNeededBoundary actor.id a
    let b ← Tx.need (pointed.filter fun b => b.id = r.boundaryId)
      (.service (.conflict "requester-input continuation contract changed"))
    let admission ← Tx.check env.admission
    if admission.newAttempt then
      let _ ← retryAttempt env actor.id a "Requester supplied the exact WAIT_USER decision" none
        false .correct
    else
      let messageId ← message env
        { senderId := actor.id, recipientId := a.workerId, kind := .instruction,
          payload := ⟨.correct, none, some r.expectedGeneration, [r.boundaryId],
            [r.messageText]⟩,
          attemptNumber := a.number, goalVersion := f.work.goalVersion,
          idempotencyKey := .userNeededReply r.boundaryId r.key }
      consumeUserNeededBoundary actor.id f.work b a.number a.number r.expectedGeneration messageId
      setAttemptState a.number .working

/-- The Boundary that a reply is about: that of the message replied to, or
the latest open one. -/
def repliedBoundary (inReplyTo : Option WorkMessageId) : FileTx BoundaryId := do
  let f ← get
  let replied ← Tx.need
    (match inReplyTo with
      | some id => (f.messages.find? fun m => m.id = id).map (·.payload.boundaryId)
      | none => some none)
    (.service (.notFound "message"))
  Tx.need (replied.or (f.openBoundaries.head?.map (·.id)))
    (.service (.conflict "work item has no unresolved boundary to answer"))

/-- **`_reply_open_boundary_tx`**: a turn is leased and decides at once. -/
def answerBoundary (env : Env) (actor : Actor) (boundaryId : BoundaryId)
    (messageText key token : String) : FileTx PUnit := do
  let f ← get
  let b ← Tx.need (f.boundary? boundaryId) (.service (.notFound "boundary"))
  Tx.require (¬ f.Disposed b.id)
    (.service (.conflict "boundary was already disposed differently"))
  let active := f.turns.find? fun t => t.supervisorId = actor.id ∧ t.state = .leased
  Tx.require (∀ t ∈ active, t.leaseExpiresAt ≤ env.now)
    (.service (.conflict "the work item already has an active reasoner turn"))
  abandonTurns fun t => t.supervisorId = actor.id
  let id ← newId
  insertTurn env <|
    leasedTurn b actor.id f.work.generation b.goalVersion id token (env.now + 180)
      (match active with | some t => .replyResume t.id | none => .other key)
  let _ ← disposeBoundary env actor boundaryId
    { turnId := id, leaseToken := token, expectedGeneration := f.work.generation,
      kind := .correct, reason := "Supervisor response to a recorded boundary",
      instruction := messageText, resumeCondition := "", workerId := none,
      runtimeSessionId := none, expectedPurposeVersion := none } false

/-- **`reply`**, where it answers an open Boundary. Where the Work awaits its
requester, its first transaction writes nothing and `replyUserNeeded` is the second. -/
def replyOpenBoundary (env : Env) (actor : Actor) (inReplyTo : Option WorkMessageId)
    (messageText key token : String) : FileTx PUnit := do
  Tx.check env.payloadSafe
  enter env actor
  match env.cached with
  | some result => Tx.check result
  | none =>
    Tx.check env.purpose
    requireNotPaused
    let f ← get
    let _ ← Tx.need f.latestAttempt? (.service (.conflict "work item has no attempt"))
    Tx.when (f.work.state ≠ .userNeeded) do
      let boundaryId ← repliedBoundary inReplyTo
      answerBoundary env actor boundaryId messageText key token

/-! ## Goals -/

/-- A goal as it is asked for, `WorkAssignment`. -/
structure WorkAssignment where
  title : String
  objective : String
  maturity : String
  acceptance : List String
  nonGoals : List String
  priority : ℕ
  metadata : String
  completionContract : String
  dependencies : List String
  workerId : PrincipalId
  deriving DecidableEq, Repr

/-- Where a goal revision comes from. -/
structure GoalOrigin where
  reason : String
  createdBy : PrincipalId
  sourceIntentId : Option ℕ
  sourceDirectiveId : Option DirectiveId
  correlationId : Option ℕ
  priorVersion : Option ℕ
  managedTaskPolicy : Option String
  workerPurpose : Option String
  deriving DecidableEq, Repr

/-- `build_goal_packet`. -/
def goalPacket (workItemId : WorkId) (version : ℕ) (r : WorkAssignment) (o : GoalOrigin)
    (requesterId supervisorId : Option PrincipalId) (attachment : Option AttachmentPacket) :
    GoalPacket :=
  { workItemId := workItemId, version := version, title := r.title, objective := r.objective,
    maturity := r.maturity, acceptance := r.acceptance, nonGoals := r.nonGoals,
    priority := r.priority, requesterId := requesterId, supervisorId := supervisorId,
    metadata := r.metadata, reason := o.reason, createdBy := o.createdBy,
    sourceIntentId := o.sourceIntentId, sourceDirectiveId := o.sourceDirectiveId,
    correlationId := o.correlationId, priorVersion := o.priorVersion,
    supervisorAttachment := attachment, completionContract := r.completionContract,
    dependencies := r.dependencies, managedTaskPolicy := o.managedTaskPolicy,
    workerPurpose := o.workerPurpose }

/-- The revision that seals a packet. -/
def goalRevision (workItemId : WorkId) (version : ℕ) (r : WorkAssignment) (o : GoalOrigin)
    (requesterId supervisorId : Option PrincipalId) (attachment : Option AttachmentPacket) :
    GoalRevision :=
  let packet := goalPacket workItemId version r o requesterId supervisorId attachment
  { version := version, title := r.title, objective := r.objective, maturity := r.maturity,
    acceptance := r.acceptance, nonGoals := r.nonGoals, priority := r.priority,
    requesterId := requesterId, supervisorId := supervisorId, metadata := r.metadata,
    packet := packet, packetDigest := .goalPacket packet, reason := o.reason,
    createdBy := o.createdBy, sourceIntentId := o.sourceIntentId,
    sourceDirectiveId := o.sourceDirectiveId, correlationId := o.correlationId,
    priorVersion := o.priorVersion,
    supervisorAttachmentGeneration := attachment.map (·.generation),
    supervisorRuntimeSessionId := attachment.map (·.runtimeSessionId),
    workerPurpose := o.workerPurpose }

/-- The packet of a conversation at a generation. -/
def sealedAttachment (id : AttachmentId) (identity : AttachmentIdentity)
    (runtimeSessionId : RuntimeId) (generation : ℕ) : AttachmentPacket :=
  { attachmentId := id, supervisorId := identity.principalId,
    runtimeSessionId := runtimeSessionId, nativeThreadId := identity.nativeThreadId,
    projectDigest := identity.projectDigest, generation := generation }

/-- `_attachment_packet_tx`, for the conversation of a Work. -/
def attachmentPacket (env : Env) : FileTx (Option AttachmentPacket) := do
  let f ← get
  match f.work.supervisorAttachmentId with
  | none => pure none
  | some id =>
    let identity ← Tx.need f.attachment (.service (.notFound "CAO attachment"))
    let current ← Tx.check (env.attachmentSeal id)
    pure (some (sealedAttachment id identity current.1 current.2))

/-- **`_replace_goal_tx`**: another goal, another Attempt, and the open
Boundaries of the goal and the generation that were current give way. -/
def replaceGoal (env : Env) (actorId : PrincipalId) (r : WorkAssignment) (reason : String)
    (directiveId : DirectiveId) (intentId receiptId : Option ℕ) (purpose : Option String) :
    FileTx PUnit := do
  requireNotPaused
  let f ← get
  let previous ← Tx.need f.latestAttempt?
    (.service (.conflict "requester-input authority has no source Attempt"))
  let continuation ← currentUserNeededBoundary actorId previous
  let admission ← Tx.check env.admission
  Tx.check env.purpose
  let prior ← currentGoal
  let attachment ← attachmentPacket env
  let version := f.work.goalVersion + 1
  let generation := f.work.generation + 1
  let goal := goalRevision f.id version r
    { reason := reason, createdBy := actorId, sourceIntentId := intentId,
      sourceDirectiveId := some directiveId, correlationId := receiptId,
      priorVersion := some f.work.goalVersion,
      managedTaskPolicy := prior.packet.managedTaskPolicy, workerPurpose := purpose }
    f.work.requesterId (some f.work.supervisorId) attachment
  fenceReasonerTurns
  let number := previous.number + 1
  insertGoal goal
  startAttempt previous
    (if continuation.isSome then .replaceReassign r.workerId else .replace r.workerId)
    (attemptOn f.id goal number r.workerId admission.runtimeSessionId
      (if f.work.state = .suspended then .suspended else .assigned))
  let messageId ← message env
    { senderId := actorId, recipientId := r.workerId, kind := .assignment,
      payload := ⟨.assign, none, some generation, [], [r.objective, reason]⟩,
      attemptNumber := number, goalVersion := version, idempotencyKey := .replace directiveId }
  consume actorId f.work continuation previous.number number generation messageId
  supersedeBoundaries
    (fun b => b.goalVersion = f.work.goalVersion ∧ b.generation = f.work.generation)
    .goalReplaced

/-! ## Interruptions -/

/-- The target of a Work that interrupts it, `_create_work_tx` with the
relation `INTERRUPT`. -/
def interruptTarget (interruptingWorkId : WorkId) : FileTx PUnit := do
  requireLive "terminal work cannot receive a new intent relation"
  let f ← get
  Tx.require (f.work.state ≠ .userNeeded ∧ f.work.userNeededBoundaryId = none)
    (.service (.conflict
      "requester-input Work cannot be interrupted before its exact decision"))
  fenceReasonerTurns
  move (.interrupt interruptingWorkId)
  match f.latestAttempt? with
  | some a => if a.state.terminal then pure ⟨⟩ else setAttemptState a.number .suspended
  | none => pure ⟨⟩

/-- **`_resume_interrupted_target_tx`**: the target of a Work that ended goes
on, unless no command can reach its Worker now. -/
def resumeInterruptedTarget (env : Env) (completedWorkId : WorkId) (actorId : PrincipalId) :
    FileTx PUnit := do
  let f ← get
  if f.work.state = .suspended ∧ f.work.suspendedByWorkItemId = some completedWorkId then
    fenceReasonerTurns
    match f.latestAttempt? with
    | none =>
      move .resume
    | some a =>
      match env.admission with
      | .error (.conflict _) => pure ⟨⟩
      | .error e => throw (.service e)
      | .ok admission =>
        if admission.newAttempt then
          let _ ← retryAttempt env actorId a "Resume exact Work after interrupt completion" none
            false .resume
          move .release
        else
          move .resume
          Tx.when (a.state = .suspended) (setAttemptState a.number .working)
          let _ ← message env
            { senderId := actorId, recipientId := a.workerId, kind := .instruction,
              payload := ⟨.resume, none, some (f.work.generation + 1), [], []⟩,
              attemptNumber := a.number, goalVersion := f.work.goalVersion,
              idempotencyKey := .resume completedWorkId f.id }
  else pure ⟨⟩

/-! ## Reviews and requester decisions -/

/-- The verdict on the latest open completion of an Attempt, or on its
submitted claim. -/
structure ReviewInput where
  attemptNumber : ℕ
  verdict : ReviewVerdict
  summary : String
  key : MessageKey
  deriving DecidableEq, Repr

/-- The open completion Boundary that a review of an Attempt is about. -/
def openCompletion? (f : WorkFile) (attemptNumber : ℕ) : Option Boundary :=
  f.openBoundaries.find? fun b => b.attemptNumber = attemptNumber ∧
    (b.kind = .completion ∨ b.kind = .workerOutput) ∧ b.generation = f.work.generation

/-- **`review`**. A review of an open Boundary waits for its disposition; a
review of a submitted claim takes effect at once. -/
def review (env : Env) (actor : Actor) (r : ReviewInput) : FileTx PUnit := do
  Tx.require (actor.role = .cao) (.service (.authorization "role"))
  Tx.check (if actor.attachmentId.isSome then env.callerCurrent else .ok ())
  let f ← get
  let a ← Tx.need (f.attempt? r.attemptNumber) (.service (.notFound "attempt"))
  authorizeWorkActor actor
  Tx.require (f.work.supervisorAttachmentId.isSome →
      actor.attachmentId = f.work.supervisorAttachmentId)
    (.service (.authorization
      "attached Work must be reviewed from its originating CAO conversation"))
  match env.cached with
  | some result => Tx.check result
  | none =>
    Tx.check env.purpose
    let completion := f.openCompletion? r.attemptNumber
    let reviewsOpenBoundary := completion.isSome ∧ f.work.state = .waitingSupervisor ∧
      a.state = .waitingSupervisor
    Tx.require (reviewsOpenBoundary ∨ (f.work.state = .waitingReview ∧ a.state = .submitted))
      (.service (.conflict
        "CAO review requires an unresolved Worker output or completion claim"))
    let goal ← currentGoal
    Tx.require (a.goalVersion = f.work.goalVersion ∧ a.goalPacketDigest = goal.packetDigest)
      (.service (.conflict "review targets a stale or partial task packet"))
    Tx.check env.completionReady
    Tx.require (reviewsOpenBoundary →
        ∀ b ∈ completion, ∀ q ∈ f.reviews, q.boundaryId ≠ some b.id)
      (.service (.conflict "completion boundary already has a CAO review"))
    let id ← newId
    insertReview
      { id := id, attemptNumber := a.number,
        boundaryId := if reviewsOpenBoundary then completion.map (·.id) else none,
        reviewerId := actor.id, reviewerRole := actor.role,
        supervisorAttachmentId := actor.attachmentId,
        supervisorAttachmentGeneration :=
          actor.attachmentId.map fun _ => actor.attachmentGeneration,
        workGeneration := f.work.generation, goalVersion := a.goalVersion,
        goalPacketDigest := a.goalPacketDigest, taskPacketDigest := a.taskPacketDigest,
        verdict := r.verdict }
    if reviewsOpenBoundary then pure ⟨⟩
    else
      match r.verdict with
      | .ok =>
        advance a.number .verified .present
        let _ ← message env
          { senderId := actor.id,
            recipientId := if f.work.supervisorAttachmentId.isSome then f.work.supervisorId
              else f.work.requesterId.getD f.work.supervisorId,
            kind := .review, payload := ⟨.review, none, none, [id], [r.summary]⟩,
            attemptNumber := a.number, goalVersion := f.work.goalVersion,
            idempotencyKey := r.key }
      | .needsWork =>
        advance a.number (.inState .waitingSupervisor) .supervise
        let b ← recordBoundaryTx env actor.id actor.role
          { sourceEventId := .reviewNeedsWork id, attemptNumber := a.number,
            expectedGoalVersion := f.work.goalVersion,
            expectedGoalPacketDigest := a.goalPacketDigest,
            expectedTaskPacketDigest := a.taskPacketDigest,
            expectedGeneration := f.work.generation, kind := .reviewRejected,
            summary := r.summary,
            metadata :=
              { runtimeRecovery := false, systemRecovery := false, directiveId := none,
                reason := "", dynamicThreadRecovery := false, target := none,
                evidence := some id, rest := "" } }
        let _ ← message env
          { senderId := actor.id, recipientId := f.work.supervisorId, kind := .review,
            payload := ⟨.review, some b.id, none, [id], [r.summary]⟩,
            attemptNumber := a.number, goalVersion := f.work.goalVersion,
            idempotencyKey := r.key }

/-- What a requester decided, as the conversation records it. -/
structure RequesterDecisionInput where
  reviewId : ReviewId
  accepted : Bool
  summary : String
  deriving DecidableEq, Repr

/-- The result is accepted: the Work ends. -/
def acceptResult (d : RequesterDecision) : FileTx PUnit := do
  fenceReasonerTurns
  move .complete
  insertDecision d

/-- The result is rejected: the rejection is a Boundary. -/
def rejectResult (env : Env) (actor : Actor) (a : Attempt) (d : RequesterDecision)
    (summary : String) : FileTx PUnit := do
  let f ← get
  advance a.number (.inState .waitingSupervisor) .supervise
  let _ ← recordBoundaryTx env actor.id actor.role
    { sourceEventId := .requesterDecisionRejected d.id, attemptNumber := a.number,
      expectedGoalVersion := f.work.goalVersion,
      expectedGoalPacketDigest := a.goalPacketDigest,
      expectedTaskPacketDigest := a.taskPacketDigest,
      expectedGeneration := f.work.generation, kind := .userRejection, summary := summary,
      metadata :=
        { runtimeRecovery := false, systemRecovery := false, directiveId := none, reason := "",
          dynamicThreadRecovery := false, target := none, evidence := some d.id, rest := "" } }
  insertDecision d

/-- **`record_requester_decision`**: the verified result is accepted, which
ends the Work, or rejected, which opens a Boundary. -/
def recordRequesterDecision (env : Env) (actor : Actor) (r : RequesterDecisionInput) :
    FileTx PUnit := do
  Tx.require (actor.role = .cao) (.service (.authorization "role"))
  let attachmentId ← Tx.need actor.attachmentId
    (.service (.authorization "requester decisions require an attached CAO conversation"))
  Tx.check env.payloadSafe
  Tx.check env.callerCurrent
  let f ← get
  let q ← Tx.need (f.reviews.find? fun q => q.id = r.reviewId) (.service (.notFound "review"))
  let a ← Tx.need (f.attempt? q.attemptNumber) .assertion
  authorizeWorkActor actor
  let requesterId ← Tx.need (f.work.requesterId.filter fun _ => env.requesterKnown)
    (.service (.conflict "review-bound WorkItem requester authority is unavailable"))
  Tx.require (q.supervisorAttachmentId = some attachmentId ∧
      ∃ g ∈ q.supervisorAttachmentGeneration, g ≤ actor.attachmentGeneration)
    (.service (.authorization "review belongs to another CAO conversation generation"))
  match env.cached with
  | some result => Tx.check result
  | none =>
    Tx.check env.purpose
    Tx.require (q.verdict = .ok)
      (.service (.conflict "requester decision requires an OK CAO review"))
    let goal ← currentGoal
    Tx.require (q.goalVersion = f.work.goalVersion ∧ q.goalPacketDigest = a.goalPacketDigest ∧
        q.taskPacketDigest = a.taskPacketDigest ∧ goal.packetDigest = a.goalPacketDigest)
      (.service (.conflict "requester decision targets a stale review packet"))
    Tx.require (f.work.state = .waitingUser ∧ a.state = .completed ∧
        a.evidenceConfidence = .verified)
      (.service (.conflict
        "requester decision requires a verified result awaiting its requester"))
    Tx.check (if r.accepted then env.completionReady else .ok ())
    let request := Digest.requesterDecision attachmentId r.reviewId r.accepted r.summary
    match f.decisions.find? fun d => d.reviewId = q.id with
    | some d =>
      Tx.require (d.requestDigest = request)
        (.service (.conflict "CAO review already has a different requester decision"))
    | none =>
      let id ← newId
      let d : RequesterDecision :=
        { id := id, attemptNumber := a.number, reviewId := q.id, requesterId := requesterId,
          recordedBy := actor.id, supervisorAttachmentId := attachmentId,
          supervisorAttachmentGeneration := actor.attachmentGeneration,
          goalVersion := a.goalVersion, goalPacketDigest := a.goalPacketDigest,
          taskPacketDigest := a.taskPacketDigest,
          workGeneration := if r.accepted then f.work.generation + 1 else f.work.generation,
          accepted := r.accepted, requestDigest := request }
      if r.accepted then acceptResult d else rejectResult env actor a d r.summary

/-! ## Conversations -/

/-- **`_dispose_conversation_close_boundaries_tx`** on one Boundary. -/
def closeBoundary (env : Env) (actor : Actor) (attachmentId : AttachmentId) (b : Boundary) :
    FileTx PUnit := do
  let turnId ← newId
  let id ← newId
  let decision := Digest.closeDecision attachmentId actor.attachmentGeneration
  insertTurn env <|
    sealedTurn b actor.id b.generation b.goalVersion turnId b.inputDigest decision env.now
      (.conversationClose attachmentId actor.attachmentGeneration b.id)
  insertDisposition
    { id := id, boundaryId := b.id, reasonerTurnId := turnId, decidedBy := actor.id,
      generation := b.generation, kind := .cancel,
      reason := "The requester explicitly closed this CAO conversation.", instruction := "",
      resumeCondition := "", requestDigest := decision }

/-- The part of `close_cao_conversation` about one Work of the conversation:
its open Boundaries are cancelled, then the Work itself, unless it had
ended. -/
def closeConversationWork (env : Env) (actor : Actor) (attachmentId : AttachmentId) :
    FileTx PUnit := do
  let f ← get
  Tx.each (closeBoundary env actor attachmentId) f.openBoundaries.reverse
  if f.work.state.terminal then pure ⟨⟩
  else cancelWork env actor.id "The requester explicitly closed this CAO conversation." none

/-! ## Workers -/

/-- The Attempts that are not over end. -/
def endAttempts (f : WorkFile) : WorkFile :=
  { f with
    attempts := Rows.update (fun a => !a.state.terminal) (Attempt.inState .canceled) f.attempts }

/-- The part of `_terminalize_worker_thread_for_delete_tx`, by which a logical
Worker is finished or deleted, about one Work that had not ended. -/
def finishWorker (workerId : PrincipalId) (keepsSuspension : Bool) : FileTx PUnit := do
  let f ← get
  Tx.require (∀ a ∈ f.attempts, a.state.terminal = false → a.workerId = workerId)
    (.service (.conflict "managed Worker thread cannot be finished safely"))
  if f.work.state.terminal then pure ⟨⟩
  else
    fenceReasonerTurns
    move (.finish keepsSuspension)
    modify endAttempts
    supersedeBoundaries (fun b => b.generation ≤ f.work.generation) .workCanceled

/-- What a Worker reports. -/
inductive ReportKind where
  | progress | question | blocker | completionClaim
  deriving DecidableEq, Repr

/-- The Boundary that a report opens, if it needs a decision. -/
def ReportKind.boundaryKind : ReportKind → Option BoundaryKind
  | .progress => none
  | .question => some .question
  | .blocker => some .blocker
  | .completionClaim => some .completion

/-- The Attempt that made a report for its supervisor. -/
def ReportKind.reported (kind : ReportKind) (a : Attempt) : Attempt :=
  { a with
    state := .waitingSupervisor,
    evidenceConfidence := if kind = .completionClaim then .declared else a.evidenceConfidence }

/-- A report on an Attempt. -/
structure ReportInput where
  kind : ReportKind
  attemptNumber : ℕ
  expectedGoalVersion : ℕ
  expectedGoalPacketDigest : Digest
  expectedTaskPacketDigest : Digest
  expectedGeneration : ℕ
  sourceEventId : SourceEventId
  summary : String
  key : MessageKey
  deriving DecidableEq, Repr

/-- **`report`**. -/
def report (env : Env) (actor : Actor) (r : ReportInput) : FileTx PUnit := do
  let f ← get
  let a ← Tx.need (f.attempt? r.attemptNumber) (.service (.notFound "attempt"))
  Tx.require (a.workerId = actor.id)
    (.service (.authorization "Worker cannot report for another Worker's attempt"))
  Tx.check env.callerCurrent
  Tx.require (f.work.assignedWorkerId = actor.id)
    (.service (.authorization "work item is outside this principal's scope"))
  match env.cached with
  | some result => Tx.check result
  | none =>
    Tx.require (f.work.goalVersion = r.expectedGoalVersion)
      (.service (.staleGoal r.expectedGoalVersion f.work.goalVersion))
    Tx.require (a.goalPacketDigest = r.expectedGoalPacketDigest ∧
        a.taskPacketDigest = r.expectedTaskPacketDigest ∧ a.goalVersion = r.expectedGoalVersion)
      (.service (.conflict "report targets a stale or partial task packet"))
    Tx.require (f.work.generation = r.expectedGeneration)
      (.service (.staleGeneration r.expectedGeneration f.work.generation))
    Tx.require (f.latestAttempt? = some a)
      (.service (.conflict "report targets a superseded attempt"))
    Tx.require (a.state ≠ .suspended ∧ a.state.terminal = false)
      (.service (.conflict "attempt cannot report in its current state"))
    Tx.require (f.work.state.terminal = false)
      (.service (.conflict "cannot report against terminal work"))
    Tx.require (∀ b ∈ f.openBoundaries, b.attemptNumber ≠ r.attemptNumber)
      (.service (.conflict "attempt already has an unresolved supervisor boundary"))
    match r.kind.boundaryKind with
    | none =>
      advance a.number (.inState .working) .goOn
      let _ ← message env
        { senderId := actor.id, recipientId := f.work.supervisorId, kind := .report,
          payload := ⟨.report, none, none, [], [r.summary]⟩, attemptNumber := a.number,
          goalVersion := f.work.goalVersion, idempotencyKey := r.key }
    | some kind =>
      advance a.number (r.kind.reported) .supervise
      let b ← recordBoundaryTx env actor.id .worker
        { sourceEventId := r.sourceEventId, attemptNumber := r.attemptNumber,
          expectedGoalVersion := f.work.goalVersion,
          expectedGoalPacketDigest := r.expectedGoalPacketDigest,
          expectedTaskPacketDigest := r.expectedTaskPacketDigest,
          expectedGeneration := r.expectedGeneration, kind := kind, summary := r.summary,
          metadata :=
            { runtimeRecovery := false, systemRecovery := false, directiveId := none,
              reason := "", dynamicThreadRecovery := false, target := none, evidence := none,
              rest := "" } }
      let _ ← message env
        { senderId := actor.id, recipientId := f.work.supervisorId, kind := .report,
          payload := ⟨.report, some b.id, none, [], [r.summary]⟩, attemptNumber := a.number,
          goalVersion := f.work.goalVersion, idempotencyKey := r.key }

end WorkFile
