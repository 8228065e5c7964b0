import OpenCAO.Statements

/-!
# Supervision

The transactions of `service.py` by which Boundaries come into being and
are settled: recording one, leasing a turn to reason about it, deciding,
and the recovery of a supervision that did not decide. With them stand the
commands that a decision can issue – another Attempt, a pause, the
cancellation of the Work – since a decision runs them within its own
transaction.
-/

namespace WorkFile

/-! ## Callers -/

/-- `_authorize_work_actor`, for a CAO. -/
def authorizeWorkActor (actor : Actor) : FileTx PUnit := do
  let f ← get
  Tx.require (actor.attachmentId.isSome → f.work.supervisorAttachmentId = actor.attachmentId)
    (.service (.authorization "work item belongs to another CAO conversation"))

/-- What every transaction of a CAO on a Work starts with: its role, its
conversation, its authority over the Work. -/
def enter (env : Env) (actor : Actor) : FileTx PUnit := do
  Tx.require (actor.role = .cao) (.service (.authorization "role"))
  Tx.check (if actor.attachmentId.isSome then env.callerCurrent else .ok ())
  authorizeWorkActor actor

/-- `require_not_paused`. -/
def requireNotPaused : FileTx PUnit := do
  let f ← get
  Tx.require (f.work.pausedBoundaryId = none)
    (.service (.conflict "Work is paused; use its exact explicit resume contract"))

/-- A terminal Work takes no new command. -/
def requireLive (message : String) : FileTx PUnit := do
  let f ← get
  Tx.require (f.work.state.terminal = false) (.service (.conflict message))

/-- `_current_goal_tx`. -/
def currentGoal : FileTx GoalRevision := do
  let f ← get
  Tx.need (f.goal? f.work.goalVersion) (.runtimeError "work item current goal pointer is invalid")

/-! ## Boundaries -/

/-- What a Boundary is recorded from, `BoundaryInput`. -/
structure BoundaryInput where
  sourceEventId : SourceEventId
  attemptNumber : ℕ
  expectedGoalVersion : ℕ
  expectedGoalPacketDigest : Digest
  expectedTaskPacketDigest : Digest
  expectedGeneration : ℕ
  kind : BoundaryKind
  summary : String
  metadata : BoundaryMetadata
  deriving DecidableEq, Repr

/-- The digest of the whole input. -/
def BoundaryInput.digest (r : BoundaryInput) (workItemId : WorkId) : Digest :=
  .boundaryInput r.sourceEventId workItemId r.attemptNumber r.expectedGoalVersion
    r.expectedGoalPacketDigest r.expectedTaskPacketDigest r.expectedGeneration r.kind r.summary
    r.metadata

/-- `_boundary_recovery_action`. -/
def boundaryRecoveryAction (m : BoundaryMetadata) : RecoveryAction :=
  if m.systemRecovery then .systemReconciliation
  else if !m.runtimeRecovery then .none
  else if m.reason = "runtime_unavailable" ∨ m.reason = "runtime_dispatch_failed" ∨
      (m.reason = "runtime_provider_rate_limited" ∧ m.dynamicThreadRecovery = true) then
    .disposeContinueOrCorrect
  else .systemReconciliation

/-- `_supersede_boundary_deliveries_tx`, of which a file knows the turns:
those leased for the Boundary lose their lease. -/
def supersedeBoundaryDeliveries (id : BoundaryId) : FileTx PUnit :=
  abandonTurns fun t => t.boundaryId = id

/-- The open failures that a recovery owns. -/
def openRecoveries (f : WorkFile) : List Boundary :=
  f.openBoundaries.filter fun b => b.kind = .failure ∧ b.Recovering

/-- The latest open recovery of an Attempt stands for all of them. -/
def canonicalRecovery? (f : WorkFile) (attemptNumber : ℕ) : Option Boundary :=
  f.openRecoveries.find? fun b => b.attemptNumber = attemptNumber

/-- The open recoveries of one Attempt that a later one replaces: they have
one generation, and no wake of any of them is being handed off. -/
def staleRecoveries (env : Env) (f : WorkFile) : List Boundary :=
  f.openRecoveries.filter fun b =>
    f.canonicalRecovery? b.attemptNumber ≠ some b ∧
      ∀ c ∈ f.openRecoveries, c.attemptNumber = b.attemptNumber →
        c.generation = b.generation ∧ env.wakeDispatched c.id = false

/-- The class of a recovery, derived again from what can be proved now; it
is executable only as the one open recovery of its Attempt. -/
def rederived (env : Env) (f : WorkFile) (b : Boundary) : Boundary :=
  { b with recoveryAction :=
      if (f.openRecoveries.filter fun c => c.attemptNumber = b.attemptNumber).map (·.id) = [b.id]
      then env.recoveryRoute b.id
      else .systemReconciliation }

/-- The Boundaries with the classes of the recoveries that were open in
`f` derived again from those that are open in `g`. -/
def rederive (env : Env) (f g : WorkFile) : List Boundary :=
  Rows.update (fun b => f.openRecoveries.any fun c => c.id = b.id) (rederived env g) g.boundaries

/-- **`_backfill_managed_worker_recovery_actions`**, as far as it is about
this Work: open recoveries are reduced to one for each Attempt, and their
classes derived again. -/
def backfillRecoveryActions (env : Env) : FileTx PUnit := do
  let f ← get
  abandonTurns fun t => ∃ s ∈ f.supersessions,
    s.boundaryId = t.boundaryId ∧ s.reason = .recoveryBoundaryReplaced
  Tx.each (fun b => do
    insertSupersession ⟨b.id, .recoveryBoundaryReplaced⟩
    supersedeBoundaryDeliveries b.id) (f.staleRecoveries env)
  let g ← get
  set { g with boundaries := rederive env f g }

/-- **`_record_boundary_tx`**: a fact about the latest Attempt at the current
authority of its Work, once for each source event. -/
def recordBoundaryTx (env : Env) (sourceId : PrincipalId) (role : PrincipalRole)
    (r : BoundaryInput) : FileTx Boundary := do
  let f ← get
  match f.boundaries.find? fun b =>
      b.sourcePrincipalId = sourceId ∧ b.sourceEventId = r.sourceEventId with
  | some b =>
    Tx.require (b.inputDigest = r.digest f.id)
      (.service (.conflict "boundary source identity was reused with different data"))
    Tx.when (r.metadata.runtimeRecovery = true) (backfillRecoveryActions env)
    pure b
  | none =>
    Tx.require (env.sourceEventTaken sourceId r.sourceEventId = false)
      (.service (.conflict "boundary source identity was reused with different data"))
    let a ← Tx.need (f.attempt? r.attemptNumber)
      (.service (.validation "boundary attempt does not belong to the work item"))
    Tx.require (role = .worker → a.workerId = sourceId)
      (.service (.authorization "Worker cannot record another Worker's boundary"))
    Tx.require (f.work.goalVersion = r.expectedGoalVersion)
      (.service (.staleGoal r.expectedGoalVersion f.work.goalVersion))
    Tx.require (a.goalPacketDigest = r.expectedGoalPacketDigest ∧
        a.taskPacketDigest = r.expectedTaskPacketDigest ∧ a.goalVersion = r.expectedGoalVersion)
      (.service (.conflict "boundary targets a stale or partial task packet"))
    Tx.require (f.work.generation = r.expectedGeneration)
      (.service (.staleGeneration r.expectedGeneration f.work.generation))
    Tx.require (f.latestAttempt? = some a)
      (.service (.conflict "boundary targets a superseded attempt"))
    requireNotPaused
    let id ← newId
    let b : Boundary :=
      { id := id, sourcePrincipalId := sourceId, sourceEventId := r.sourceEventId,
        attemptNumber := r.attemptNumber, goalVersion := r.expectedGoalVersion,
        generation := r.expectedGeneration, goalPacketDigest := r.expectedGoalPacketDigest,
        taskPacketDigest := r.expectedTaskPacketDigest, kind := r.kind, summary := r.summary,
        metadata := r.metadata, recoveryAction := boundaryRecoveryAction r.metadata,
        inputDigest := r.digest f.id }
    insertBoundary env b
    Tx.when (r.metadata.runtimeRecovery = true) (backfillRecoveryActions env)
    pure b

/-- **`record_boundary`**, with the wake that asks the supervisor to look. -/
def recordBoundary (env : Env) (actor : Actor) (r : BoundaryInput) : FileTx PUnit := do
  Tx.require (actor.role = .worker ∨ actor.role = .cao) (.service (.authorization "role"))
  let b ← recordBoundaryTx env actor.id actor.role r
  let f ← get
  let _ ← message env
    { senderId := actor.id, recipientId := f.work.supervisorId, kind := .system,
      payload := ⟨.reviewRuntimeBoundary, some b.id, some r.expectedGeneration, [], []⟩,
      attemptNumber := r.attemptNumber, goalVersion := r.expectedGoalVersion,
      idempotencyKey := .runtimeBoundary b.id }

/-! ## Turns -/

/-- The digest of what a turn reasons about. -/
def turnInputDigest (b : Boundary) (generation : ℕ) : Digest :=
  .turnInput b.id b.inputDigest b.goalPacketDigest b.taskPacketDigest generation

/-- A turn leased about a Boundary. -/
def leasedTurn (b : Boundary) (supervisorId : PrincipalId) (generation goalVersion : ℕ)
    (id : TurnId) (token : String) (expires : Instant) (key : TurnKey) : ReasonerTurn :=
  { id := id, supervisorId := supervisorId, boundaryId := b.id, generation := generation,
    goalVersion := goalVersion, goalPacketDigest := b.goalPacketDigest,
    taskPacketDigest := b.taskPacketDigest, inputDigest := turnInputDigest b generation,
    resultDigest := none, state := .leased, leaseToken := some token, leaseExpiresAt := expires,
    idempotencyKey := key }

/-- A turn that the system seals together with its result. -/
def sealedTurn (b : Boundary) (supervisorId : PrincipalId) (generation goalVersion : ℕ)
    (id : TurnId) (input result : Digest) (now : Instant) (key : TurnKey) : ReasonerTurn :=
  { id := id, supervisorId := supervisorId, boundaryId := b.id, generation := generation,
    goalVersion := goalVersion, goalPacketDigest := b.goalPacketDigest,
    taskPacketDigest := b.taskPacketDigest, inputDigest := input, resultDigest := some result,
    state := .completed, leaseToken := none, leaseExpiresAt := now, idempotencyKey := key }

/-- The open Boundary that `acquire_reasoner_turn` is about: the one it
names, or the only one. -/
def selectedBoundary (boundaryId : Option BoundaryId) (generation : ℕ) (f : WorkFile) :
    Option Boundary :=
  match boundaryId with
  | some id => (f.boundary? id).filter fun b => b.generation = generation ∧ f.Open b.id
  | none =>
    match f.openBoundaries.filter fun b => b.generation = generation with
    | [b] => some b
    | _ => none

/-- **`acquire_reasoner_turn`**: the only decision lease of a supervisor on
a Work. -/
def acquireReasonerTurn (env : Env) (actor : Actor) (boundaryId : Option BoundaryId)
    (expectedGeneration leaseSeconds : ℕ) (key : TurnKey) (token : String) :
    FileTx PUnit := do
  Tx.require (actor.role = .cao) (.service (.authorization "role"))
  Tx.require (key ≠ .none) (.service (.validation "reasoner turn requires an idempotency key"))
  Tx.require (15 ≤ leaseSeconds ∧ leaseSeconds ≤ 86400)
    (.service (.validation "reasoner turn lease must be between 15 and 86400 seconds"))
  enter env actor
  let f ← get
  Tx.require (f.work.supervisorAttachmentId.isSome → actor.attachmentId.isSome)
    (.service (.authorization
      "attached Work must be reviewed from its originating CAO conversation"))
  Tx.require (f.work.supervisorId = actor.id)
    (.service (.authorization "only the assigned supervisor can reason about work"))
  backfillRecoveryActions env
  match env.cached with
  | some result => Tx.check result
  | none =>
    let f ← get
    Tx.require (f.work.generation = expectedGeneration)
      (.service (.staleGeneration expectedGeneration f.work.generation))
    Tx.require (f.work.state.terminal = false ∧ f.work.state ≠ .suspended)
      (.service (.conflict "work is not available for a reasoner turn"))
    let b ← Tx.need (f.selectedBoundary boundaryId expectedGeneration)
      (.service (.conflict "reasoner turn boundary is missing, stale, or already disposed"))
    Tx.require (b.goalVersion = f.work.goalVersion)
      (.service (.conflict "reasoner turn boundary targets a stale goal revision"))
    Tx.require (b.Recovering → b.recoveryAction.actionable = true)
      (.service (.conflict "system recovery boundary requires its recovery workflow"))
    let goal ← currentGoal
    let a ← Tx.need (f.attempt? b.attemptNumber)
      (.service (.conflict "reasoner turn boundary has a stale task packet"))
    Tx.require (b.goalPacketDigest = goal.packetDigest ∧
        b.goalPacketDigest = a.goalPacketDigest ∧ b.taskPacketDigest = a.taskPacketDigest)
      (.service (.conflict "reasoner turn boundary has a stale task packet"))
    Tx.require (∀ t ∈ f.turns, t.supervisorId = actor.id → t.state = .leased →
        t.leaseExpiresAt ≤ env.now)
      (.service (.conflict "the work item already has an active reasoner turn"))
    abandonTurns fun t => t.supervisorId = actor.id
    let id ← newId
    insertTurn env <|
      leasedTurn b actor.id expectedGeneration f.work.goalVersion id token
        (env.now + leaseSeconds) key

/-! ## Another Attempt -/

/-- **`_current_user_needed_boundary_tx`**: the Boundary whose requester
decision a continuation consumes, if the Work awaits one. -/
def currentUserNeededBoundary (actorId : PrincipalId) (source : Attempt) :
    FileTx (Option Boundary) := do
  let f ← get
  if f.work.state ≠ .userNeeded then
    Tx.require (f.work.userNeededBoundaryId = none)
      (.runtimeError "non-user-needed Work retains a WAIT_USER boundary")
    pure none
  else
    let id ← Tx.need f.work.userNeededBoundaryId
      (.service (.conflict "requester-input authority is unresolved"))
    let b ← Tx.need (f.boundary? id)
      (.service (.conflict "requester-input continuation contract changed"))
    Tx.require (f.Decided .waitUser actorId f.work.generation b source ∧ ¬ f.Continued b.id ∧
        (∀ c ∈ f.openBoundaries, c.generation ≠ f.work.generation) ∧
        f.work.attentionOwner = .user)
      (.service (.conflict "requester-input continuation contract changed"))
    pure (some b)

/-- **`_consume_user_needed_boundary_tx`**: one continuation, then the
pointer is cleared. -/
def consumeUserNeededBoundary (actorId : PrincipalId) (work : Work) (b : Boundary)
    (source successor : ℕ) (generation : ℕ) (messageId : WorkMessageId) : FileTx PUnit := do
  insertContinuation
    { boundaryId := b.id, sourceAttemptNumber := source, sourceGeneration := work.generation,
      successorAttemptNumber := successor, successorGeneration := generation,
      messageId := messageId, decidedBy := actorId }
  let f ← get
  Tx.require (f.work.state = .userNeeded ∧ f.work.attentionOwner = .user ∧
      f.work.generation = work.generation ∧ f.work.userNeededBoundaryId = some b.id)
    (.service (.conflict "requester-input continuation lost its Work fence"))
  move (.consume generation)

/-- The continuation of a Work that awaited its requester. -/
def consume (actorId : PrincipalId) (work : Work) (continuation : Option Boundary)
    (source successor : ℕ) (generation : ℕ) (messageId : WorkMessageId) : FileTx PUnit :=
  match continuation with
  | some b => consumeUserNeededBoundary actorId work b source successor generation messageId
  | none => pure ⟨⟩

/-- The task packet of an Attempt, sealed with the conversation of its
goal. -/
def taskPacketDigest (workItemId : WorkId) (goal : GoalRevision) (number : ℕ)
    (workerId : PrincipalId) (runtime : Option RuntimeId) : Digest :=
  .taskPacket goal.packetDigest workItemId goal.version number workerId runtime
    goal.packet.supervisorAttachment goal.packet.dependencies

/-- An Attempt on a goal. -/
def attemptOn (workItemId : WorkId) (goal : GoalRevision) (number : ℕ) (workerId : PrincipalId)
    (runtime : Option RuntimeId) (state : AttemptState) : Attempt :=
  { number := number, workerId := workerId, runtimeSessionId := runtime,
    goalVersion := goal.version, goalPacketDigest := goal.packetDigest,
    taskPacketDigest := taskPacketDigest workItemId goal number workerId runtime, state := state,
    evidenceConfidence := .unknown }

/-- An Attempt that is replaced is given up, unless it had ended. -/
def givenUp (previous : Attempt) (f : WorkFile) : WorkFile :=
  if previous.state.terminal then f else withAttempt previous.number (.inState .canceled) f

/-- Another Attempt takes the place of the previous one. -/
def startAttempt (previous : Attempt) (m : Move) (a : Attempt) : FileTx PUnit := do
  modify (givenUp previous)
  move m
  insertAttempt a

/-- **`_retry_attempt_tx`**: another Attempt on the current goal. Where the
Work awaits its requester, the new Attempt consumes the decision; otherwise
the authority of the Work is renewed at once. -/
def retryAttempt (env : Env) (actorId : PrincipalId) (previous : Attempt) (reason : String)
    (workerId : Option PrincipalId) (resumePaused : Bool) (action : MessageAction) :
    FileTx Attempt := do
  Tx.when (resumePaused = false) requireNotPaused
  let goal ← currentGoal
  let continuation ← currentUserNeededBoundary actorId previous
  let admission ← Tx.check env.admission
  let f ← get
  let number := previous.number + 1
  let worker := workerId.getD previous.workerId
  fenceReasonerTurns
  let a := attemptOn f.id goal number worker admission.runtimeSessionId .assigned
  startAttempt previous
    (if continuation.isSome then .reassign worker else .renew worker resumePaused) a
  Tx.check env.payloadSafe
  let messageId ← message env
    { senderId := actorId, recipientId := worker, kind := .assignment,
      payload := ⟨action, none, some (f.work.generation + 1), [], [goal.objective, reason]⟩,
      attemptNumber := number, goalVersion := f.work.goalVersion,
      idempotencyKey := .retry f.id previous.number }
  consume actorId f.work continuation previous.number number (f.work.generation + 1) messageId
  pure a

/-! ## Pauses and ends -/

/-- **`_require_pause_safe_tx`**. -/
def requirePauseSafe (env : Env) (b : Boundary) : FileTx PUnit := do
  requireNotPaused
  let f ← get
  Tx.require ((f.work.state = .waitingSupervisor ∨ f.work.state = .waitingReview) ∧
      f.work.attentionOwner = .cao ∧ f.work.suspendedByWorkItemId = none ∧
      f.work.userNeededBoundaryId = none ∧ env.executionSettled = true ∧
      ∀ c ∈ f.openBoundaries, c.generation = f.work.generation → c.id = b.id)
    (.service (.conflict "Work pause requires a settled execution boundary"))

/-- **`_pause_work_tx`**. The pause is checked again, after the disposition
of its Boundary. -/
def pauseWork (env : Env) (actorId : PrincipalId) (a : Attempt) (b : Boundary) :
    FileTx PUnit := do
  requirePauseSafe env b
  let f ← get
  insertPause
    { boundaryId := b.id, attemptNumber := a.number, sourceGeneration := f.work.generation,
      pauseGeneration := f.work.generation + 1, pausedBy := actorId }
  advance a.number (.inState .suspended) (.pause b.id)

/-- Supersede the open Boundaries meeting a condition. -/
def supersedeBoundaries (p : Boundary → Bool) (reason : SupersessionReason) : FileTx PUnit := do
  let f ← get
  Tx.each (fun b => do
    insertSupersession ⟨b.id, reason⟩
    supersedeBoundaryDeliveries b.id) (f.openBoundaries.filter p)

/-- The latest Attempt of a Work that is cancelled, and the notice to its
Worker. -/
def cancelAttempt (env : Env) (actorId : PrincipalId) (goalVersion : ℕ) (reason : String)
    (directiveId : Option DirectiveId) (latest : Option Attempt) : FileTx PUnit :=
  match latest with
  | none => pure ⟨⟩
  | some a => do
    setAttemptState a.number .canceled
    Tx.when (env.runtimeLive a = true) do
      let _ ← message env
        { senderId := actorId, recipientId := a.workerId, kind := .cancel,
          payload := ⟨.cancel, none, none, [], [reason]⟩, attemptNumber := a.number,
          goalVersion := goalVersion,
          idempotencyKey := (directiveId.map MessageKey.cancel).getD .none }

/-- **`_cancel_work_tx`**: the Work ends, and so does every open
Boundary of it. -/
def cancelWork (env : Env) (actorId : PrincipalId) (reason : String)
    (directiveId : Option DirectiveId) : FileTx PUnit := do
  let f ← get
  Tx.require (f.work.state ≠ .completed)
    (.service (.conflict "completed work cannot be canceled"))
  if f.work.state = .canceled then pure ⟨⟩
  else
    fenceReasonerTurns
    move .cancel
    cancelAttempt env actorId f.work.goalVersion reason directiveId f.latestAttempt?
    let g ← get
    supersedeBoundaries (fun b => b.generation < g.work.generation) .workCanceled

/-! ## Decisions -/

/-- The digest of a decision. -/
def turnResultDigest (b : Boundary) (id : DispositionId) (request : Digest) : Digest :=
  .turnResult b.id id request b.goalPacketDigest b.taskPacketDigest

/-- The turn that the system seals for a decision. -/
def sealedFor (b : Boundary) (d : BoundaryDisposition) (goalVersion : ℕ) (now : Instant)
    (key : TurnKey) : ReasonerTurn :=
  sealedTurn b d.decidedBy d.generation goalVersion d.reasonerTurnId
    (turnInputDigest b d.generation) (turnResultDigest b d.id d.requestDigest) now key

/-- The turn of an escalation: the given one ends, or one is sealed. -/
def escalationTurn (env : Env) (b : Boundary) (supervisorId : PrincipalId)
    (turn : Option TurnId) (result : Digest) : FileTx TurnId :=
  match turn with
  | some t => do
    completeTurn t result
    pure t
  | none => do
    let t ← newId
    insertTurn env <|
      sealedTurn b supervisorId b.generation b.goalVersion t (turnInputDigest b b.generation)
        result env.now (.systemEscalation b.id)
    pure t

/-- The decision of an escalation. -/
def escalation (b : Boundary) (supervisorId : PrincipalId) (id : DispositionId)
    (turnId : TurnId) (request : Digest) : BoundaryDisposition :=
  { id := id, boundaryId := b.id, reasonerTurnId := turnId, decidedBy := supervisorId,
    generation := b.generation, kind := .waitUser, reason := "", instruction := "",
    resumeCondition := "", requestDigest := request }

/-- **`_escalate_supervision_tx`**: the system gives up on a supervision and
the requester is asked. The decision is that of a turn, which is the given
one or is sealed for it. -/
def escalateSupervision (env : Env) (b : Boundary) (reasonCode : EscalationReason)
    (turn : Option TurnId) (request : Option Digest) : FileTx BoundaryDisposition := do
  let f ← get
  let id ← newId
  let decision := request.getD (.escalation b.id reasonCode)
  let result := turnResultDigest b id decision
  let turnId ← escalationTurn env b f.work.supervisorId turn result
  let d := escalation b f.work.supervisorId id turnId decision
  insertDisposition d
  advance b.attemptNumber (.inState .inputRequired) (.awaitUser b.id)
  supersedeBoundaryDeliveries b.id
  let _ ← message env
    { senderId := f.work.supervisorId, recipientId := f.work.supervisorId, kind := .system,
      payload := ⟨.requesterEscalation, none, none, [b.id, id], []⟩,
      attemptNumber := b.attemptNumber, goalVersion := b.goalVersion,
      idempotencyKey := .requesterEscalation b.id }
  pure d

/-- The decisions that a recovery leaves to its supervisor. -/
def recoveryAllows (b : Boundary) (kind : BoundaryDispositionKind) : Bool :=
  let action := if b.recoveryAction = .none then boundaryRecoveryAction b.metadata
    else b.recoveryAction
  if b.kind = .failure ∧ b.Recovering then
    if action = .reconcileContinueSameThread ∨
        (b.metadata.runtimeRecovery = true ∧ action = .disposeContinueOrCorrect) then
      kind = .continue || kind = .correct || kind = .pause || kind = .waitUser
    else if action = .systemReconciliation then kind = .waitUser
    else false
  else true

/-- The decision continues the exact Worker of a recovery. -/
def continuesRecovery (b : Boundary) : Bool :=
  let action := if b.recoveryAction = .none then boundaryRecoveryAction b.metadata
    else b.recoveryAction
  b.kind = .failure && b.Recovering &&
    (action = .reconcileContinueSameThread ||
      (b.metadata.runtimeRecovery && action = .disposeContinueOrCorrect))

/-- The decisions that a review of the Boundary leaves. -/
def reviewAllows (review : Option Review) (b : Boundary) (kind : BoundaryDispositionKind) : Bool :=
  if b.kind = .completion ∨ b.kind = .workerOutput then
    match review with
    | none => !(b.kind = .workerOutput && kind = .accept)
    | some r =>
      match r.verdict with
      | .ok => kind = .accept
      | .needsWork => kind = .correct || kind = .retry || kind = .pause || kind = .waitUser
  else true

/-- The decisions that the kind of the Boundary leaves. -/
def kindAllows (b : Boundary) (kind : BoundaryDispositionKind) : Bool :=
  (kind != .accept || b.kind = .completion || b.kind = .workerOutput) &&
    (b.kind != .directive || kind = .continue || kind = .correct || kind = .pause)

/-- The turn that a decision presents owns the Boundary: it is its
supervisor's, bound to exactly this Boundary, its generation and its
packets, leased, not expired, and its token is the caller's. -/
def OwnsBoundary (env : Env) (actor : Actor) (b : Boundary) (r : BoundaryDispositionInput)
    (t : ReasonerTurn) : Prop :=
  t.state = .leased ∧ env.now < t.leaseExpiresAt ∧ t.leaseToken = some r.leaseToken ∧
    t.supervisorId = actor.id ∧ t.boundaryId = b.id ∧ t.generation = r.expectedGeneration ∧
    t.goalPacketDigest = b.goalPacketDigest ∧ t.taskPacketDigest = b.taskPacketDigest

instance (env : Env) (actor : Actor) (b : Boundary) (r : BoundaryDispositionInput)
    (t : ReasonerTurn) : Decidable (OwnsBoundary env actor b r t) := by
  unfold OwnsBoundary
  infer_instance

/-- `CONTINUE` and `CORRECT`: the Worker goes on, in another Attempt where its
route asks for one. -/
def applyContinue (env : Env) (actor : Actor) (b : Boundary) (a : Attempt)
    (r : BoundaryDispositionInput) (action : MessageAction) : FileTx PUnit := do
  if continuesRecovery b then
    let _ ← retryAttempt env actor.id a r.reason none false action
  else
    let admission ← Tx.check env.admission
    Tx.require (b.kind = .directive → env.directivePending = true)
      (.service (.conflict "directive boundary no longer owns a pending directive"))
    if admission.newAttempt then
      let _ ← retryAttempt env actor.id a r.reason none false action
    else
      let f ← get
      advance a.number (.inState .working) .goOn
      let _ ← message env
        { senderId := actor.id, recipientId := a.workerId, kind := .instruction,
          payload := ⟨action, none, some r.expectedGeneration, [], [r.reason, r.instruction]⟩,
          attemptNumber := a.number, goalVersion := f.work.goalVersion,
          idempotencyKey := .boundary b.id }

/-- `ACCEPT`: a reviewed completion is verified, another is to be
reviewed. -/
def applyAccept (env : Env) (a : Attempt) (review : Option Review) : FileTx PUnit := do
  if review.isSome then
    Tx.check env.completionReady
    advance a.number .verified .present
  else
    advance a.number (.inState .submitted) .submit

/-- `WAIT_USER`: the requester is asked. -/
def applyWaitUser (b : Boundary) (a : Attempt) : FileTx PUnit :=
  advance a.number (.inState .inputRequired) (.awaitUser b.id)

/-- `CANCEL`: the Work ends. -/
def applyCancel (a : Attempt) : FileTx PUnit := do
  fenceReasonerTurns
  advance a.number (.inState .canceled) .cancel

/-- What a decision does to the Work. -/
def applyDisposition (env : Env) (actor : Actor) (b : Boundary) (a : Attempt)
    (review : Option Review) (r : BoundaryDispositionInput) : FileTx PUnit :=
  match r.kind with
  | .continue => applyContinue env actor b a r .continue
  | .correct => applyContinue env actor b a r .correct
  | .pause => pauseWork env actor.id a b
  | .waitUser => applyWaitUser b a
  | .accept => applyAccept env a review
  | .cancel => applyCancel a
  | .retry => do
    let _ ← retryAttempt env actor.id a r.reason r.workerId false .assign
  | .fail => pure ⟨⟩

/-- The message that hands a decision over to the requester. -/
def escalationMessage (actor : Actor) (work : Work) (b : Boundary) (a : Attempt)
    (d : BoundaryDisposition) : MessageRequest :=
  { senderId := actor.id, recipientId := work.supervisorId, kind := .system,
    payload := ⟨.requesterEscalation, none, none, [b.id, d.id],
      [d.reason, d.instruction, d.resumeCondition]⟩,
    attemptNumber := a.number, goalVersion := work.goalVersion,
    idempotencyKey := .requesterEscalation b.id }

/-- The decision that a request asks for. -/
def decision (r : BoundaryDispositionInput) (b : Boundary)
    (decidedBy : PrincipalId) (id : DispositionId) : BoundaryDisposition :=
  { id := id, boundaryId := b.id, reasonerTurnId := r.turnId, decidedBy := decidedBy,
    generation := r.expectedGeneration, kind := r.kind, reason := r.reason,
    instruction := r.instruction, resumeCondition := r.resumeCondition,
    requestDigest := .dispositionRequest r }

/-- The decision, once its turn has been proved to own the Boundary. -/
def decideBoundary (env : Env) (actor : Actor) (b : Boundary) (a : Attempt)
    (review : Option Review) (r : BoundaryDispositionInput) : FileTx BoundaryDisposition := do
  let f ← get
  let id ← newId
  let request := Digest.dispositionRequest r
  let d := decision r b actor.id id
  insertDisposition d
  applyDisposition env actor b a review r
  completeTurn r.turnId (turnResultDigest b id request)
  Tx.when (r.kind = .waitUser ∨ r.kind = .pause) do
    let _ ← message env (escalationMessage actor f.work b a d)
  Tx.when (r.kind = .cancel)
    (supersedeBoundaries (fun c => c.generation ≤ r.expectedGeneration) .workTerminalDisposition)
  pure d

/-- **`_dispose_boundary_tx`**: exactly one fenced decision on a Boundary.
`escalateDenial` where a command that cannot be executed is to be
escalated. -/
def disposeBoundary (env : Env) (actor : Actor) (boundaryId : BoundaryId)
    (r : BoundaryDispositionInput) (escalateDenial : Bool) : FileTx BoundaryDisposition := do
  Tx.require (actor.role = .cao) (.service (.authorization "role"))
  Tx.check (if actor.attachmentId.isSome then env.callerCurrent else .ok ())
  backfillRecoveryActions env
  let f ← get
  let b ← Tx.need (f.boundary? boundaryId) (.service (.notFound "boundary"))
  authorizeWorkActor actor
  match f.disposition? boundaryId with
  | some d =>
    Tx.require (d.requestDigest = .dispositionRequest r)
      (.service (.conflict "boundary was already disposed differently"))
    pure d
  | none =>
    Tx.check env.purpose
    Tx.require (r.kind ≠ .fail)
      (.service (.conflict "Unfinished work must continue or be escalated to the requester"))
    Tx.require (¬ f.Superseded boundaryId)
      (.service (.conflict "boundary was superseded by later Work authority"))
    Tx.require (f.work.generation = r.expectedGeneration)
      (.service (.staleGeneration r.expectedGeneration f.work.generation))
    Tx.require (b.generation = r.expectedGeneration)
      (.service (.staleGeneration r.expectedGeneration b.generation))
    let t ← Tx.need (f.turn? r.turnId) (.service (.notFound "reasoner turn"))
    Tx.require (OwnsBoundary env actor b r t)
      (.service (.authorization "reasoner turn does not own this exact boundary generation"))
    Tx.require (recoveryAllows b r.kind = true)
      (.service (.conflict "system recovery boundary requires its recovery workflow"))
    Tx.require (kindAllows b r.kind = true)
      (.service (.conflict "a pending directive must be delivered or corrected"))
    let a ← Tx.need (f.attempt? b.attemptNumber) .assertion
    let review := f.reviews.find? fun q => q.boundaryId = some boundaryId
    Tx.require (reviewAllows review b r.kind = true)
      (.service (.conflict "an OK completion review must be disposed with accept"))
    Tx.check (if r.kind = .pause ∨ r.kind = .waitUser then env.payloadSafe else .ok ())
    Tx.when (r.kind = .pause) (requirePauseSafe env b)
    if escalateDenial = true ∧ (r.kind = .continue ∨ r.kind = .correct) ∧
        continuesRecovery b = false then
      match env.preflight with
      | .clear => decideBoundary env actor b a review r
      | .outcomeUnsettled =>
        escalateSupervision env b .workerCommandOutcomeUnsettled (some t.id)
          (some (.dispositionRequest r))
      | .refused e => throw (.service e)
    else decideBoundary env actor b a review r

end WorkFile
