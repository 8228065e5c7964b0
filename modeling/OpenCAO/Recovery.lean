import OpenCAO.Commands

/-!
# Recovery

The transactions that the control plane runs by itself: a supervision whose
lease expired or whose turn ended without a decision is woken once more
and then handed to the requester, and a Worker that stopped without a
report is turned into a Boundary of its supervisor.
-/

namespace WorkFile

/-! ## Supervision -/

/-- `_has_reasoner_recovery_tx`: a recovery wake names the Boundary. -/
def HasReasonerRecovery (f : WorkFile) (id : BoundaryId) : Prop :=
  ∃ m ∈ f.messages, m.payload.boundaryId = some id ∧
    (m.payload.action = .recoverExpiredReasonerTurn ∨
      m.payload.action = .recoverIncompleteReasonerTurn)

instance (f : WorkFile) (id : BoundaryId) : Decidable (f.HasReasonerRecovery id) := by
  unfold HasReasonerRecovery
  infer_instance

/-- The lease of a turn on an open Boundary at the current authority of the
Work has expired. -/
def Expired (now : Instant) (f : WorkFile) (t : ReasonerTurn) : Prop :=
  t.state = .leased ∧ t.leaseExpiresAt < now ∧ f.work.state.terminal = false ∧
    f.work.state ≠ .suspended ∧ ∃ b ∈ f.boundaries, b.id = t.boundaryId ∧ f.Open b.id ∧
      b.generation = f.work.generation ∧ b.goalVersion = f.work.goalVersion

instance (now : Instant) (f : WorkFile) (t : ReasonerTurn) : Decidable (f.Expired now t) := by
  unfold Expired
  infer_instance

/-- The expired turns of a file, `recover_expired_reasoner_turns`. -/
def expiredTurns (now : Instant) (f : WorkFile) : List ReasonerTurn :=
  f.turns.filter fun t => f.Expired now t

/-- The wake that asks a supervisor to recover a turn. -/
def recoveryWake (b : Boundary) (supervisorId : PrincipalId) (action : MessageAction)
    (generation goalVersion : ℕ) (turn : List TurnId) (key : MessageKey) : MessageRequest :=
  { senderId := b.sourcePrincipalId, recipientId := supervisorId, kind := .system,
    payload := ⟨action, some b.id, some generation, turn, []⟩,
    attemptNumber := b.attemptNumber, goalVersion := goalVersion, idempotencyKey := key }

/-- **`recover_expired_reasoner_turns`** on one selected turn: it loses its
lease, and its Boundary is woken for the only time or, after that wake,
handed to the requester. -/
def recoverExpiredTurn (env : Env) (t : ReasonerTurn) : FileTx PUnit := do
  let f ← get
  if env.wakeReady f.work.supervisorAttachmentId = true ∧
      ∃ u ∈ f.turns, u.id = t.id ∧ u.state = .leased ∧ u.leaseExpiresAt < env.now then
    abandonTurns fun u => u.id = t.id && decide (u.leaseExpiresAt < env.now)
    let b ← Tx.need (f.boundary? t.boundaryId) .assertion
    if f.HasReasonerRecovery t.boundaryId then
      let _ ← escalateSupervision env b .supervisionRecoveryIncomplete none none
    else
      supersedeBoundaryDeliveries b.id
      let _ ← message env
        (recoveryWake b t.supervisorId .recoverExpiredReasonerTurn t.generation t.goalVersion
          [t.id] (.reasonerRecovery t.id))
  else pure ⟨⟩

/-- A wake of the Boundary is the latest that its supervisor received, and
the turn it caused is over. -/
def IncompleteTurn (env : Env) (f : WorkFile) (b : Boundary) (m : Message) : Prop :=
  f.Open b.id ∧ ¬ f.Continued b.id ∧ b.generation = f.work.generation ∧
    b.goalVersion = f.work.goalVersion ∧ f.work.attentionOwner = .cao ∧
    f.work.state.terminal = false ∧ f.work.state ≠ .suspended ∧
    m.payload.boundaryId = some b.id ∧ m.recipientId = f.work.supervisorId ∧
    (f.messages.find? fun n => n.payload.boundaryId = some b.id) = some m ∧
    (∀ t ∈ f.turns, t.boundaryId = b.id → t.supervisorId = m.recipientId → t.state = .leased →
      t.leaseExpiresAt < env.now) ∧
    env.wakeReady f.work.supervisorAttachmentId = true

instance (env : Env) (f : WorkFile) (b : Boundary) (m : Message) :
    Decidable (f.IncompleteTurn env b m) := by
  unfold IncompleteTurn
  infer_instance

/-- **`_recover_incomplete_reasoner_delivery_tx`**: the turn that a wake
caused ended without a decision. -/
def recoverIncompleteTurn (env : Env) (boundaryId : BoundaryId) (messageId : WorkMessageId)
    (deliveryGeneration : ℕ) : FileTx PUnit := do
  let f ← get
  match f.boundary? boundaryId, f.messages.find? fun m => m.id = messageId with
  | some b, some m =>
    if f.IncompleteTurn env b m then
      let expired := f.turns.find? fun t => t.boundaryId = b.id ∧
        t.supervisorId = m.recipientId ∧ t.state = .leased ∧ t.leaseExpiresAt < env.now
      abandonTurns fun t => expired.any fun u => u.id = t.id
      if f.HasReasonerRecovery b.id then
        let _ ← escalateSupervision env b .supervisionRecoveryIncomplete none none
      else
        supersedeBoundaryDeliveries b.id
        let _ ← message env
          (recoveryWake b m.recipientId .recoverIncompleteReasonerTurn b.generation b.goalVersion
            (expired.toList.map (·.id)) (.reasonerIncomplete messageId deliveryGeneration))
    else pure ⟨⟩
  | _, _ => pure ⟨⟩

/-! ## Workers -/

/-- The metadata of a Boundary that a recovery records. -/
def recoveryMetadata (runtimeRecovery systemRecovery : Bool) (reason : String) :
    BoundaryMetadata :=
  { runtimeRecovery := runtimeRecovery, systemRecovery := systemRecovery, directiveId := none,
    reason := reason, dynamicThreadRecovery := false, target := none, evidence := none,
    rest := "" }

/-- What is known of a Worker that needs its supervisor: the event, the
Attempt, the states it may be in, whether the Work has to be active. -/
structure WorkerFailure where
  sourceEventId : SourceEventId
  attemptNumber : ℕ
  attemptStates : List AttemptState
  activeOnly : Bool
  kind : BoundaryKind
  summary : String
  metadata : BoundaryMetadata
  deriving DecidableEq, Repr

/-- The Boundary of a failure, at a generation of the Work. -/
def WorkerFailure.boundaryInput (w : WorkerFailure) (f : WorkFile) (a : Attempt)
    (generation : ℕ) : BoundaryInput :=
  { sourceEventId := w.sourceEventId, attemptNumber := w.attemptNumber,
    expectedGoalVersion := f.work.goalVersion, expectedGoalPacketDigest := a.goalPacketDigest,
    expectedTaskPacketDigest := a.taskPacketDigest, expectedGeneration := generation,
    kind := w.kind, summary := w.summary, metadata := w.metadata }

/-- **The recovery of a Worker**: its Work goes to its supervisor under a new
generation, with a Boundary that says why. The recorder is the Worker, or
the supervisor for a failure that no Worker knows of. -/
def recoverWorker (env : Env) (w : WorkerFailure) (bySupervisor : Bool) : FileTx PUnit := do
  let f ← get
  let a ← Tx.need (f.attempt? w.attemptNumber) (.service (.notFound "attempt"))
  let recorder := if bySupervisor then f.work.supervisorId else a.workerId
  if ∃ b ∈ f.boundaries, b.sourcePrincipalId = recorder ∧ b.sourceEventId = w.sourceEventId then
    pure ⟨⟩
  else
    Tx.require (f.work.attentionOwner = .worker ∧ f.work.state.terminal = false ∧
        (w.activeOnly = true → f.work.state = .active) ∧ a.state ∈ w.attemptStates)
      (.service (.conflict "Worker recovery lost its state fence"))
    move .recover
    setAttemptState w.attemptNumber .waitingSupervisor
    let b ← recordBoundaryTx env recorder (if bySupervisor then .cao else .worker)
      (w.boundaryInput f a (f.work.generation + 1))
    let _ ← message env
      { senderId := recorder, recipientId := f.work.supervisorId, kind := .system,
        payload := ⟨.reviewRuntimeBoundary, some b.id, some (f.work.generation + 1), [], []⟩,
        attemptNumber := w.attemptNumber, goalVersion := f.work.goalVersion,
        idempotencyKey := .runtimeBoundary b.id }

/-- The states in which an Attempt is with its Worker. -/
def workerOwned : List AttemptState := [.assigned, .accepted, .working]

/-- A turn of the Worker completed without a report (service 10582). -/
def reconcileCompletedTurn (env : Env) (event : SourceEventId) (attemptNumber : ℕ) :
    FileTx PUnit := do
  let f ← get
  if ∃ b ∈ f.openBoundaries, b.attemptNumber = attemptNumber then pure ⟨⟩
  else
    recoverWorker env
      { sourceEventId := event, attemptNumber := attemptNumber, attemptStates := workerOwned,
        activeOnly := true, kind := .failure,
        summary := "Worker turn completed without a terminal report.",
        metadata := recoveryMetadata false true "worker_turn_completed_without_terminal_report" }
      false

/-- An assignment stayed unclaimed past its deadline (service 11124). -/
def recoverUnstartedWorker (env : Env) (event : SourceEventId) (attemptNumber : ℕ) :
    FileTx PUnit :=
  recoverWorker env
    { sourceEventId := event, attemptNumber := attemptNumber, attemptStates := [.assigned],
      activeOnly := true, kind := .failure,
      summary := "Managed Worker assignment remained unclaimed past its status deadline.",
      metadata := recoveryMetadata true false "runtime_dispatch_failed" }
    false

/-- A runtime ended, and it is not clear which Attempt it was at
(service 11378). -/
def recoverAmbiguousWorker (env : Env) (event : SourceEventId) (attemptNumber : ℕ) :
    FileTx PUnit :=
  recoverWorker env
    { sourceEventId := event, attemptNumber := attemptNumber, attemptStates := workerOwned,
      activeOnly := false, kind := .failure,
      summary := "Managed Worker runtime ownership is ambiguous.",
      metadata := recoveryMetadata true false "runtime_ownership_ambiguous" }
    false

/-- A runtime ended (service 11781). -/
def recoverTerminalWorker (env : Env) (event : SourceEventId) (attemptNumber : ℕ)
    (reason : String) : FileTx PUnit :=
  recoverWorker env
    { sourceEventId := event, attemptNumber := attemptNumber, attemptStates := workerOwned,
      activeOnly := false, kind := .failure, summary := "Managed Worker runtime failed.",
      metadata := recoveryMetadata true false reason }
    false

/-- What an assignment depends on is not ready (service 12017). -/
def failAssignmentDependency (env : Env) (event : SourceEventId) (attemptNumber : ℕ) :
    FileTx PUnit :=
  recoverWorker env
    { sourceEventId := event, attemptNumber := attemptNumber, attemptStates := workerOwned,
      activeOnly := true, kind := .blocker,
      summary := "Required Docker API readiness check did not pass.",
      metadata := recoveryMetadata false false "assignment_dependency_unavailable" }
    true

/-- A runtime was rate-limited after its Worker had handed the Work over: the
fact is recorded and nothing changes hands (service 11632). -/
def recordSecondaryFailure (env : Env) (event : SourceEventId) (attemptNumber : ℕ) :
    FileTx PUnit := do
  let f ← get
  let a ← Tx.need (f.attempt? attemptNumber) (.service (.notFound "attempt"))
  if f.work.state.terminal = true ∨
      (a.state ∈ workerOwned ∧ f.work.attentionOwner = .worker) then pure ⟨⟩
  else
    let _ ← recordBoundaryTx env a.workerId .worker
      (WorkerFailure.boundaryInput
        { sourceEventId := event, attemptNumber := attemptNumber, attemptStates := [],
          activeOnly := false, kind := .failure,
          summary := "Managed Worker provider rate-limited the runtime after durable progress.",
          metadata := recoveryMetadata true false "runtime_provider_rate_limited" }
        f a f.work.generation)

/-! ## Captures -/

/-- **A capture of the output of a Worker**, with what its end depends on
elsewhere. -/
structure Capture where
  sourceEventId : SourceEventId
  attemptNumber : ℕ
  /-- The generation of the Work that the capture was opened under. -/
  workGeneration : ℕ
  /-- The enrollment and the delivery are those of the capture. -/
  exact : Bool
  /-- The provider turn completed, and its dispatch is proved. -/
  successful : Bool
  /-- A later command to the Worker is on its way. -/
  pending : Bool
  /-- The supervisor is being told of the Boundary. -/
  notified : Bool
  key : MessageKey
  deriving DecidableEq, Repr

/-- The Boundary at which a capture ends. -/
def Capture.boundaryInput (c : Capture) (f : WorkFile) (a : Attempt) (kind : BoundaryKind)
    (interrupted : Bool) (summary : String) : BoundaryInput :=
  { sourceEventId := c.sourceEventId, attemptNumber := c.attemptNumber,
    expectedGoalVersion := f.work.goalVersion, expectedGoalPacketDigest := a.goalPacketDigest,
    expectedTaskPacketDigest := a.taskPacketDigest, expectedGeneration := f.work.generation,
    kind := kind, summary := summary, metadata := recoveryMetadata false interrupted "" }

/-- The supervisor is told how a capture ended. -/
def captureNotice (f : WorkFile) (c : Capture) (a : Attempt) (boundaryId : Option BoundaryId) :
    MessageRequest :=
  { senderId := a.workerId, recipientId := f.work.supervisorId, kind := .system,
    payload := ⟨.workerOutput, boundaryId, some f.work.generation, [], []⟩,
    attemptNumber := c.attemptNumber, goalVersion := f.work.goalVersion,
    idempotencyKey := c.key }

/-- The capture is not about what the Work is at now. -/
def Retired (f : WorkFile) (a : Attempt) : Prop :=
  f.work.state.terminal = true ∨ f.work.state = .suspended ∨ f.work.goalVersion ≠ a.goalVersion ∨
    f.latestAttempt? ≠ some a

instance (f : WorkFile) (a : Attempt) : Decidable (f.Retired a) := by
  unfold Retired
  infer_instance

/-- The open Boundary of an Attempt at the current generation. -/
def captureBoundary? (f : WorkFile) (attemptNumber : ℕ) : Option Boundary :=
  f.openBoundaries.find? fun b =>
    b.attemptNumber = attemptNumber ∧ b.generation = f.work.generation

/-- A Work whose Worker ended its turn without a Boundary goes to its
supervisor. -/
def publishCapture (env : Env) (c : Capture) (a : Attempt) (boundary : Option Boundary) :
    FileTx (Option BoundaryId) := do
  let f ← get
  match boundary with
  | some b => pure (some b.id)
  | none =>
    if f.work.state = .active ∧ c.pending = false then
      advance c.attemptNumber (.inState .waitingSupervisor) .supervise
      let b ← recordBoundaryTx env a.workerId .worker
        (c.boundaryInput f a .workerOutput false
          "Worker provider turn ended; captured output requires CAO review.")
      pure (some b.id)
    else pure none

/-- **`finalize_capture_tx`**: the output of a turn that succeeded is up for
review. -/
def finalizeCapture (env : Env) (c : Capture) : FileTx PUnit := do
  let f ← get
  let a ← Tx.need (f.attempt? c.attemptNumber) .assertion
  let boundary := f.captureBoundary? c.attemptNumber
  let exact := f.work.generation = c.workGeneration ∧ c.exact = true
  if f.Retired a ∨ (¬ exact ∧ ∀ b ∈ boundary, b.kind ≠ .failure) ∨
      (boundary = none ∧ ¬ (exact ∧ c.successful = true)) then pure ⟨⟩
  else
    let reported ← publishCapture env c a boundary
    Tx.when (¬ (reported.isSome = true ∧ c.notified = true)) do
      let _ ← message env (f.captureNotice c a reported)

/-- The capture of an Attempt is of what the Work is at now, and nothing says how
its turn ended. -/
def Abandoned (f : WorkFile) (c : Capture) (a : Attempt) : Prop :=
  (∀ b ∈ f.openBoundaries, b.attemptNumber ≠ c.attemptNumber) ∧ c.pending = false ∧
    f.work.state = .active ∧ f.latestAttempt? = some a ∧ f.work.generation = c.workGeneration

instance (f : WorkFile) (c : Capture) (a : Attempt) : Decidable (f.Abandoned c a) := by
  unfold Abandoned
  infer_instance

/-- **`reconcile_abandoned_captures`** on one capture: the outcome of the turn is
unknown. -/
def reconcileAbandonedCapture (env : Env) (c : Capture) : FileTx PUnit := do
  let f ← get
  match f.attempt? c.attemptNumber with
  | none => pure ⟨⟩
  | some a =>
    if f.Abandoned c a then
      advance c.attemptNumber (.inState .systemReconciliation) .supervise
      let b ← recordBoundaryTx env a.workerId .worker
        (c.boundaryInput f a .failure true
          "Worker output capture was interrupted; the task outcome is unknown.")
      let _ ← message env (f.captureNotice c a (some b.id))
    else pure ⟨⟩

/-! ## Augmentation -/

/-- **An `AUGMENT` directive** (service 14377): a Boundary asks the
supervisor to hand it on. -/
def augment (env : Env) (actor : Actor) (directiveId : DirectiveId) (reason : String) :
    FileTx PUnit := do
  enter env actor
  let f ← get
  Tx.require (f.work.state.terminal = false)
    (.service (.conflict "target work is terminal"))
  Tx.check env.purpose
  let a ← Tx.need f.latestAttempt?
    (.service (.conflict "augment directive has no current attempt"))
  let b ← recordBoundaryTx env actor.id actor.role
    { sourceEventId := .directive directiveId, attemptNumber := a.number,
      expectedGoalVersion := f.work.goalVersion, expectedGoalPacketDigest := a.goalPacketDigest,
      expectedTaskPacketDigest := a.taskPacketDigest, expectedGeneration := f.work.generation,
      kind := .directive, summary := reason,
      metadata := { recoveryMetadata false false "" with directiveId := some directiveId } }
  let _ ← message env
    { senderId := actor.id, recipientId := f.work.supervisorId, kind := .system,
      payload := ⟨.review, some b.id, some f.work.generation, [], []⟩,
      attemptNumber := a.number, goalVersion := f.work.goalVersion,
      idempotencyKey := .directive directiveId }
  move .attend

end WorkFile
