import Mathlib.Data.List.Sort
import OpenCAO.Supervision
import OpenCAO.TransitionSystem
import OpenCAO.UniqueRows

/-!
# Keyed commands

A caller that does not know whether its command was executed sends it again
under the same key, and whether a command was executed is looked up in four
places. The commands of the CAO and of the Workers are looked up in a ledger of
results, `idempotency_results`; a message under its sender and its key; a
Boundary under the source that reports it and the event it reports; and a
submitted intent under its source receipt. Each row carries the digest of what
was asked, and a key that returns with another digest is refused.

What a row answers depends on what became of it. Rows of the ledger, receipts
and intents are never written again, and a Boundary only in the columns of its
recovery. Messages, however, are kept for a time: once a message is settled and
old, it is pruned with its key, and its sender may send it again.

The lookup is not the first thing a command does. It is preceded by the checks
of who asks – so a caller whose authority has ended is refused what it was
answered before – and, for a reasoner turn, by the derivation of the recoveries
of Boundaries. What a command does after it, on all the other tables, is of no
concern here: a command is whatever the source's writes of the four tables allow.
-/

namespace Keyed

/-! ## Rows -/

abbrev AttemptId := ℕ
abbrev WorkerThreadId := ℕ
abbrev ReceiptId := ℕ

/-- The operations that are looked up in the ledger; their names are texts there. -/
inductive Operation where
  | newWorkerThread | setWorkerPurpose | instructWorkerThread | finishWorkerThread
  | resumeWorkerThread | deleteWorkerThread | acquireReasonerTurn | resumeWork | assignWork
  | reviseGoal | createAttempt | cancelWork | report | requestStatus | reply | review
  | rememberMemory
  | closeCaoConversation (attachmentId : AttachmentId) (attachmentGeneration : ℕ)
  | prepareWorkClose (attachmentId : AttachmentId)
  | executePreparedCleanup (attachmentId : AttachmentId)
  | requesterDecision (attachmentId : AttachmentId)
  | closeWork (attachmentId : AttachmentId)
  deriving DecidableEq, Repr

/-- A row of `idempotency_results`. -/
structure IdempotencyResult where
  actorId : PrincipalId
  operation : Operation
  idempotencyKey : String
  requestDigest : String
  result : String
  deriving DecidableEq, Repr

/-- The primary key of `idempotency_results`. -/
def IdempotencyResult.Clash (a b : IdempotencyResult) : Prop :=
  a.actorId = b.actorId ∧ a.operation = b.operation ∧ a.idempotencyKey = b.idempotencyKey

/-- The kind of a message. -/
inductive Kind where
  | assignment | instruction | question | blocker | progress | artifact | completionClaim
  | statusRequest | review | userInput | cancel | system
  deriving DecidableEq, Repr

/-- The payload of a message, with the fields that are read or completed when it is stored. -/
structure Payload where
  goalPacketDigest : Option String
  taskPacketDigest : Option String
  workerPurpose : Option String
  rest : String
  deriving DecidableEq, Repr

/-- **What the digest of a message is about.** -/
structure MessageContent where
  senderId : PrincipalId
  recipientIds : List PrincipalId
  kind : Kind
  payload : Payload
  workItemId : Option WorkId
  attemptId : Option AttemptId
  correlationId : String
  causationId : String
  goalVersion : Option ℕ
  goalPacketDigest : String
  taskPacketDigest : String
  runtimeSessionId : Option RuntimeId
  deriving DecidableEq, Repr

/-- **A row of `messages`.** Rows that are older than the digest have none. -/
structure Message where
  id : MessageId
  workItemId : Option WorkId
  attemptId : Option AttemptId
  senderId : PrincipalId
  kind : Kind
  payload : Payload
  messageDigest : Option MessageContent
  idempotencyKey : String
  goalVersion : Option ℕ
  goalPacketDigest : String
  taskPacketDigest : String
  createdAt : Instant
  deriving DecidableEq, Repr

/-- The identifier of a message, and `messages_sender_idempotency_unique`. -/
def Message.Clash (a b : Message) : Prop :=
  a.id = b.id ∨ a.senderId = b.senderId ∧ a.idempotencyKey = b.idempotencyKey ∧
    a.idempotencyKey ≠ ""

/-- **A row of `message_deliveries`.** -/
structure MessageDelivery where
  messageId : MessageId
  recipientId : PrincipalId
  recipientAttachmentId : Option AttachmentId
  state : DeliveryState
  generation : ℕ
  attempts : ℕ
  nextAttemptAt : Instant
  runtimeSessionId : Option RuntimeId
  deriving DecidableEq, Repr

/-- **What a Boundary is recorded from**, `BoundaryInput`. -/
structure BoundaryInput where
  sourceEventId : String
  workItemId : WorkId
  attemptId : AttemptId
  expectedGoalVersion : ℕ
  expectedGoalPacketDigest : String
  expectedTaskPacketDigest : String
  expectedGeneration : ℕ
  kind : BoundaryKind
  summary : String
  runtimeState : RuntimeState
  metadata : BoundaryMetadata
  deriving DecidableEq, Repr

/-- **A row of `boundaries`.** Its digest is that of the whole input. -/
structure Boundary where
  id : ℕ
  sourcePrincipalId : PrincipalId
  sourceEventId : String
  workItemId : WorkId
  attemptId : AttemptId
  goalVersion : ℕ
  generation : ℕ
  goalPacketDigest : String
  taskPacketDigest : String
  kind : BoundaryKind
  summary : String
  runtimeState : RuntimeState
  metadata : BoundaryMetadata
  recoveryAction : RecoveryAction
  inputDigest : BoundaryInput
  createdAt : Instant
  deriving DecidableEq, Repr

/-- The two keys of `boundaries`. -/
def Boundary.Clash (a b : Boundary) : Prop :=
  a.id = b.id ∨ a.sourcePrincipalId = b.sourcePrincipalId ∧ a.sourceEventId = b.sourceEventId

/-- A row of `source_receipts`. -/
structure SourceReceipt where
  id : ReceiptId
  sourcePrincipalId : PrincipalId
  sourceId : String
  payload : String
  payloadDigest : String
  receivedAt : Instant
  deriving DecidableEq, Repr

/-- The two keys of `source_receipts`. -/
def SourceReceipt.Clash (a b : SourceReceipt) : Prop :=
  a.id = b.id ∨ a.sourcePrincipalId = b.sourcePrincipalId ∧ a.sourceId = b.sourceId

/-- A row of `submitted_intents`. -/
structure SubmittedIntent where
  id : ℕ
  sourceReceiptId : ReceiptId
  ordinal : ℕ
  submitterId : PrincipalId
  content : String
  contentDigest : String
  createdAt : Instant
  deriving DecidableEq, Repr

/-- The two keys of `submitted_intents`. -/
def SubmittedIntent.Clash (a b : SubmittedIntent) : Prop :=
  a.id = b.id ∨ a.sourceReceiptId = b.sourceReceiptId ∧ a.ordinal = b.ordinal

instance : DecidableRel IdempotencyResult.Clash := fun a b => by
  unfold IdempotencyResult.Clash
  infer_instance

instance : DecidableRel Message.Clash := fun a b => by
  unfold Message.Clash
  infer_instance

instance : DecidableRel Boundary.Clash := fun a b => by
  unfold Boundary.Clash
  infer_instance

instance : DecidableRel SourceReceipt.Clash := fun a b => by
  unfold SourceReceipt.Clash
  infer_instance

instance : DecidableRel SubmittedIntent.Clash := fun a b => by
  unfold SubmittedIntent.Clash
  infer_instance

/-! ## What the transactions read

The tables below are written by others. -/

/-- A row of `goal_revisions`. -/
structure GoalRevision where
  workItemId : WorkId
  version : ℕ
  packetDigest : String

/-- A row of `work_items`. -/
structure WorkItem where
  id : WorkId
  supervisorId : Option PrincipalId
  createdBy : PrincipalId
  supervisorAttachmentId : Option AttachmentId
  managedWorkerThreadId : Option WorkerThreadId
  goalVersion : ℕ
  generation : ℕ
  pausedBoundaryId : Option ℕ

/-- Who supervises the Work, `COALESCE(supervisor_id, created_by)`. -/
def WorkItem.supervisor (w : WorkItem) : PrincipalId := w.supervisorId.getD w.createdBy

/-- A row of `attempts`. -/
structure Attempt where
  id : AttemptId
  workItemId : WorkId
  attemptNumber : ℕ
  workerId : PrincipalId
  goalVersion : ℕ
  goalPacketDigest : String
  taskPacketDigest : String
  runtimeSessionId : Option RuntimeId

/-- A row of `worker_purpose_revisions`. -/
structure PurposeRevision where
  workerThreadId : WorkerThreadId
  version : ℕ
  purpose : String

/-- A row of `principals`. -/
structure Principal where
  id : PrincipalId
  role : PrincipalRole
  enabled : Bool

/-- A row of `runtime_sessions`. -/
structure RuntimeSession where
  id : RuntimeId
  principalId : PrincipalId
  state : RuntimeState
  leaseExpiresAt : Instant
  updatedAt : Instant
  /-- Until when its enrollment and the credential of the same generation hold, if it has a
  ready enrollment with an active credential. -/
  enrolledUntil : Option Instant

/-- A row of `cao_session_attachments`. -/
structure Attachment where
  id : AttachmentId
  principalId : PrincipalId
  runtimeSessionId : RuntimeId
  state : AttachmentState
  leaseExpiresAt : Instant

/-- **The tables that are only read here.** -/
structure Directory where
  goalRevisions : List GoalRevision
  workItems : List WorkItem
  attempts : List Attempt
  purposes : List PurposeRevision
  principals : List Principal
  runtimes : List RuntimeSession
  attachments : List Attachment

namespace Directory

def work? (d : Directory) (id : WorkId) : Option WorkItem := d.workItems.find? fun w => w.id = id

def runtime? (d : Directory) (id : RuntimeId) : Option RuntimeSession :=
  d.runtimes.find? fun r => r.id = id

/-- The purpose of a Worker thread, if it has one, `worker_purpose_tx`. -/
def workerPurpose (d : Directory) (thread : Option WorkerThreadId) : Option String :=
  thread.bind fun id => ((d.purposes.filter fun p => p.workerThreadId = id).maxOn?
    PurposeRevision.version).map PurposeRevision.purpose

/-- The latest Attempt of a Work, `_latest_attempt_tx`. -/
def latestAttempt (d : Directory) (id : WorkId) : Option Attempt :=
  (d.attempts.filter fun a => a.workItemId = id).maxOn? Attempt.attemptNumber

/-- The runtime of a Worker that is enrolled and connected. -/
def workerRuntime (d : Directory) (now : Instant) (recipient : PrincipalId) :
    Option RuntimeSession :=
  (d.runtimes.filter fun r => r.principalId = recipient ∧ r.state.connectable = true ∧
    now ≤ r.leaseExpiresAt ∧ r.enrolledUntil.any (now ≤ ·)).maxOn? RuntimeSession.updatedAt

/-- The runtime of the conversation that a Work was delegated in. -/
def attachedRuntime (d : Directory) (now : Instant) (work : Option WorkId)
    (recipient : PrincipalId) : Option RuntimeSession := do
  let w ← work.bind d.work?
  let a ← d.attachments.find? fun a => w.supervisorAttachmentId = some a.id ∧
    a.principalId = recipient ∧ a.state = .active ∧ now < a.leaseExpiresAt
  let r ← d.runtime? a.runtimeSessionId
  if w.supervisorId = some recipient ∧ now < r.leaseExpiresAt ∧ r.state.connectable = true
  then some r else none

/-- The runtime of any other principal. -/
def anyRuntime (d : Directory) (recipient : PrincipalId) : Option RuntimeSession :=
  (d.runtimes.filter fun r => r.principalId = recipient ∧ r.state ≠ .stopped ∧
    r.state ≠ .missing).maxOn? RuntimeSession.updatedAt

end Directory

/-- **The tables of the control plane** that the four lookups are about, but for the ledger. -/
structure Tables where
  messages : UniqueRows Message Message.Clash
  deliveries : List MessageDelivery
  boundaries : UniqueRows Boundary Boundary.Clash
  sourceReceipts : UniqueRows SourceReceipt SourceReceipt.Clash
  submittedIntents : UniqueRows SubmittedIntent SubmittedIntent.Clash
  directory : Directory

/-- Why a call fails. -/
inductive Error where
  | validation (reason : String)
  | authorization (reason : String)
  | conflict (reason : String)
  | notFound (what : String)
  | staleGoal
  | staleGeneration
  | runtime (reason : String)
  /-- A unique index is in the way. -/
  | integrity
  deriving DecidableEq, Repr

/-! ## Messages -/

/-- What a message is sent with. -/
structure MessageRequest where
  senderId : PrincipalId
  recipientIds : List PrincipalId
  kind : Kind
  payload : Payload
  workItemId : Option WorkId
  attemptId : Option AttemptId
  correlationId : String
  causationId : String
  idempotencyKey : String
  goalVersion : Option ℕ
  runtimeSessionId : Option RuntimeId
  createDelivery : Bool

/-- The recipients, each once. -/
def MessageRequest.recipients (q : MessageRequest) : List PrincipalId := q.recipientIds.eraseDups

/-- What a message is bound to by the Work and the Attempt it names. -/
structure Binding where
  goalPacketDigest : String
  taskPacketDigest : String
  attemptRuntimeId : Option RuntimeId
  attemptWorkerId : Option PrincipalId
  supervisorId : Option PrincipalId
  supervisorAttachmentId : Option AttachmentId
  workerThreadId : Option WorkerThreadId

/-- A message that names no Work. -/
def Binding.none : Binding :=
  { goalPacketDigest := "", taskPacketDigest := "", attemptRuntimeId := .none,
    attemptWorkerId := .none, supervisorId := .none, supervisorAttachmentId := .none,
    workerThreadId := .none }

/-- Bind the Attempt that a message names. -/
def bindAttempt (q : MessageRequest) (w : WorkItem) (goalVersion : ℕ) (b : Binding) :
    Tx Directory Error Binding :=
  match q.attemptId with
  | none => pure b
  | some id => do
    let d ← get
    let a ← Tx.need (d.attempts.find? fun a => a.id = id ∧ a.workItemId = w.id ∧
        a.goalVersion = goalVersion ∧ a.goalPacketDigest = b.goalPacketDigest ∧
        a.taskPacketDigest ≠ "")
      (.conflict "message cannot bind a stale task packet")
    Tx.require a.runtimeSessionId.isSome
      (.conflict "Worker message cannot bind an attempt without a runtime")
    pure { b with
      taskPacketDigest := a.taskPacketDigest, attemptRuntimeId := a.runtimeSessionId,
      attemptWorkerId := some a.workerId }

/-- Bind the Work that a message names. -/
def bindWork (q : MessageRequest) : Tx Directory Error Binding :=
  match q.workItemId with
  | none => pure .none
  | some id => do
    let version ← Tx.need q.goalVersion (.validation "work-scoped message requires a goal version")
    let d ← get
    let goal ← Tx.need (d.goalRevisions.find? fun g => g.workItemId = id ∧ g.version = version ∧
        g.packetDigest ≠ "") (.conflict "message cannot bind a missing goal packet")
    let w ← Tx.need (d.work? id) (.notFound "work item")
    bindAttempt q w version
      { goalPacketDigest := goal.packetDigest, taskPacketDigest := "", attemptRuntimeId := none,
        attemptWorkerId := none, supervisorId := some w.supervisor,
        supervisorAttachmentId := w.supervisorAttachmentId,
        workerThreadId := w.managedWorkerThreadId }

/-- A field of the payload is completed, and may not say anything else. -/
def completeField (supplied : Option String) (expected reason : String) :
    Tx Directory Error (Option String) := do
  Tx.require (supplied = none ∨ supplied = some "" ∨ supplied = some expected) (.conflict reason)
  pure (if expected = "" then supplied else some expected)

/-- The payload of a message about a Work names its packets. -/
def completePackets (q : MessageRequest) (b : Binding) : Tx Directory Error Payload :=
  if q.workItemId = none then pure q.payload
  else do
    let goal ← completeField q.payload.goalPacketDigest b.goalPacketDigest
      "message goal_packet_digest does not match the durable packet"
    let task ← completeField q.payload.taskPacketDigest b.taskPacketDigest
      "message task_packet_digest does not match the durable packet"
    pure { q.payload with goalPacketDigest := goal, taskPacketDigest := task }

/-- The payload of an Assignment names the purpose of the Worker. -/
def completePurpose (q : MessageRequest) (b : Binding) (payload : Payload) :
    Tx Directory Error Payload := do
  let d ← get
  match (if q.kind = .assignment ∧ q.workItemId.isSome then d.workerPurpose b.workerThreadId
    else none) with
  | none => pure payload
  | some purpose => do
    Tx.require (payload.workerPurpose = none ∨ payload.workerPurpose = some purpose)
      (.conflict "Assignment business purpose does not match the current Worker")
    pure { payload with workerPurpose := some purpose }

/-- **What is checked and completed before a message is looked up.** -/
def prepareMessage (q : MessageRequest) : Tx Directory Error (MessageContent × Binding) := do
  Tx.require (q.recipients ≠ []) (.validation "message requires at least one recipient")
  Tx.require (q.createDelivery = true ∨ q.kind = .artifact ∨ q.kind = .progress)
    (.validation "only an informational Worker report may omit delivery")
  let b ← bindWork q
  let payload ← completePackets q b
  let payload ← completePurpose q b payload
  pure ({ senderId := q.senderId, recipientIds := q.recipients, kind := q.kind, payload,
          workItemId := q.workItemId, attemptId := q.attemptId, correlationId := q.correlationId,
          causationId := q.causationId, goalVersion := q.goalVersion,
          goalPacketDigest := b.goalPacketDigest, taskPacketDigest := b.taskPacketDigest,
          runtimeSessionId := q.runtimeSessionId }, b)

/-- The runtime that a delivery is bound to. -/
def recipientRuntime (now : Instant) (q : MessageRequest) (d : Directory) (p : Principal)
    (bound : Option RuntimeId) : Except Error (Option RuntimeId) :=
  match bound with
  | some id =>
    match d.runtime? id with
    | some r =>
      if r.principalId = p.id ∧ r.state.ended = false then .ok (some r.id)
      else .error (.conflict "message is pinned to an unavailable runtime")
    | none => .error (.conflict "message is pinned to an unavailable runtime")
  | none =>
    match p.role with
    | .worker => .ok ((d.workerRuntime now p.id).map RuntimeSession.id)
    | .cao => .ok ((d.attachedRuntime now q.workItemId p.id).map RuntimeSession.id)
    | _ => .ok ((d.anyRuntime p.id).map RuntimeSession.id)

/-- One recipient of a message. -/
def deliver (now : Instant) (q : MessageRequest) (b : Binding) (id : MessageId)
    (recipient : PrincipalId) : Tx Tables Error PUnit := do
  let t ← get
  let p ← Tx.need (t.directory.principals.find? fun p => p.id = recipient ∧ p.enabled = true)
    (.notFound "enabled message recipient")
  if q.createDelivery = false then
    Tx.require (q.workItemId.isSome ∧ q.attemptId.isSome ∧ b.attemptWorkerId = some q.senderId ∧
        b.supervisorId = some recipient)
      (.validation "informational report must bind its exact Worker attempt and supervisor")
  else do
    Tx.require (p.role = .cao → q.workItemId.isSome → b.supervisorId = some recipient)
      (.authorization "Work-bound CAO delivery must target its exact supervisor")
    -- the Worker of the Attempt is reached at the runtime of the Attempt
    Tx.require (b.attemptWorkerId = some recipient → q.runtimeSessionId.isSome →
        q.runtimeSessionId = b.attemptRuntimeId)
      (.conflict "message runtime does not match the durable task packet")
    let bound := if b.attemptWorkerId = some recipient then b.attemptRuntimeId
      else q.runtimeSessionId
    let runtime ← Tx.ask fun t => recipientRuntime now q t.directory p bound
    let delivery : MessageDelivery :=
      { messageId := id, recipientId := recipient,
        recipientAttachmentId := if p.role = .cao then b.supervisorAttachmentId else none,
        state := .queued, generation := 1, attempts := 0, nextAttemptAt := now,
        runtimeSessionId := runtime }
    modify fun t => { t with deliveries := t.deliveries ++ [delivery] }

/-- The message that a sender sent under a key. -/
def Tables.messageUnder (t : Tables) (sender : PrincipalId) (key : String) : Option Message :=
  if key = "" then none
  else t.messages.find? fun m => m.senderId = sender ∧ m.idempotencyKey = key

/-- A message with its deliveries, `_message_bundle_tx`. -/
def Tables.bundle (t : Tables) (m : Message) : Message × List MessageDelivery :=
  (m, (t.deliveries.filter fun d => d.messageId = m.id).insertionSort fun a b =>
    a.recipientId ≤ b.recipientId)

/-- Store a new message and its deliveries. -/
def storeMessage (now : Instant) (id : MessageId) (q : MessageRequest) (content : MessageContent)
    (b : Binding) : Tx Tables Error (Message × List MessageDelivery) := do
  let m : Message :=
    { id, workItemId := q.workItemId, attemptId := q.attemptId, senderId := q.senderId,
      kind := q.kind, payload := content.payload, messageDigest := some content,
      idempotencyKey := q.idempotencyKey, goalVersion := q.goalVersion,
      goalPacketDigest := b.goalPacketDigest, taskPacketDigest := b.taskPacketDigest,
      createdAt := now }
  let t ← get
  let messages ← Tx.need (t.messages.insert m) .integrity
  set { t with messages }
  Tx.each (deliver now q b id) q.recipients
  let t ← get
  pure (t.bundle m)

/-- **Send a message**, `_message`. -/
def message (now : Instant) (id : MessageId) (q : MessageRequest) :
    Tx Tables Error (Message × List MessageDelivery) := do
  let prepared ← Tx.ask fun t : Tables => (prepareMessage q).run' t.directory
  let t ← get
  match t.messageUnder q.senderId q.idempotencyKey with
  | some existing => do
    Tx.require (existing.messageDigest = none ∨ existing.messageDigest = some prepared.1)
      (.conflict "message idempotency key was reused with different content")
    pure (t.bundle existing)
  | none => storeMessage now id q prepared.1 prepared.2

/-! ## Boundaries -/

/-- The two rows are one Boundary, whose recovery was derived again. -/
def Boundary.Reclassified (a b : Boundary) : Prop :=
  ∃ action, b = { a with recoveryAction := action }

/-- **Another derivation of the recoveries**: Boundaries change in the columns of
their recovery, and nothing else that is looked up here changes. -/
structure Tables.Reclassified (t t' : Tables) : Prop where
  boundaries : List.Forall₂ Boundary.Reclassified t.boundaries.rows t'.boundaries.rows
  messages : t'.messages = t.messages
  sourceReceipts : t'.sourceReceipts = t.sourceReceipts
  submittedIntents : t'.submittedIntents = t.submittedIntents

/-- **The derivation of recoveries**, `_backfill_managed_worker_recovery_actions`. -/
structure Backfill where
  run : Tables → Tables
  reclassified : ∀ t : Tables, t.Reclassified (run t)

/-- Record a new Boundary. -/
def storeBoundary (backfill : Backfill) (now : Instant) (id : ℕ) (actor : Actor)
    (r : BoundaryInput) : Tx Tables Error Boundary := do
  let t ← get
  let work ← Tx.need (t.directory.work? r.workItemId) (.notFound "work item")
  let attempt ← Tx.need (t.directory.attempts.find? fun a => a.id = r.attemptId ∧
    a.workItemId = work.id) (.validation "boundary attempt does not belong to the work item")
  Tx.require (actor.role = .worker → attempt.workerId = actor.id)
    (.authorization "Worker cannot record another Worker's boundary")
  Tx.require (work.goalVersion = r.expectedGoalVersion) .staleGoal
  Tx.require (attempt.goalPacketDigest = r.expectedGoalPacketDigest ∧
      attempt.taskPacketDigest = r.expectedTaskPacketDigest ∧
      attempt.goalVersion = r.expectedGoalVersion)
    (.conflict "boundary targets a stale or partial task packet")
  Tx.require (work.generation = r.expectedGeneration) .staleGeneration
  Tx.require ((t.directory.latestAttempt work.id).any fun a => a.id = attempt.id)
    (.conflict "boundary targets a superseded attempt")
  Tx.require (work.pausedBoundaryId = none)
    (.conflict "Work is paused; use its exact explicit resume contract")
  let b : Boundary :=
    { id, sourcePrincipalId := actor.id, sourceEventId := r.sourceEventId,
      workItemId := work.id, attemptId := attempt.id, goalVersion := r.expectedGoalVersion,
      generation := r.expectedGeneration, goalPacketDigest := r.expectedGoalPacketDigest,
      taskPacketDigest := r.expectedTaskPacketDigest, kind := r.kind, summary := r.summary,
      runtimeState := r.runtimeState, metadata := r.metadata,
      recoveryAction := WorkFile.boundaryRecoveryAction r.metadata, inputDigest := r,
      createdAt := now }
  let boundaries ← Tx.need (t.boundaries.insert b) .integrity
  set { t with boundaries }
  Tx.when (r.metadata.runtimeRecovery = true) (modify backfill.run)
  let t ← get
  Tx.need (t.boundaries.find? fun b => b.id = id) (.runtime "")

/-- The Boundary that a source reported under an event. -/
def Tables.boundaryOf (t : Tables) (source : PrincipalId) (event : String) : Option Boundary :=
  t.boundaries.find? fun b => b.sourcePrincipalId = source ∧ b.sourceEventId = event

/-- **Record a Boundary**, `_record_boundary_tx`. -/
def recordBoundary (backfill : Backfill) (now : Instant) (id : ℕ) (actor : Actor)
    (r : BoundaryInput) : Tx Tables Error Boundary := do
  let t ← get
  match t.boundaryOf actor.id r.sourceEventId with
  | some existing => do
    Tx.require (existing.inputDigest = r)
      (.conflict "boundary source identity was reused with different data")
    Tx.when (r.metadata.runtimeRecovery = true) (modify backfill.run)
    let t ← get
    Tx.need (t.boundaries.find? fun b => b.id = existing.id) (.runtime "")
  | none => storeBoundary backfill now id actor r

/-! ## Submitted intents -/

/-- The receipt of a source. -/
def Tables.receiptOf (t : Tables) (source : PrincipalId) (sourceId : String) :
    Option SourceReceipt :=
  t.sourceReceipts.find? fun r => r.sourcePrincipalId = source ∧ r.sourceId = sourceId

/-- The intent that was submitted with a receipt. -/
def Tables.intentOf (t : Tables) (receipt : ReceiptId) : Option SubmittedIntent :=
  t.submittedIntents.find? fun i => i.sourceReceiptId = receipt ∧ i.ordinal = 0

/-- **Record a submitted intent**, `_record_submitted_intent_tx`. -/
def recordSubmittedIntent (digest : String → String) (now : Instant) (receiptId : ReceiptId)
    (intentId : ℕ) (source : PrincipalId) (sourceId payload : String) :
    Tx Tables Error (SourceReceipt × SubmittedIntent) := do
  let t ← get
  match t.receiptOf source sourceId with
  | some existing => do
    Tx.require (existing.payloadDigest = digest payload)
      (.conflict "source identity was already used for a different submitted payload")
    let intent ← Tx.need (t.intentOf existing.id)
      (.runtime "source receipt is missing its submitted intent")
    pure (existing, intent)
  | none => do
    let receipt : SourceReceipt :=
      { id := receiptId, sourcePrincipalId := source, sourceId, payload,
        payloadDigest := digest payload, receivedAt := now }
    let intent : SubmittedIntent :=
      { id := intentId, sourceReceiptId := receiptId, ordinal := 0, submitterId := source,
        content := payload, contentDigest := digest payload, createdAt := now }
    let sourceReceipts ← Tx.need (t.sourceReceipts.insert receipt) .integrity
    let submittedIntents ← Tx.need (t.submittedIntents.insert intent) .integrity
    set { t with sourceReceipts, submittedIntents }
    pure (receipt, intent)

/-! ## What is ever written

A transaction changes the tables by the statements below and no others: the
insertions are made in one place each, the derivation of recoveries is the only
update, and what is written of the remaining tables is left open. -/

/-- **The writes.** -/
inductive Write : Tables → Tables → Prop
  | message {t : Tables} {m : Message} {messages : UniqueRows Message Message.Clash}
      (h : t.messages.insert m = some messages) : Write t { t with messages }
  | boundary {t : Tables} {b : Boundary} {boundaries : UniqueRows Boundary Boundary.Clash}
      (h : t.boundaries.insert b = some boundaries) : Write t { t with boundaries }
  | submitted {t : Tables} {r : SourceReceipt} {i : SubmittedIntent}
      {sourceReceipts : UniqueRows SourceReceipt SourceReceipt.Clash}
      {submittedIntents : UniqueRows SubmittedIntent SubmittedIntent.Clash}
      (hr : t.sourceReceipts.insert r = some sourceReceipts)
      (hi : t.submittedIntents.insert i = some submittedIntents)
      (h : i.sourceReceiptId = r.id ∧ i.ordinal = 0) :
      Write t { t with sourceReceipts, submittedIntents }
  | reclassify {t t' : Tables} (h : t.Reclassified t') : Write t t'

/-- **What a command does**: writes, and an answer when it is complete. -/
structure Effect where
  run : Tx Tables Error (Option String)
  made : ∀ t, Tx.Makes Write t run

/-! ## The ledger -/

/-- **The ledger and the tables.** -/
structure Store where
  ledger : UniqueRows IdempotencyResult IdempotencyResult.Clash
  tables : Tables

/-- Who asks, under which key, and the digest of what is asked. An operation that digested
its requests otherwise before declares those digests. -/
structure Request where
  actorId : PrincipalId
  idempotencyKey : String
  requestDigest : String
  compatibleRequestDigests : List String

/-- The digests that a stored one is compared with. -/
def Request.accepted (q : Request) : List String := q.requestDigest :: q.compatibleRequestDigests

/-- The row is about this operation, by this actor, under this key. -/
def IdempotencyResult.Of (row : IdempotencyResult) (operation : Operation) (q : Request) : Prop :=
  row.actorId = q.actorId ∧ row.operation = operation ∧ row.idempotencyKey = q.idempotencyKey

instance (row : IdempotencyResult) (operation : Operation) (q : Request) :
    Decidable (row.Of operation q) := by
  unfold IdempotencyResult.Of
  infer_instance

/-- The row that is on record. -/
def Store.resultOf (s : Store) (operation : Operation) (q : Request) : Option IdempotencyResult :=
  s.ledger.find? fun row => row.Of operation q

/-- The row that is looked up; nothing is under the empty key. -/
def Store.onRecord (s : Store) (operation : Operation) (q : Request) : Option IdempotencyResult :=
  if q.idempotencyKey = "" then none else s.resultOf operation q

/-- `_idempotent_get_tx`. -/
def idempotentGet (operation : Operation) (q : Request) : Tx Store Error (Option String) := do
  let s ← get
  match s.onRecord operation q with
  | none => pure none
  | some row => do
    Tx.require (row.requestDigest ∈ q.accepted)
      (.conflict "idempotency key was reused with different command parameters")
    pure (some row.result)

/-- `_idempotent_put`: a row that is there stays. -/
def idempotentPut (operation : Operation) (q : Request) (result : String) :
    Tx Store Error PUnit :=
  if q.idempotencyKey = "" then pure ⟨⟩
  else do
    let row : IdempotencyResult :=
      { actorId := q.actorId, operation, idempotencyKey := q.idempotencyKey,
        requestDigest := q.requestDigest, result }
    modify fun s => { s with ledger := (s.ledger.insert row).getD s.ledger }
    let s ← get
    Tx.require ((s.resultOf operation q).any fun row => row.requestDigest = q.requestDigest)
      (.conflict "idempotency key was concurrently reused with different command parameters")

/-- **A command.** What it asks before it looks up its key may depend on anything. -/
structure Command where
  operation : Operation
  /-- Who asks, and about what: only read. -/
  admits : Store → Except Error PUnit
  /-- The derivation of recoveries that precedes a reasoner turn. -/
  backfill : Backfill
  /-- What a reasoner turn that is on record is answered with: the purpose of the Worker is
  read again. -/
  again : Tables → String → Except Error String
  effect : Effect

/-- What is written before the key is looked up. -/
def Command.opening (c : Command) (s : Store) : Store :=
  if c.operation = .acquireReasonerTurn then { s with tables := c.backfill.run s.tables } else s

/-- What a result on record is answered as. -/
def Command.answer (c : Command) (s : Store) (result : String) : Except Error String :=
  if c.operation = .acquireReasonerTurn then c.again s.tables result else .ok result

/-- A transaction of the tables. -/
def onTables {α : Type} (m : Tx Tables Error α) : Tx Store Error α :=
  Tx.within Store.tables (fun tables s => { s with tables }) m

/-- What a command does when its key is not on record. -/
def Command.execute (c : Command) (q : Request) : Tx Store Error (Option String) := do
  match ← onTables c.effect.run with
  -- `reply` and the cleanup go on in a further transaction
  | none => pure none
  | some result => do
    idempotentPut c.operation q result
    pure (some result)

/-- Go on with what was found under the key. -/
def Command.conclude (c : Command) (q : Request) : Option String → Tx Store Error (Option String)
  | some result => some <$> Tx.ask fun s => c.answer s result
  | none => c.execute q

/-- **Execute a command.** -/
def Command.run (c : Command) (q : Request) : Tx Store Error (Option String) := do
  Tx.ask c.admits
  modify c.opening
  c.conclude q (← idempotentGet c.operation q)

/-! ## Runs -/

/-- The messages that pruning deletes: old, and settled for every recipient, unless other
rows refer to them. -/
def Tables.prunes (t : Tables) (cutoff : Instant) (retained : List MessageId) (m : Message) :
    Bool :=
  m.createdAt < cutoff ∧ m.id ∉ retained ∧
    ∀ d ∈ t.deliveries, d.messageId = m.id → d.state = .handled

/-- `Database.prune`, with the messages that other rows refer to. -/
def Tables.prune (t : Tables) (cutoff : Instant) (retained : List MessageId) : Tables :=
  { t with
    messages := t.messages.delete (t.prunes cutoff retained)
    deliveries := t.deliveries.filter fun d => (t.messages.rows.filter
      (t.prunes cutoff retained)).all fun m => m.id ≠ d.messageId }

/-- **The committed operations.** -/
inductive Event where
  | command (c : Command) (q : Request)
  /-- The last transaction of the cleanup, which does not look up its key again. -/
  | complete (c : Command) (q : Request)
  /-- Any other transaction. -/
  | transaction (m : Effect)
  | prune (cutoff : Instant) (retained : List MessageId)

/-- One operation. -/
def step (s : Store) : Event → Option Store
  | .command c q => some (Tx.commit (c.run q) s)
  | .complete c q => some (Tx.commit (c.execute q) s)
  | .transaction m => some (Tx.commit (onTables m.run) s)
  | .prune cutoff retained => some { s with tables := s.tables.prune cutoff retained }

/-- Nothing was executed. -/
def initial (s : Store) : Prop :=
  s.ledger = .empty ∧ s.tables.messages = .empty ∧ s.tables.boundaries = .empty ∧
    s.tables.sourceReceipts = .empty ∧ s.tables.submittedIntents = .empty

/-- **The control plane**, as far as keys go. -/
def system : TransitionSystem Store Event := .ofFunction initial step

end Keyed
