import OpenCAO.CommandLanes
import OpenCAO.Transaction
import OpenCAO.WorkerOutput

/-!
# Capture streams

A capture is opened under the lease of a dispatch, before the provider runs,
and ends with the end of the turn. The end is written by whoever learns of
it: by the dispatcher while it listens, by the dispatcher when the provider
fails, or by the reconciliation after a restart, which knows only that the
runtime has settled. Later, and again by one of two, the end is *settled*:
the supervisor is told once, with a message of the capture's own or with one
that tells it already.

Settlement looks for a stream by its runtime, Attempt and message, and takes
the latest generation of the delivery that has ended. So the end of an
earlier generation may wait for ever, which is why the reconciliation tells
the supervisor of an interrupted capture in a message of its own, and why
settlement has to find that message.

The tables of the ledger hold what the four functions read and write of
them. Other transactions may do to the ledger what they like, but they
record no Boundary under the source event of a capture.
-/

/-- The state of an enrollment. -/
inductive EnrollmentState where
  | awaitingHandshake | ready | stale | revoked | failed
  deriving DecidableEq, Repr

/-- The state of a launch ticket. -/
inductive EnrollmentTicketState where
  | pending | consumed | expired | revoked
  deriving DecidableEq, Repr

/-- A row of `work_items`. -/
structure CaptureWork where
  id : WorkId
  supervisorId : Option PrincipalId
  createdBy : PrincipalId
  state : WorkState
  attentionOwner : AttentionOwner
  generation : ℕ
  goalVersion : ℕ
  paused : Bool
  deriving DecidableEq, Repr

/-- Who is told about a Work. -/
def CaptureWork.toldTo (w : CaptureWork) : PrincipalId := w.supervisorId.getD w.createdBy

/-- A row of `attempts`; its Work and its number are its identifier. -/
structure CaptureAttempt where
  id : RowId
  workerId : PrincipalId
  runtimeSessionId : Option RuntimeId
  state : AttemptState
  goalVersion : ℕ
  taskPacketDigest : String
  deriving DecidableEq, Repr

/-- A row of `runtime_sessions`. -/
structure CaptureRuntime where
  id : RuntimeId
  state : RuntimeState
  nativeSessionId : String
  /-- The messages with one event of delivery, a success that is the last dispatch in the
  metadata of the runtime. -/
  lastSuccesses : List MessageId
  deriving DecidableEq, Repr

/-- A row of `worker_enrollments`. -/
structure CaptureEnrollment where
  runtimeSessionId : RuntimeId
  managed : Bool
  generation : ℕ
  state : EnrollmentState
  deriving DecidableEq, Repr

/-- A row of `runtime_enrollment_tickets`, with the runtime of its enrollment. -/
structure CaptureTicket where
  runtimeSessionId : RuntimeId
  attemptId : RowId
  generation : ℕ
  state : EnrollmentTicketState
  deriving DecidableEq, Repr

/-- The source event of a Boundary: that of a capture, or another. -/
inductive CaptureSource where
  | other
  | settled (outputId : OutputId)
  | interrupted (outputId : OutputId)
  deriving DecidableEq, Repr

/-- A row of `boundaries`; it is open while it is neither disposed nor superseded.
The table is kept in the order of creation. -/
structure CaptureBoundary where
  id : BoundaryId
  sourcePrincipalId : PrincipalId
  source : CaptureSource
  attemptId : RowId
  goalVersion : ℕ
  generation : ℕ
  kind : BoundaryKind
  isOpen : Bool
  deriving DecidableEq, Repr

/-- The idempotency key of a message: that of a capture, or another. -/
inductive CaptureMessageKey where
  | other
  | terminal (outputId : OutputId)
  | interrupted (outputId : OutputId)
  deriving DecidableEq, Repr

/-- A text of the stream, as a notification refers to it. -/
structure OutputRef where
  outputId : OutputId
  digest : ContentDigest
  captureState : CaptureState
  complete : Bool
  deriving DecidableEq, Repr

/-- The payload of a notification. -/
structure WorkerOutputNotice where
  outputId : OutputId
  outputRefs : List OutputRef
  summary : String
  generation : ℕ
  turnStatus : TurnStatus
  captureState : CaptureState
  pendingSuccessor : Bool
  deriving DecidableEq, Repr

/-- A row of `messages`. The table is kept in the order of its sequence. -/
structure CaptureMessage where
  id : MessageId
  senderId : PrincipalId
  recipientId : PrincipalId
  workItemId : Option WorkId
  attemptId : Option RowId
  goalVersion : ℕ
  taskPacketDigest : String
  idempotencyKey : CaptureMessageKey
  /-- The Boundary its payload names. -/
  boundaryId : Option BoundaryId
  notice : Option WorkerOutputNotice
  deriving DecidableEq, Repr

/-- **The ledger**, as far as captures look at it. -/
structure CaptureLedger where
  works : List CaptureWork
  attempts : List CaptureAttempt
  runtimes : List CaptureRuntime
  enrollments : List CaptureEnrollment
  tickets : List CaptureTicket
  boundaries : List CaptureBoundary
  messages : List CaptureMessage
  deliveries : List Delivery
  /-- The principals that may be sent messages. -/
  enabledPrincipals : List PrincipalId

/-- **A row of `worker_output_streams`.** -/
structure CaptureStream where
  id : OutputStreamId
  workItemId : WorkId
  attemptId : RowId
  enrollmentGeneration : ℕ
  workGeneration : ℕ
  ownerToken : String
  sourceThread : String
  sourceTurn : String
  terminalOutputId : Option OutputId
  settledAt : Option Instant
  deriving DecidableEq, Repr

/-- **The state of the captures**: the clock, the ledger, the two tables, and two
lists of what was done, last first. -/
structure CaptureStore where
  now : Instant
  ledger : CaptureLedger
  streams : List CaptureStream
  receipts : List OutputReceipt
  /-- A stream each time its settlement was written. -/
  settlements : List OutputStreamId
  /-- A stream each time a notification of its end was created. -/
  notified : List OutputStreamId

/-- Why a call fails. -/
inductive CaptureError where
  | validation (reason : String)
  | conflict (reason : String)
  | notFound (what : String)
  | integrity (table : String)
  | assertion
  | raised
  /-- The scan for credentials failed. -/
  | valueError (e : ValueError)
  deriving DecidableEq, Repr

/-- A transaction on the captures. -/
abbrev CaptureTx := Tx CaptureStore CaptureError

/-- **The dispatch a caller speaks for.** -/
structure OutputDispatch where
  runtimeId : RuntimeId
  attemptId : RowId
  deliveryMessageId : MessageId
  deliveryGeneration : ℕ
  enrollmentGeneration : ℕ
  ownerToken : String
  deriving DecidableEq, Repr

/-- The identifier of the stream of a dispatch. -/
def OutputDispatch.streamId (d : OutputDispatch) : OutputStreamId :=
  ⟨d.runtimeId, d.deliveryMessageId, d.deliveryGeneration⟩

namespace CaptureLedger

variable (l : CaptureLedger)

def work? (id : WorkId) : Option CaptureWork := l.works.find? fun w => w.id = id
def attempt? (id : RowId) : Option CaptureAttempt := l.attempts.find? fun a => a.id = id
def runtime? (id : RuntimeId) : Option CaptureRuntime := l.runtimes.find? fun r => r.id = id
def message? (id : MessageId) : Option CaptureMessage := l.messages.find? fun m => m.id = id

/-- The enrollment of a runtime. -/
def enrollment? (id : RuntimeId) : Option CaptureEnrollment :=
  l.enrollments.find? fun e => e.runtimeSessionId = id

/-- The delivery of a message through a runtime. -/
def delivery? (id : MessageId) (runtimeId : RuntimeId) : Option Delivery :=
  l.deliveries.find? fun r => r.messageId = id && r.runtimeSessionId = some runtimeId

/-- `_latest_attempt_tx`. -/
def latestAttempt? (id : WorkId) : Option CaptureAttempt :=
  (l.attempts.filter fun a => a.id.work = id).maxOn? fun a => a.id.number

/-- The runtime has settled. -/
def Settled (id : RuntimeId) : Prop := ∃ r ∈ l.runtime? id,
  r.state = .waiting ∨ r.state = .failed ∨ r.state = .missing ∨ r.state = .stopped

instance (id : RuntimeId) : Decidable (l.Settled id) := by
  unfold Settled
  infer_instance

/-- A later command to the Worker of an Attempt is on its way. -/
def Pending (a : CaptureAttempt) (runtimeId : RuntimeId) (source : MessageId) : Prop :=
  ∃ m ∈ l.messages, m.attemptId = some a.id ∧ source < m.id ∧ ∃ r ∈ l.deliveries,
    r.messageId = m.id ∧ r.recipientId = a.workerId ∧ r.runtimeSessionId = some runtimeId ∧
      r.state.unsettled = true

instance (a : CaptureAttempt) (runtimeId : RuntimeId) (source : MessageId) :
    Decidable (l.Pending a runtimeId source) := by
  unfold Pending
  infer_instance

/-- The number of the next row. -/
def next (numbers : List ℕ) : ℕ := numbers.foldr (fun n next => max (n + 1) next) 0

/-- The ledger with an Attempt whose Worker has handed its Work over. -/
def handOver (w : CaptureWork) (a : CaptureAttempt) (state : AttemptState) : CaptureLedger :=
  { l with
    attempts := Rows.update (fun b => b.id = a.id) (fun b => { b with state := state }) l.attempts
    works := Rows.update (fun v => v.id = w.id)
      (fun v => { v with state := .waitingSupervisor, attentionOwner := .cao }) l.works }

end CaptureLedger

namespace CaptureStore

variable (s : CaptureStore)

def stream? (id : OutputStreamId) : Option CaptureStream := s.streams.find? fun t => t.id = id
def receipt? (id : OutputId) : Option OutputReceipt := s.receipts.find? fun r => r.id = id

/-- The state with another ledger. -/
def withLedger (l : CaptureLedger) : CaptureStore := { s with ledger := l }

/-- The stream of a dispatch. -/
def streamOf? (d : OutputDispatch) : Option CaptureStream :=
  s.streams.find? fun t => t.id = d.streamId && t.attemptId = d.attemptId &&
    t.enrollmentGeneration = d.enrollmentGeneration

/-- A new receipt. -/
def insertReceipt (row : OutputReceipt) : CaptureStore := { s with receipts := s.receipts ++ [row] }

/-- A stream that has ended. -/
def terminated (id : OutputId) (t : CaptureStream) : CaptureStream :=
  { t with terminalOutputId := some id }

/-- A stream ends, with the receipt of its end. -/
def terminate (t : CaptureStream) (row : OutputReceipt) : CaptureStore :=
  { s.insertReceipt row with
    streams := Rows.update (fun u => u.id = t.id) (terminated row.id) s.streams }

/-- A stream that is settled. -/
def settledStream (now : Instant) (t : CaptureStream) : CaptureStream :=
  { t with settledAt := some now }

/-- A stream is settled. -/
def settle (t : CaptureStream) : CaptureStore :=
  { s with
    streams := Rows.update (fun u => u.id = t.id) (settledStream s.now) s.streams
    settlements := t.id :: s.settlements }

/-- The provider has named its thread and its turn. -/
def correlated (event : WorkerOutputEvent) (t : CaptureStream) : CaptureStream :=
  { t with
    sourceThread := if t.sourceThread = "" then event.nativeThreadId else t.sourceThread
    sourceTurn := if t.sourceTurn = "" then event.turnId else t.sourceTurn }

/-- A receipt with what its end led to. -/
def linked (notification : Option WorkMessageId) (boundaryId : Option BoundaryId)
    (row : OutputReceipt) : OutputReceipt :=
  { row with notificationMessageId := notification, boundaryId := boundaryId }

/-- A receipt is linked to what its end led to. -/
def link (id : OutputId) (notification : Option WorkMessageId) (boundaryId : Option BoundaryId) :
    CaptureStore :=
  { s with receipts :=
      Rows.update (fun r => r.id = id) (linked notification boundaryId) s.receipts }

end CaptureStore

/-! ## Opening a stream -/

namespace CaptureLedger

variable (l : CaptureLedger)

/-- The dispatch is under way: its delivery is dispatched under the token, its
enrollment is managed, and its launch ticket was not used. -/
def UnderWay (d : OutputDispatch) (m : CaptureMessage) (a : CaptureAttempt) (w : CaptureWork) :
    Prop :=
  (∃ r ∈ l.deliveries, r.messageId = m.id ∧ r.generation = d.deliveryGeneration ∧
      r.state = .dispatched ∧ r.ownerToken = d.ownerToken ∧
      r.runtimeSessionId = some d.runtimeId ∧ r.recipientId = a.workerId) ∧
    m.attemptId = some a.id ∧ a.runtimeSessionId = some d.runtimeId ∧
    (∃ e ∈ l.enrollments, e.runtimeSessionId = d.runtimeId ∧ e.managed = true ∧
      e.state ≠ .revoked ∧ e.state ≠ .failed ∧ e.state ≠ .stale) ∧
    (∃ t ∈ l.tickets, t.runtimeSessionId = d.runtimeId ∧ t.attemptId = a.id ∧
      t.generation = d.enrollmentGeneration ∧ t.state = .pending) ∧
    m.goalVersion = w.goalVersion ∧ a.goalVersion = w.goalVersion ∧
    m.taskPacketDigest = a.taskPacketDigest

instance (d : OutputDispatch) (m : CaptureMessage) (a : CaptureAttempt) (w : CaptureWork) :
    Decidable (l.UnderWay d m a w) := by
  unfold UnderWay
  infer_instance

/-- The Work of a dispatch that is under way. -/
def source? (d : OutputDispatch) : Option CaptureWork :=
  (l.message? d.deliveryMessageId).bind fun m => (l.attempt? d.attemptId).bind fun a =>
    (l.work? a.id.work).filter fun w => l.UnderWay d m a w

end CaptureLedger

namespace CaptureStore

/-- **`begin_capture`**. -/
def beginCapture (d : OutputDispatch) : CaptureTx OutputStreamId := do
  let s ← get
  let source ← Tx.need (s.ledger.source? d)
    (.conflict "Worker output capture lost its dispatch fence")
  Tx.require (d.ownerToken ≠ "") (.conflict "Worker output capture lost its dispatch fence")
  match s.stream? d.streamId with
  | some prior => do
    Tx.require (prior.ownerToken = d.ownerToken)
      (.conflict "Worker output capture is owned by another dispatch")
    pure prior.id
  | none => do
    Tx.require (∀ t ∈ s.streams, t.id.deliveryMessageId ≠ d.deliveryMessageId ∨
      t.id.deliveryGeneration ≠ d.deliveryGeneration) (.integrity "worker_output_streams")
    set ({ s with streams := s.streams ++ [
      { id := d.streamId, workItemId := source.id, attemptId := d.attemptId,
        enrollmentGeneration := d.enrollmentGeneration, workGeneration := source.generation,
        ownerToken := d.ownerToken, sourceThread := "", sourceTurn := "",
        terminalOutputId := none, settledAt := none }] } : CaptureStore)
    pure d.streamId

end CaptureStore

/-! ## Observing an event -/

/-- The event reports that the provider failed. -/
def WorkerOutputEvent.Failure (e : WorkerOutputEvent) : Prop :=
  e.kind = .turnEnd ∧ (e.status = .failed ∨ e.status = .interrupted) ∧ e.complete = false

/-- **The envelope of an event is valid.** -/
def WorkerOutputEvent.Valid (e : WorkerOutputEvent) : Prop :=
  (e.kind = .message → e.itemId ≠ "" ∧ e.status = .running) ∧
    (e.kind = .turnEnd → e.status ≠ .running) ∧
    (e.Failure ∨ (e.nativeThreadId ≠ "" ∧ e.turnId ≠ "")) ∧
    ∀ value ∈ [e.nativeThreadId, e.turnId, e.itemId], value.length ≤ 512

instance (e : WorkerOutputEvent) : Decidable e.Valid := by
  unfold WorkerOutputEvent.Valid WorkerOutputEvent.Failure
  infer_instance

/-- The receipt an event of a stream is kept under. -/
def CaptureStream.outputId (t : CaptureStream) (e : WorkerOutputEvent) : OutputId :=
  match e.kind with
  | .message => .message t.id e.itemId
  | .turnEnd => .terminal t.id

/-- The provider named another thread or turn before. -/
def CaptureStream.Contradicts (t : CaptureStream) (e : WorkerOutputEvent) : Prop :=
  (t.sourceThread ≠ "" ∧ e.nativeThreadId ≠ "" ∧ t.sourceThread ≠ e.nativeThreadId) ∨
    (t.sourceTurn ≠ "" ∧ e.turnId ≠ "" ∧ t.sourceTurn ≠ e.turnId)

instance (t : CaptureStream) (e : WorkerOutputEvent) : Decidable (t.Contradicts e) := by
  unfold CaptureStream.Contradicts
  infer_instance

namespace CaptureLedger

variable (l : CaptureLedger)

/-- The dispatch of a stream is still the current one. -/
def Current (t : CaptureStream) (d : OutputDispatch) (a : CaptureAttempt) (w : CaptureWork) :
    Prop :=
  (∃ e ∈ l.enrollment? d.runtimeId,
      (e.generation + 1 = d.enrollmentGeneration ∨ e.generation = d.enrollmentGeneration) ∧
      e.state ≠ .revoked ∧ e.state ≠ .failed ∧ e.state ≠ .stale) ∧
    w.generation = t.workGeneration ∧
    (∃ k ∈ l.tickets, k.runtimeSessionId = d.runtimeId ∧ k.attemptId = d.attemptId ∧
      k.generation = d.enrollmentGeneration ∧ (k.state = .pending ∨ k.state = .consumed)) ∧
    (∃ r ∈ l.delivery? d.deliveryMessageId d.runtimeId, r.generation = d.deliveryGeneration ∧
      ((r.state = .dispatched ∧ r.ownerToken = d.ownerToken) ∨ r.state = .delivered ∨
        r.state = .acknowledged ∨ r.state = .handled)) ∧
    w.state.terminal = false ∧ a.runtimeSessionId = some d.runtimeId ∧
    a.goalVersion = w.goalVersion ∧ ∃ latest ∈ l.latestAttempt? t.workItemId, latest.id = d.attemptId

instance (t : CaptureStream) (d : OutputDispatch) (a : CaptureAttempt) (w : CaptureWork) :
    Decidable (l.Current t d a w) := by
  unfold Current
  infer_instance

/-- The runtime runs another thread than the one the event is of. -/
def OtherThread (runtimeId : RuntimeId) (e : WorkerOutputEvent) : Prop :=
  ∃ r ∈ l.runtime? runtimeId, r.nativeSessionId ≠ "" ∧ e.nativeThreadId ≠ "" ∧
    r.nativeSessionId ≠ e.nativeThreadId

instance (runtimeId : RuntimeId) (e : WorkerOutputEvent) : Decidable (l.OtherThread runtimeId e) := by
  unfold OtherThread
  infer_instance

/-- The runtime keeps the thread its provider created. -/
def keepThread (runtimeId : RuntimeId) (e : WorkerOutputEvent) : CaptureLedger :=
  if e.nativeThreadId = "" then l
  else
    { l with
      runtimes := Rows.update (fun r => r.id = runtimeId && r.nativeSessionId = "")
        (fun r => { r with nativeSessionId := e.nativeThreadId }) l.runtimes }

/-- A completed turn has consumed the message it was about. -/
def consume (d : OutputDispatch) : CaptureLedger :=
  { l with
    deliveries := Rows.update
      (fun r => r.messageId = d.deliveryMessageId && r.generation = d.deliveryGeneration &&
        r.runtimeSessionId = some d.runtimeId && (r.state = .dispatched || r.state = .delivered ||
          r.state = .acknowledged)) (Delivery.settled .handled) l.deliveries }

end CaptureLedger

/-- The receipt of an event. -/
def CaptureStream.receipt (t : CaptureStream) (e : WorkerOutputEvent) (content : CapturedContent) :
    OutputReceipt :=
  { id := t.outputId e, streamId := t.id, workItemId := t.workItemId, attemptId := t.attemptId,
    eventKind := e.kind, phase := e.phase, turnStatus := e.status, captureState := .empty,
    contentDigest := [], byteCount := 0, complete := false, eventDigest := .event e,
    notificationMessageId := none, boundaryId := none : OutputReceipt }.withContent content

namespace CaptureStore

/-- **`observe_output`**. -/
def observeOutput (secrets : SecretScan) (staged : Bool) (d : OutputDispatch)
    (e : WorkerOutputEvent) : CaptureTx OutputReceipt := do
  Tx.require e.Valid (.validation "invalid provider-owned Worker output envelope")
  let s ← get
  let t ← Tx.need (s.streamOf? d)
    (.conflict "Worker output capture has no exact dispatch reservation")
  Tx.require (t.ownerToken = d.ownerToken)
    (.conflict "Worker output capture has no exact dispatch reservation")
  match s.receipt? (t.outputId e) with
  | some prior => do
    Tx.require (prior.eventDigest = .event e)
      (.conflict "Worker output event identity was reused with different content")
    pure prior
  | none => do
    Tx.require (t.terminalOutputId = none) (.conflict "Worker output stream is already terminal")
    let a ← Tx.need (s.ledger.attempt? d.attemptId)
      (.conflict "Worker output targets a retired dispatch or Work generation")
    let w ← Tx.need (s.ledger.work? t.workItemId)
      (.conflict "Worker output targets a retired dispatch or Work generation")
    Tx.require (s.ledger.Current t d a w)
      (.conflict "Worker output targets a retired dispatch or Work generation")
    Tx.require (¬ s.ledger.OtherThread d.runtimeId e)
      (.conflict "Worker output belongs to another provider thread")
    Tx.require (¬ t.Contradicts e) (.conflict "Worker output belongs to another provider turn")
    let content ← Tx.ask fun _ => (capturedContent secrets staged e).mapError .valueError
    let row := t.receipt e content
    modify fun s => { s.withLedger (s.ledger.keepThread d.runtimeId e) with
      streams := Rows.update (fun u => u.id = t.id) (correlated e) s.streams }
    if e.kind = .turnEnd then do
      modify fun s => s.terminate t row
      Tx.when (e.status = .completed) (modify fun s => s.withLedger (s.ledger.consume d))
    else modify fun s => s.insertReceipt row
    pure row

end CaptureStore

/-! ## Settling a stream -/

namespace CaptureLedger

variable (l : CaptureLedger)

/-- The capture is not about what its Work is at now. -/
def Retired (w : CaptureWork) (a : CaptureAttempt) : Prop :=
  w.state.terminal = true ∨ w.state = .suspended ∨ w.goalVersion ≠ a.goalVersion ∨
    ∀ latest ∈ l.latestAttempt? w.id, latest.id ≠ a.id

instance (w : CaptureWork) (a : CaptureAttempt) : Decidable (l.Retired w a) := by
  unfold Retired
  infer_instance

/-- The open Boundary of an Attempt at the generation of its Work, the last recorded. -/
def boundary? (w : CaptureWork) (a : CaptureAttempt) : Option CaptureBoundary :=
  (l.boundaries.filter fun b => b.attemptId = a.id && b.generation = w.generation &&
    b.isOpen).getLast?

/-- The open Boundary of an Attempt at any generation, the last recorded. -/
def anyBoundary? (a : CaptureAttempt) : Option CaptureBoundary :=
  (l.boundaries.filter fun b => b.attemptId = a.id && b.isOpen).getLast?

/-- The Work, the enrollment and the delivery are at the generations of the stream. -/
def ExactGeneration (t : CaptureStream) (w : CaptureWork) : Prop :=
  w.generation = t.workGeneration ∧
    (∃ e ∈ l.enrollment? t.id.runtimeId, e.generation = t.enrollmentGeneration) ∧
    ∃ r ∈ l.delivery? t.id.deliveryMessageId t.id.runtimeId,
      r.generation = t.id.deliveryGeneration

instance (t : CaptureStream) (w : CaptureWork) : Decidable (l.ExactGeneration t w) := by
  unfold ExactGeneration
  infer_instance

/-- The turn completed, and the runtime proves that its dispatch succeeded. -/
def Successful (t : CaptureStream) (w : CaptureWork) (r : CaptureRuntime)
    (output : OutputReceipt) : Prop :=
  l.ExactGeneration t w ∧ r.state = .waiting ∧
    (∃ e ∈ l.enrollment? t.id.runtimeId, e.state = .ready) ∧
    t.id.deliveryMessageId ∈ r.lastSuccesses ∧ output.turnStatus = .completed

instance (t : CaptureStream) (w : CaptureWork) (r : CaptureRuntime) (output : OutputReceipt) :
    Decidable (l.Successful t w r output) := by
  unfold Successful
  infer_instance

/-- A message that tells of a Boundary and was not handled yet. -/
def Tells (w : CaptureWork) (a : CaptureAttempt) (b : CaptureBoundary) (m : CaptureMessage) :
    Prop :=
  m.workItemId = some w.id ∧ m.attemptId = some a.id ∧ m.boundaryId = some b.id ∧
    ∃ r ∈ l.deliveries, r.messageId = m.id ∧ r.recipientId = w.toldTo ∧ r.state.unsettled = true

instance (w : CaptureWork) (a : CaptureAttempt) (b : CaptureBoundary) (m : CaptureMessage) :
    Decidable (l.Tells w a b m) := by
  unfold Tells
  infer_instance

/-- The last message that tells of a Boundary. -/
def notification? (w : CaptureWork) (a : CaptureAttempt) (b : CaptureBoundary) :
    Option CaptureMessage :=
  (l.messages.filter fun m => decide (l.Tells w a b m)).getLast?

end CaptureLedger

namespace CaptureStore

variable (s : CaptureStore)

/-- The texts of a stream: its final ones, or all when none is final. -/
def outputRefs (id : OutputStreamId) : List OutputRef :=
  let texts := s.receipts.filter fun r => r.streamId = id && r.eventKind = .message
  let finals := texts.filter fun r => r.phase = .final
  (if finals = [] then texts else finals).map fun r =>
    ⟨r.id, r.contentDigest, r.captureState, r.complete⟩

/-- The stream a settlement is about: the latest generation that has ended, on a runtime
that has settled. -/
def latestEnded? (runtimeId : RuntimeId) (attemptId : RowId) (messageId : MessageId) :
    Option CaptureStream :=
  if s.ledger.Settled runtimeId then
    (s.streams.filter fun t => t.id.runtimeId = runtimeId && t.attemptId = attemptId &&
      t.id.deliveryMessageId = messageId && t.terminalOutputId.isSome).maxOn?
        fun t => t.id.deliveryGeneration
  else none

/-- **`_record_boundary_tx`**, for a Boundary of a capture: what was recorded under its
source event stays. -/
def recordBoundary (w : CaptureWork) (a : CaptureAttempt) (kind : BoundaryKind)
    (source : CaptureSource) : CaptureTx CaptureBoundary := do
  let s ← get
  match s.ledger.boundaries.find? fun b => b.sourcePrincipalId = a.workerId && b.source = source
  with
  | some b => do
    Tx.require (b.attemptId = a.id ∧ b.goalVersion = w.goalVersion ∧ b.generation = w.generation ∧
      b.kind = kind) (.conflict "boundary source identity was reused with different data")
    pure b
  | none => do
    Tx.require (a.goalVersion = w.goalVersion)
      (.conflict "boundary targets a stale or partial task packet")
    Tx.require (∃ latest ∈ s.ledger.latestAttempt? w.id, latest.id = a.id)
      (.conflict "boundary targets a superseded attempt")
    Tx.require (w.paused = false) (.conflict "work is paused")
    let b : CaptureBoundary :=
      { id := ⟨w.id, CaptureLedger.next (s.ledger.boundaries.map (·.id.number))⟩
        sourcePrincipalId := a.workerId, source := source, attemptId := a.id
        goalVersion := w.goalVersion, generation := w.generation, kind := kind, isOpen := true }
    modify fun s => s.withLedger { s.ledger with boundaries := s.ledger.boundaries ++ [b] }
    pure b

/-- **`_message`**, for a notification of the end of a stream: what was sent under its
key stays. -/
def sendNotice (stream : OutputStreamId) (w : CaptureWork) (a : CaptureAttempt)
    (key : CaptureMessageKey) (boundaryId : Option BoundaryId) (notice : WorkerOutputNotice) :
    CaptureTx CaptureMessage := do
  let s ← get
  Tx.require (a.goalVersion = w.goalVersion)
    (.conflict "message cannot bind a stale task packet")
  Tx.require a.runtimeSessionId.isSome
    (.conflict "Worker message cannot bind an attempt without a runtime")
  let m : CaptureMessage :=
    { id := CaptureLedger.next (s.ledger.messages.map (·.id)), senderId := a.workerId
      recipientId := w.toldTo, workItemId := some w.id, attemptId := some a.id
      goalVersion := w.goalVersion, taskPacketDigest := a.taskPacketDigest
      idempotencyKey := key, boundaryId := boundaryId, notice := some notice }
  match s.ledger.messages.find? fun m => m.senderId = a.workerId && m.idempotencyKey = key with
  | some existing => do
    Tx.require (existing = { m with id := existing.id })
      (.conflict "message idempotency key was reused with different content")
    pure existing
  | none => do
    Tx.require (w.toldTo ∈ s.ledger.enabledPrincipals) (.notFound "enabled message recipient")
    modify fun s =>
      { s.withLedger
          { s.ledger with
            messages := s.ledger.messages ++ [m]
            deliveries := s.ledger.deliveries ++
              [Delivery.queuedFor s.now m.id (w.toldTo, none, none)] } with
        notified := stream :: s.notified }
    pure m

/-- The Boundary at which the end of a stream is published: the open one, or a new one
when the Worker of an active Work has ended its last turn. -/
def publishBoundary (w : CaptureWork) (a : CaptureAttempt) (output : OutputReceipt)
    (boundary : Option CaptureBoundary) (pending : Prop) [Decidable pending] :
    CaptureTx (Option CaptureBoundary) :=
  match boundary with
  | some b => pure (some b)
  | none =>
    if w.state = .active ∧ ¬ pending then do
      modify fun s => s.withLedger (s.ledger.handOver w a .waitingSupervisor)
      let b ← recordBoundary w a .workerOutput (.settled output.id)
      pure (some b)
    else pure none

/-- The notification of the end of a stream: one that tells of the Boundary, or a new
one. -/
def notify (t : CaptureStream) (w : CaptureWork) (a : CaptureAttempt) (output : OutputReceipt)
    (boundary : Option CaptureBoundary) (pending : Prop) [Decidable pending] :
    CaptureTx CaptureMessage := do
  let s ← get
  match boundary.bind (s.ledger.notification? w a) with
  | some m => pure m
  | none =>
    sendNotice t.id w a (.terminal output.id) (boundary.map (·.id))
      { outputId := output.id, outputRefs := s.outputRefs t.id
        summary :=
          "Worker provider turn settled; inspect captured output and the current Work boundary."
        generation := w.generation, turnStatus := output.turnStatus
        captureState := output.captureState, pendingSuccessor := decide pending }

/-- **`finalize_capture_tx`**. -/
def finalizeCapture (runtimeId : RuntimeId) (attemptId : RowId) (messageId : MessageId) :
    CaptureTx (Option OutputReceipt) := do
  let s ← get
  match s.latestEnded? runtimeId attemptId messageId with
  | none => pure none
  | some t => do
    let output ← Tx.need (t.terminalOutputId.bind s.receipt?) .assertion
    if t.settledAt ≠ none then pure (some output)
    else do
      let w ← Tx.need (s.ledger.work? t.workItemId) .assertion
      let a ← Tx.need (s.ledger.attempt? attemptId) .assertion
      let r ← Tx.need (s.ledger.runtime? runtimeId) .assertion
      let boundary := s.ledger.boundary? w a
      if s.ledger.Retired w a ∨
          (¬ s.ledger.ExactGeneration t w ∧ ∀ b ∈ boundary, b.kind ≠ .failure) then do
        -- A retired stream is kept as history and never promoted.
        modify fun s => s.settle t
        pure (some output)
      else if boundary = none ∧ ¬ s.ledger.Successful t w r output then
        -- A failure is for the recovery of the runtime to classify.
        pure none
      else do
        let pending := s.ledger.Pending a runtimeId messageId
        let boundary ← publishBoundary w a output boundary pending
        let m ← notify t w a output boundary pending
        modify fun s => (s.link output.id (some ⟨w.id, m.id⟩) (boundary.map (·.id))).settle t
        let s ← get
        let result ← Tx.need (s.receipt? output.id) .assertion
        pure (some result)

end CaptureStore

/-! ## Reconciling after a restart -/

/-- The receipt of the end of a capture that was interrupted. -/
def CaptureStream.interruption (t : CaptureStream) (a : CaptureAttempt) (w : CaptureWork) :
    OutputReceipt :=
  { id := .terminal t.id, streamId := t.id, workItemId := w.id, attemptId := a.id,
    eventKind := .turnEnd, phase := .final, turnStatus := .interrupted,
    captureState := .unavailable, contentDigest := [], byteCount := 0, complete := false,
    eventDigest := .captureInterrupted t.id, notificationMessageId := none, boundaryId := none }

namespace CaptureLedger

variable (l : CaptureLedger)

/-- The runtime of the stream failed, and its Attempt was not recovered. -/
def Stranded (t : CaptureStream) : Prop :=
  t.settledAt = none ∧
    (∃ r ∈ l.runtime? t.id.runtimeId, r.state = .failed ∨ r.state = .missing) ∧
    (∃ e ∈ l.enrollment? t.id.runtimeId, e.state = .failed ∧
      t.enrollmentGeneration ≤ e.generation ∧ e.generation ≤ t.enrollmentGeneration + 1) ∧
    (∃ r ∈ l.delivery? t.id.deliveryMessageId t.id.runtimeId,
      r.generation = t.id.deliveryGeneration) ∧
    ∃ a ∈ l.attempt? t.attemptId,
      (a.state = .assigned ∨ a.state = .accepted ∨ a.state = .working) ∧
      ∃ w ∈ l.work? t.workItemId, w.state = .active ∧ w.attentionOwner = .worker ∧
        w.generation = t.workGeneration ∧ w.goalVersion = a.goalVersion ∧
        ∃ latest ∈ l.latestAttempt? w.id, latest.id = a.id

instance (t : CaptureStream) : Decidable (l.Stranded t) := by
  unfold Stranded
  infer_instance

/-- Nothing says how the turn of the stream ended: its Work is still at the generation
of the stream, and nothing is open or under way. -/
def Abandoned (t : CaptureStream) (w : CaptureWork) (a : CaptureAttempt) : Prop :=
  l.anyBoundary? a = none ∧ ¬ l.Pending a t.id.runtimeId t.id.deliveryMessageId ∧
    w.state = .active ∧ (∃ latest ∈ l.latestAttempt? w.id, latest.id = a.id) ∧
    w.generation = t.workGeneration

instance (t : CaptureStream) (w : CaptureWork) (a : CaptureAttempt) :
    Decidable (l.Abandoned t w a) := by
  unfold Abandoned
  infer_instance

end CaptureLedger

namespace CaptureStore

/-- The end of a stream whose runtime settled without one. -/
def interruptStream (t : CaptureStream) : CaptureTx PUnit := do
  let s ← get
  match s.ledger.attempt? t.attemptId, s.ledger.work? t.workItemId with
  | some a, some w => do
    let row := t.interruption a w
    Tx.require (s.receipt? row.id = none) (.integrity "worker_output_receipts")
    modify fun s => s.terminate t row
    if s.ledger.Abandoned t w a then do
      modify fun s => s.withLedger (s.ledger.handOver w a .systemReconciliation)
      let b ← recordBoundary w a .failure (.interrupted row.id)
      let m ← sendNotice t.id w a (.interrupted row.id) (some b.id)
        { outputId := row.id, outputRefs := []
          summary := "Worker output capture was interrupted; inspect the system reconciliation boundary."
          generation := w.generation, turnStatus := .interrupted, captureState := .unavailable
          pendingSuccessor := false }
      modify fun s => s.link row.id (some ⟨w.id, m.id⟩) (some b.id)
    else modify fun s => s.link row.id none ((s.ledger.anyBoundary? a).map (·.id))
  | _, _ => pure ⟨⟩

/-- **`reconcile_abandoned_captures`**. The recovery of stranded Attempts is code of the
control plane. -/
def reconcileAbandonedCaptures
    (recover : RuntimeId → CaptureLedger → Except CaptureError CaptureLedger) :
    CaptureTx PUnit := do
  let s ← get
  Tx.each (fun id => do
      let s ← get
      match recover id s.ledger with
      | .ok l => set (s.withLedger l)
      | .error e => throw e)
    ((s.streams.filter fun t => decide (s.ledger.Stranded t)).map (·.id.runtimeId)).dedup
  let s ← get
  Tx.each interruptStream (s.streams.filter fun t =>
    t.terminalOutputId = none && decide (s.ledger.Settled t.id.runtimeId))
  let s ← get
  Tx.each (fun t => do
      let _ ← finalizeCapture t.id.runtimeId t.attemptId t.id.deliveryMessageId)
    (s.streams.filter fun t => t.terminalOutputId.isSome && t.settledAt = none &&
      decide (s.ledger.Settled t.id.runtimeId))

end CaptureStore

/-! ## The system -/

/-- Nobody else records a Boundary under the source event of a capture. -/
def CaptureLedger.Foreign (l l' : CaptureLedger) : Prop :=
  ∀ b ∈ l'.boundaries, b.source ≠ .other → ∃ b₀ ∈ l.boundaries, b₀.source = b.source

namespace CaptureStore

/-- **The events.** -/
inductive Event where
  /-- The clock advances. -/
  | tick (seconds : ℕ)
  /-- Other transactions of the control plane. -/
  | foreign (ledger : CaptureLedger)
  /-- `begin_capture`. -/
  | begin (d : OutputDispatch)
  /-- `observe_output`; the archive takes the content or not. -/
  | observe (staged : Bool) (d : OutputDispatch) (e : WorkerOutputEvent)
  /-- `finalize_capture_tx`, in a transaction of the dispatcher. -/
  | finalize (runtimeId : RuntimeId) (attemptId : RowId) (messageId : MessageId)
  /-- `reconcile_abandoned_captures`. -/
  | reconcile (recover : RuntimeId → CaptureLedger → Except CaptureError CaptureLedger)

variable (secrets : SecretScan)

/-- **One step**; a call that fails changes nothing. -/
def step (s : CaptureStore) : Event → CaptureStore
  | .tick seconds => { s with now := s.now + seconds }
  | .foreign l => s.withLedger l
  | .begin d => Tx.commit (beginCapture d) s
  | .observe staged d e => Tx.commit (observeOutput secrets staged d e) s
  | .finalize runtimeId attemptId messageId =>
    Tx.commit (finalizeCapture runtimeId attemptId messageId) s
  | .reconcile recover => Tx.commit (reconcileAbandonedCaptures recover) s

/-- Other code records no Boundary of a capture. -/
def Separate (s : CaptureStore) : Event → Prop
  | .foreign l => s.ledger.Foreign l
  | .reconcile recover => ∀ id l l', recover id l = .ok l' → l.Foreign l'
  | _ => True

/-- The initial states: no stream was opened, nothing was captured. -/
def Initial (s : CaptureStore) : Prop :=
  s.streams = [] ∧ s.receipts = [] ∧ s.settlements = [] ∧ s.notified = [] ∧
    ∀ b ∈ s.ledger.boundaries, b.source = .other

/-- **The system of the captures.** -/
def system : TransitionSystem CaptureStore Event where
  init := Initial
  step s e s' := s.Separate e ∧ s.step secrets e = s'

end CaptureStore
