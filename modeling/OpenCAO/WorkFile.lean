import OpenCAO.Digest
import OpenCAO.Rows
import OpenCAO.Transaction

/-!
# The file of a Work

Every row that the supervision of a Work is about names that Work and
never another: its goal revisions, its Attempts, its Boundaries with the
turns that reason about them and the rows that settle them, its pauses,
messages, reviews and decisions. So the tables fall apart by Work, and
the rows of one Work are its *file*. What a transaction reads elsewhere
– principals, runtimes, attachments, deliveries, the rows of other Works –
reaches it through an `Env`.

Rows of a table stand newest first. An Attempt is named by its number
within its Work.
-/

/-! ## Rows -/

/-- **A row of `work_items`.** -/
structure Work where
  supervisorId : PrincipalId
  supervisorAttachmentId : Option AttachmentId
  requesterId : Option PrincipalId
  assignedWorkerId : PrincipalId
  state : WorkState
  attentionOwner : AttentionOwner
  generation : ℕ
  goalVersion : ℕ
  suspendedByWorkItemId : Option WorkId
  userNeededBoundaryId : Option BoundaryId
  pausedBoundaryId : Option BoundaryId
  deriving DecidableEq, Repr

/-- **A row of `goal_revisions`**, with the purpose that
`work_purpose_bindings` binds to it. -/
structure GoalRevision where
  version : ℕ
  title : String
  objective : String
  maturity : String
  acceptance : List String
  nonGoals : List String
  priority : ℕ
  requesterId : Option PrincipalId
  supervisorId : Option PrincipalId
  metadata : String
  packet : GoalPacket
  packetDigest : Digest
  reason : String
  createdBy : PrincipalId
  sourceIntentId : Option ℕ
  sourceDirectiveId : Option DirectiveId
  correlationId : Option ℕ
  priorVersion : Option ℕ
  supervisorAttachmentGeneration : Option ℕ
  supervisorRuntimeSessionId : Option RuntimeId
  workerPurpose : Option String
  deriving DecidableEq, Repr

/-- **A row of `attempts`.** -/
structure Attempt where
  number : ℕ
  workerId : PrincipalId
  runtimeSessionId : Option RuntimeId
  goalVersion : ℕ
  goalPacketDigest : Digest
  taskPacketDigest : Digest
  state : AttemptState
  evidenceConfidence : EvidenceConfidence
  deriving DecidableEq, Repr

/-- An Attempt in another state. -/
def Attempt.inState (state : AttemptState) (a : Attempt) : Attempt := { a with state := state }

/-- An Attempt that is completed, with its evidence verified. -/
def Attempt.verified (a : Attempt) : Attempt :=
  { a with state := .completed, evidenceConfidence := .verified }

/-- The recovery class of a Boundary, derived from proofs that may change. -/
inductive RecoveryAction where
  | none | disposeContinueOrCorrect | reconcileContinueSameThread | systemReconciliation
  deriving DecidableEq, Repr

/-- A recovery of this class can be reasoned about. -/
def RecoveryAction.actionable : RecoveryAction → Bool
  | .none => false
  | .disposeContinueOrCorrect | .reconcileContinueSameThread | .systemReconciliation => true

/-- **A row of `boundaries`.** -/
structure Boundary where
  id : BoundaryId
  sourcePrincipalId : PrincipalId
  sourceEventId : SourceEventId
  attemptNumber : ℕ
  goalVersion : ℕ
  generation : ℕ
  goalPacketDigest : Digest
  taskPacketDigest : Digest
  kind : BoundaryKind
  summary : String
  metadata : BoundaryMetadata
  recoveryAction : RecoveryAction
  inputDigest : Digest
  deriving DecidableEq, Repr

/-- The Boundary reports the recovery of a runtime or of the system. -/
def Boundary.Recovering (b : Boundary) : Prop :=
  b.metadata.runtimeRecovery = true ∨ b.metadata.systemRecovery = true

instance (b : Boundary) : Decidable b.Recovering := by
  unfold Boundary.Recovering
  infer_instance

/-- **A row of `reasoner_turns`.** The token is `none` where the system
seals a turn that nobody leased. -/
structure ReasonerTurn where
  id : TurnId
  supervisorId : PrincipalId
  boundaryId : BoundaryId
  generation : ℕ
  goalVersion : ℕ
  goalPacketDigest : Digest
  taskPacketDigest : Digest
  inputDigest : Digest
  resultDigest : Option Digest
  state : ReasonerTurnState
  leaseToken : Option String
  leaseExpiresAt : Instant
  idempotencyKey : TurnKey
  deriving DecidableEq, Repr

/-- **A row of `boundary_dispositions`.** -/
structure BoundaryDisposition where
  id : DispositionId
  boundaryId : BoundaryId
  reasonerTurnId : TurnId
  decidedBy : PrincipalId
  generation : ℕ
  kind : BoundaryDispositionKind
  reason : String
  instruction : String
  resumeCondition : String
  requestDigest : Digest
  deriving DecidableEq, Repr

/-- Why a Boundary was superseded. -/
inductive SupersessionReason where
  | workCanceled | recoveryBoundaryReplaced | goalReplaced | workTerminalDisposition
  deriving DecidableEq, Repr

/-- **A row of `boundary_supersessions`.** -/
structure BoundarySupersession where
  boundaryId : BoundaryId
  reason : SupersessionReason
  deriving DecidableEq, Repr

/-- **A row of `boundary_continuations`**: the requester's decision on a
Boundary was consumed. -/
structure BoundaryContinuation where
  boundaryId : BoundaryId
  sourceAttemptNumber : ℕ
  sourceGeneration : ℕ
  successorAttemptNumber : ℕ
  successorGeneration : ℕ
  messageId : WorkMessageId
  decidedBy : PrincipalId
  deriving DecidableEq, Repr

/-- **A row of `work_pauses`.** -/
structure WorkPause where
  boundaryId : BoundaryId
  attemptNumber : ℕ
  sourceGeneration : ℕ
  pauseGeneration : ℕ
  pausedBy : PrincipalId
  deriving DecidableEq, Repr

/-- **A row of `work_pause_resumptions`.** -/
structure WorkPauseResumption where
  boundaryId : BoundaryId
  previousAttemptNumber : ℕ
  successorAttemptNumber : ℕ
  expectedGeneration : ℕ
  successorGeneration : ℕ
  messageId : WorkMessageId
  resumedBy : PrincipalId
  deriving DecidableEq, Repr

/-- What a message asks its recipient to do. -/
inductive MessageAction where
  | assign | «continue» | correct | reconcileContinue | resume | cancel | review | report
  | requesterEscalation | reviewRuntimeBoundary
  | recoverExpiredReasonerTurn | recoverIncompleteReasonerTurn | workerOutput
  deriving DecidableEq, Repr

/-- The payload of a message: what queries read of it, and its texts. -/
structure MessagePayload where
  action : MessageAction
  boundaryId : Option BoundaryId
  generation : Option ℕ
  references : List RowId
  texts : List String
  deriving DecidableEq, Repr

/-- A message as it is asked for, before it is bound to its packets. -/
structure MessageRequest where
  senderId : PrincipalId
  recipientId : PrincipalId
  kind : MessageKind
  payload : MessagePayload
  attemptNumber : ℕ
  goalVersion : ℕ
  idempotencyKey : MessageKey
  deriving DecidableEq, Repr

/-- **A row of `messages`** of a Work. -/
structure Message extends MessageRequest where
  id : WorkMessageId
  goalPacketDigest : Digest
  taskPacketDigest : Digest
  deriving DecidableEq, Repr

/-- **A row of `reviews`.** -/
structure Review where
  id : ReviewId
  attemptNumber : ℕ
  boundaryId : Option BoundaryId
  reviewerId : PrincipalId
  reviewerRole : PrincipalRole
  supervisorAttachmentId : Option AttachmentId
  supervisorAttachmentGeneration : Option ℕ
  workGeneration : ℕ
  goalVersion : ℕ
  goalPacketDigest : Digest
  taskPacketDigest : Digest
  verdict : ReviewVerdict
  deriving DecidableEq, Repr

/-- **A row of `requester_decisions`.** -/
structure RequesterDecision where
  id : DecisionId
  attemptNumber : ℕ
  reviewId : ReviewId
  requesterId : PrincipalId
  recordedBy : PrincipalId
  supervisorAttachmentId : AttachmentId
  supervisorAttachmentGeneration : ℕ
  goalVersion : ℕ
  goalPacketDigest : Digest
  taskPacketDigest : Digest
  workGeneration : ℕ
  accepted : Bool
  requestDigest : Digest
  deriving DecidableEq, Repr

/-- What identifies a conversation for ever. -/
structure AttachmentIdentity where
  principalId : PrincipalId
  nativeThreadId : NativeThreadId
  projectDigest : String
  deriving DecidableEq, Repr

/-- **The file of a Work**, with the identity of its conversation. -/
structure WorkFile where
  id : WorkId
  work : Work
  attachment : Option AttachmentIdentity
  goals : List GoalRevision
  attempts : List Attempt
  boundaries : List Boundary
  turns : List ReasonerTurn
  dispositions : List BoundaryDisposition
  supersessions : List BoundarySupersession
  continuations : List BoundaryContinuation
  pauses : List WorkPause
  resumptions : List WorkPauseResumption
  messages : List Message
  reviews : List Review
  decisions : List RequesterDecision
  nextNumber : ℕ
  deriving DecidableEq, Repr

/-! ## Errors and what a transaction reads elsewhere -/

/-- The errors of the service's own. -/
inductive ServiceError where
  | validation (message : String)
  | notFound (resource : String)
  | authorization (message : String)
  | conflict (message : String)
  | staleGeneration (expected actual : ℕ)
  | staleGoal (expected actual : ℕ)
  deriving DecidableEq, Repr

/-- **What a transaction fails with**: an error of the service's own, a
`RuntimeError`, a failed `assert`, or an integrity error of the database
with its constraint or the text of its trigger. -/
inductive Failure where
  | service (error : ServiceError)
  | runtimeError (message : String)
  | assertion
  | integrity (message : String)
  deriving DecidableEq, Repr

/-- The failure is one of the service's own errors. -/
def Failure.Typed : Failure → Prop
  | .service _ => True
  | .runtimeError _ | .assertion | .integrity _ => False

/-- A transaction on a file. -/
abbrev FileTx := Tx WorkFile Failure

/-- Whoever calls. -/
structure Actor where
  id : PrincipalId
  role : PrincipalRole
  attachmentId : Option AttachmentId
  attachmentGeneration : ℕ
  deriving DecidableEq, Repr

/-- The route a command takes to a Worker: whether it needs another
Attempt, and the runtime of that Attempt. -/
structure Admission where
  newAttempt : Bool
  runtimeSessionId : Option RuntimeId
  deriving DecidableEq, Repr

/-- Whether a command could be executed now. -/
inductive Preflight where
  /-- It could. -/
  | clear
  /-- An earlier command of the Worker has an unknown outcome. -/
  | outcomeUnsettled
  /-- It could not, for another reason. -/
  | refused (error : ServiceError)
  deriving DecidableEq, Repr

/-- **What a transaction finds outside the tables of its Work.** Each
field answers for one of the checks that the service delegates to code
about principals, runtimes, attachments, purposes, deliveries and stored
results. -/
structure World where
  now : Instant
  /-- `_require_current_cao_attachment_actor_tx`. -/
  callerCurrent : Except ServiceError Unit
  /-- `_confirm_work_purpose_tx`. -/
  purpose : Except ServiceError Unit
  /-- `_require_worker_safe_task_payload`. -/
  payloadSafe : Except ServiceError Unit
  /-- `_idempotent_get_tx`: a stored result, or a key used for something
  else. -/
  cached : Option (Except ServiceError Unit)
  /-- `cao_automatic_wake_ready_tx`. -/
  wakeReady : Option AttachmentId → Bool
  /-- The admission of a command, with every check of its Worker and of
  its runtime. -/
  admission : Except ServiceError Admission
  /-- `_preflight_managed_worker_command_tx`. -/
  preflight : Preflight
  /-- No runtime of the Attempt is busy, and no capture, delivery or
  effect is unsettled. -/
  executionSettled : Bool
  /-- The directive of a directive Boundary is pending. -/
  directivePending : Bool
  /-- `_require_completion_delivery_ready_tx` and the checks of a review's
  content. -/
  completionReady : Except ServiceError Unit
  /-- `_disposed_retry_residue_result_tx`: a retry asked for again. -/
  residue : Except ServiceError Unit
  /-- The requester is known. -/
  requesterKnown : Bool
  /-- Why a message cannot be delivered, if it cannot. -/
  messageRefused : MessageRequest → Option ServiceError
  /-- The wake runtime and the generation of a conversation that can be
  sealed, `_attachment_packet_tx`. -/
  attachmentSeal : AttachmentId → Except ServiceError (RuntimeId × ℕ)
  /-- The runtime of an Attempt can take a message. -/
  runtimeLive : Attempt → Bool
  /-- The class of a recovery whose execution can be proved now. -/
  recoveryRoute : BoundaryId → RecoveryAction
  /-- A wake of the Boundary is being handed off. -/
  wakeDispatched : BoundaryId → Bool

/-- **What a transaction finds outside its file**: the world and the keys
that other Works have taken. -/
structure Env extends World where
  turnKeyTaken : PrincipalId → TurnKey → Bool
  sourceEventTaken : PrincipalId → SourceEventId → Bool
  messageKeyTaken : PrincipalId → MessageKey → Bool

/-! ## Queries -/

namespace WorkFile

variable (f : WorkFile)

def boundary? (id : BoundaryId) : Option Boundary := f.boundaries.find? fun b => b.id = id

def turn? (id : TurnId) : Option ReasonerTurn := f.turns.find? fun t => t.id = id

def attempt? (number : ℕ) : Option Attempt := f.attempts.find? fun a => a.number = number

def goal? (version : ℕ) : Option GoalRevision := f.goals.find? fun g => g.version = version

def disposition? (id : BoundaryId) : Option BoundaryDisposition :=
  f.dispositions.find? fun d => d.boundaryId = id

/-- `_latest_attempt_tx`. -/
def latestAttempt? : Option Attempt := f.attempts.head?

/-- The Boundary was disposed. -/
def Disposed (id : BoundaryId) : Prop := ∃ d ∈ f.dispositions, d.boundaryId = id

/-- The Boundary was superseded. -/
def Superseded (id : BoundaryId) : Prop := ∃ s ∈ f.supersessions, s.boundaryId = id

/-- The decision on the Boundary was consumed. -/
def Continued (id : BoundaryId) : Prop := ∃ c ∈ f.continuations, c.boundaryId = id

/-- **The Boundary is open**: neither disposed nor superseded. -/
def Open (id : BoundaryId) : Prop := ¬ f.Disposed id ∧ ¬ f.Superseded id

instance (id : BoundaryId) : Decidable (f.Disposed id) :=
  inferInstanceAs (Decidable (∃ d ∈ f.dispositions, d.boundaryId = id))

instance (id : BoundaryId) : Decidable (f.Superseded id) :=
  inferInstanceAs (Decidable (∃ s ∈ f.supersessions, s.boundaryId = id))

instance (id : BoundaryId) : Decidable (f.Continued id) :=
  inferInstanceAs (Decidable (∃ c ∈ f.continuations, c.boundaryId = id))

instance (id : BoundaryId) : Decidable (f.Open id) :=
  inferInstanceAs (Decidable (¬ f.Disposed id ∧ ¬ f.Superseded id))

/-- The open Boundaries. -/
def openBoundaries : List Boundary := f.boundaries.filter fun b => f.Open b.id

/-- The Attempt is the latest of the file. -/
def Latest (a : Attempt) : Prop := ∀ later ∈ f.attempts, later.number ≤ a.number

instance (a : Attempt) : Decidable (f.Latest a) :=
  inferInstanceAs (Decidable (∀ later ∈ f.attempts, later.number ≤ a.number))

@[simp] theorem mem_openBoundaries {b : Boundary} :
    b ∈ f.openBoundaries ↔ b ∈ f.boundaries ∧ f.Open b.id := by
  simp [openBoundaries]

end WorkFile
