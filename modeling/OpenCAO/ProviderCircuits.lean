import OpenCAO.Models
import OpenCAO.Rows
import OpenCAO.TransitionSystem

/-!
# The circuits of the providers

Workers of one adapter and model share the rate limit of their provider. When a
managed Claude Worker is limited, the Boundary that reports its recovery is
recorded, and with it the *circuit* of the provider scope is opened: as long as it
is open, no assignment of the scope is dispatched, except one, the *probe*, whose
instruction the CAO gave after the limit and in answer to it. Dispatching the
probe half-opens the circuit. A report of the probe closes it; a probe that was
not handed off is released, and the circuit is open again; and where the outcome
of the hand-off is not known, it is blocked.

Five functions write the circuits. None trusts its caller: each reads its
authority from the tables again, by joins over the specs of the Workers, their
attachments, Attempts and Boundaries, and over the events, whose sequence is the
only clock that counts here. The joins are the queries of the source, row by row.
Of the takeover of a closed conversation, the conditions on credentials, tickets,
deliveries and effects, on the number of the events of the close and on its stored
receipt are left to the environment: they read what nothing else reads here.

The digest of a scope is what it is taken of.
-/

namespace Provider

/-! ## Rows -/

abbrev SpecId := ℕ
abbrev EnrollmentId := ℕ
abbrev AttemptId := ℕ
abbrev BoundaryId := ℕ

/-- The adapters of managed Workers. -/
inductive Adapter where
  | codexAppServer | claude
  deriving DecidableEq, Repr

/-- The states of a spec. -/
inductive SpecState where
  | enabled | stopped | revoked
  deriving DecidableEq, Repr

/-- The states of an enrollment. -/
inductive EnrollmentState where
  | awaitingHandshake | ready | stale | revoked | failed
  deriving DecidableEq, Repr

/-- `_managed_provider_scope_digest`. -/
structure Scope where
  adapter : Adapter
  model : String
  deriving DecidableEq, Repr

/-- **A row of `managed_worker_specs`.** -/
structure Spec where
  id : SpecId
  attachmentId : AttachmentId
  attachmentGeneration : ℕ
  principalId : PrincipalId
  runtimeSessionId : RuntimeId
  enrollmentId : EnrollmentId
  adapter : Adapter
  workspaceRef : String
  providerScopeDigest : Scope
  catalogTargetId : String
  state : SpecState
  deriving DecidableEq, Repr

/-- A row of `managed_worker_thread_epochs`, with the spec of its thread. -/
structure ThreadEpoch where
  runtimeSessionId : RuntimeId
  managedSpecId : SpecId
  deriving DecidableEq, Repr

/-- A row of `runtime_sessions`. -/
structure Runtime where
  id : RuntimeId
  principalId : PrincipalId
  state : RuntimeState
  deriving DecidableEq, Repr

/-- A row of `worker_enrollments`. -/
structure Enrollment where
  id : EnrollmentId
  principalId : PrincipalId
  runtimeSessionId : RuntimeId
  state : EnrollmentState
  deriving DecidableEq, Repr

/-- A row of `cao_session_attachments`. -/
structure Attachment where
  id : AttachmentId
  principalId : PrincipalId
  projectScopeDigest : String
  state : AttachmentState
  generation : ℕ
  leaseExpiresAt : Instant
  deriving DecidableEq, Repr

/-- A row of `attempts`. -/
structure Attempt where
  id : AttemptId
  workItemId : WorkId
  workerId : PrincipalId
  runtimeSessionId : Option RuntimeId
  deriving DecidableEq, Repr

/-- A row of `work_items`, with the generation of the attachment that sealed its
goal. -/
structure Work where
  id : WorkId
  state : WorkState
  supervisorId : PrincipalId
  supervisorAttachmentId : Option AttachmentId
  assignedWorkerId : PrincipalId
  goalAttachmentGeneration : Option ℕ
  deriving DecidableEq, Repr

/-- A row of `principals`. -/
structure Principal where
  id : PrincipalId
  role : PrincipalRole
  deriving DecidableEq, Repr

/-- A row of `messages`; it is an assignment, or of another kind. -/
structure Message where
  id : MessageId
  assignment : Bool
  senderId : PrincipalId
  workItemId : Option WorkId
  attemptId : Option AttemptId
  deriving DecidableEq, Repr

/-- A row of `message_deliveries`. -/
structure Delivery where
  messageId : MessageId
  recipientId : PrincipalId
  runtimeSessionId : Option RuntimeId
  generation : ℕ
  state : DeliveryState
  ownerToken : String
  deriving DecidableEq, Repr

/-- A row of `boundaries`, with what its metadata says of a recovery. -/
structure Boundary where
  id : BoundaryId
  workItemId : WorkId
  attemptId : AttemptId
  sourcePrincipalId : PrincipalId
  kind : BoundaryKind
  runtimeState : RuntimeState
  generation : ℕ
  runtimeRecovery : Bool
  reason : String
  deriving DecidableEq, Repr

/-- The reason of a rate limit. -/
def rateLimited : String := "runtime_provider_rate_limited"

/-- The Boundary reports the recovery of a Worker that its provider limited. -/
def Boundary.Limited (b : Boundary) : Prop :=
  b.kind = .failure ∧ b.runtimeRecovery = true ∧ b.reason = rateLimited

instance (b : Boundary) : Decidable b.Limited := by
  unfold Boundary.Limited
  infer_instance

/-- The type of an event, with the fields of its data that are read. -/
inductive EventData where
  | boundaryRecorded (boundaryId : BoundaryId) (kind : BoundaryKind) (runtimeState : RuntimeState)
      (generation : ℕ)
  | workAssigned (attemptId : AttemptId) (workerId : PrincipalId)
      (providerSourceBoundaryId : Option BoundaryId)
  | goalReplaced (attemptId : AttemptId) (providerSourceBoundaryId : Option BoundaryId)
  | attemptCreated (workItemId : WorkId) (providerSourceBoundaryId : Option BoundaryId)
  | boundaryDisposed (boundaryId : BoundaryId) (kind reasonCode : String)
      (attachmentId : Option AttachmentId) (attachmentGeneration : Option ℕ)
  | workCanceled (reason closeRequestDigest : String) (closedGeneration : Option ℕ)
  | managedWorkerStopped (reasonCode closeRequestDigest : String) (closedGeneration : Option ℕ)
  | conversationClosed (closedGeneration : ℕ)
  | rateLimitOpened (cooldownUntil : Instant)
  | rateLimitProbeReserved
  | rateLimitClosedOnProgress
  | other
  deriving DecidableEq, Repr

/-- **A row of `events`.** The type says what kind of aggregate it is about. -/
structure Event where
  sequence : ℕ
  aggregateId : ℕ
  actorId : Option PrincipalId
  causationId : Option MessageId
  data : EventData
  deriving DecidableEq, Repr

/-- The states of a circuit. -/
inductive CircuitState where
  | open_ | halfOpen | blocked | closed
  deriving DecidableEq, Repr

/-- What is known of the outcome of the probe. -/
inductive ProbeOutcome where
  | none | active | unknown
  deriving DecidableEq, Repr

/-- **A row of `provider_runtime_circuits`**, but for its key. -/
structure Circuit where
  state : CircuitState
  cooldownUntil : Instant
  sourceRuntimeSessionId : Option RuntimeId
  sourceBoundaryId : Option BoundaryId
  sourceWorkItemId : Option WorkId
  sourceBoundarySequence : ℕ
  probeRuntimeSessionId : Option RuntimeId
  probeAttemptId : Option AttemptId
  probeMessageId : Option MessageId
  probeInstructionSequence : ℕ
  probeOutcomeState : ProbeOutcome
  openedAt : Instant
  updatedAt : Instant
  deriving DecidableEq, Repr

/-- **The tables that the functions read**, the circuits apart. -/
structure Tables where
  specs : List Spec
  epochs : List ThreadEpoch
  runtimes : List Runtime
  enrollments : List Enrollment
  attachments : List Attachment
  principals : List Principal
  works : List Work
  attempts : List Attempt
  messages : List Message
  deliveries : List Delivery
  boundaries : List Boundary
  events : List Event
  deriving DecidableEq, Repr

/-- **The store**: a circuit for each scope at most, `scope_digest` being its key. -/
structure Store where
  tables : Tables
  circuits : Scope → Option Circuit

/-- What a function reads beside the store. -/
structure Env where
  now : Instant
  /-- `provider_rate_limit_cooldown_seconds`. -/
  cooldownSeconds : ℕ
  /-- `max(1.0, dispatcher_recovery_scan_seconds)`. -/
  scanSeconds : ℕ
  /-- What else the takeover of the closed source asks for. -/
  closedCleanly : Spec → Attachment → Event → Bool

namespace Tables

variable (t : Tables)

/-- The sequence of the next event. -/
def nextSequence : ℕ := (t.events.map Event.sequence).foldr max 0 + 1

/-- `_event`. -/
def addEvent (aggregateId : ℕ) (actorId : Option PrincipalId) (causationId : Option MessageId)
    (data : EventData) : Tables :=
  { t with events := ⟨t.nextSequence, aggregateId, actorId, causationId, data⟩ :: t.events }

/-- The number of events that meet a condition. -/
def countEvents (p : Event → Prop) [DecidablePred p] : ℕ := t.events.countP fun e => decide (p e)

/-- The spec that is bound to a runtime. -/
def spec? (runtimeId : RuntimeId) : Option Spec :=
  t.specs.find? fun spec => decide (spec.runtimeSessionId = runtimeId)

end Tables

/-! ## The queries -/

/-- The event records the Boundary, in the fields that are compared. -/
def Event.Records (e : Event) (b : Boundary) : Prop :=
  e.aggregateId = b.workItemId ∧
    e.data = .boundaryRecorded b.id b.kind b.runtimeState b.generation

instance (e : Event) (b : Boundary) : Decidable (e.Records b) := by
  unfold Event.Records
  infer_instance

/-- The Boundary that the event records. -/
def Event.boundaryId? (e : Event) : Option BoundaryId :=
  match e.data with
  | .boundaryRecorded id _ _ _ => some id
  | _ => none

/-- The event is `boundary.recorded` for the identifier. -/
def Event.RecordsId (e : Event) (workItemId : WorkId) (boundaryId : BoundaryId) : Prop :=
  e.aggregateId = workItemId ∧ e.boundaryId? = some boundaryId

instance (e : Event) (workItemId : WorkId) (boundaryId : BoundaryId) :
    Decidable (e.RecordsId workItemId boundaryId) := by
  unfold Event.RecordsId
  infer_instance

/-- The event is the instruction that an Attempt was made by. -/
def Event.Instructs (e : Event) (attempt : Attempt) : Prop :=
  match e.data with
  | .workAssigned attemptId workerId _ =>
    e.aggregateId = attempt.workItemId ∧ attemptId = attempt.id ∧ workerId = attempt.workerId
  | .goalReplaced attemptId _ => e.aggregateId = attempt.workItemId ∧ attemptId = attempt.id
  | .attemptCreated workItemId _ => e.aggregateId = attempt.id ∧ workItemId = attempt.workItemId
  | _ => False

instance (e : Event) (attempt : Attempt) : Decidable (e.Instructs attempt) := by
  unfold Event.Instructs
  cases e.data <;> infer_instance

/-- The event is an instruction for the Attempt that answers the Boundary. -/
def Event.Answers (e : Event) (attempt : Attempt) (boundaryId : BoundaryId) : Prop :=
  match e.data with
  | .workAssigned _ _ source => e.aggregateId = attempt.workItemId ∧ source = some boundaryId
  | .goalReplaced _ source => e.aggregateId = attempt.workItemId ∧ source = some boundaryId
  | .attemptCreated _ source => e.aggregateId = attempt.id ∧ source = some boundaryId
  | _ => False

instance (e : Event) (attempt : Attempt) (boundaryId : BoundaryId) :
    Decidable (e.Answers attempt boundaryId) := by
  unfold Event.Answers
  cases e.data <;> infer_instance

/-- The Worker of the spec ran on the runtime, now or in an earlier epoch. -/
def Tables.RanOn (t : Tables) (spec : Spec) (runtimeId : Option RuntimeId) : Prop :=
  some spec.runtimeSessionId = runtimeId ∨
    ∃ epoch ∈ t.epochs, some epoch.runtimeSessionId = runtimeId ∧ epoch.managedSpecId = spec.id

instance (t : Tables) (spec : Spec) (runtimeId : Option RuntimeId) :
    Decidable (t.RanOn spec runtimeId) := by
  unfold Tables.RanOn
  infer_instance

/-- What the query of the candidate reads of the source of a circuit. -/
structure SourceRow where
  spec : Spec
  attachment : Attachment
  boundary : Boundary
  deriving DecidableEq, Repr

/-- **The source of a circuit**: the limited Worker, its Attempt with its
instruction, and the Boundary with its one event. -/
def sourceRows (t : Tables) (c : Circuit) : List SourceRow :=
  Rows.join t.specs (fun spec => t.RanOn spec c.sourceRuntimeSessionId ∧ spec.catalogTargetId ≠ "")
    fun spec =>
  Rows.join t.attachments (fun a => a.id = spec.attachmentId) fun attachment =>
  Rows.join t.attempts (fun a => a.runtimeSessionId = c.sourceRuntimeSessionId ∧
      a.runtimeSessionId ≠ none ∧ spec.principalId = a.workerId) fun attempt =>
  Rows.join t.boundaries (fun b => some b.id = c.sourceBoundaryId ∧
      some b.workItemId = c.sourceWorkItemId ∧ b.attemptId = attempt.id ∧
      b.sourcePrincipalId = attempt.workerId ∧ b.Limited) fun boundary =>
  Rows.join t.works (fun w => w.id = boundary.workItemId ∧
      w.supervisorAttachmentId = some attachment.id ∧ attempt.workItemId = w.id) fun work =>
  Rows.join t.messages (fun m => m.assignment = true ∧ m.attemptId = some attempt.id ∧
      m.workItemId = some work.id ∧ m.senderId = work.supervisorId) fun message =>
  Rows.join t.deliveries (fun d => d.messageId = message.id ∧ d.recipientId = attempt.workerId ∧
      d.runtimeSessionId = attempt.runtimeSessionId) fun _ =>
  Rows.join t.events (fun e => e.actorId = some work.supervisorId ∧
      e.causationId = some message.id ∧ e.Instructs attempt ∧
      t.countEvents (fun e' => e'.actorId = some work.supervisorId ∧
        e'.causationId = some message.id ∧ e'.Instructs attempt) = 1) fun _ =>
  Rows.join t.events (fun e => e.actorId = some attempt.workerId ∧ e.Records boundary ∧
      e.sequence = c.sourceBoundarySequence ∧
      t.countEvents (fun e' => e'.actorId = some attempt.workerId ∧ e'.Records boundary ∧
        e'.sequence = e.sequence) = 1) fun _ =>
  [⟨spec, attachment, boundary⟩]

/-- What the query of the candidate answers. -/
structure Candidate where
  workItemId : WorkId
  instructionSequence : ℕ
  deriving DecidableEq, Repr

/-- **The query of `_provider_probe_candidate_tx`**: an assignment that the CAO gave
after the floor in answer to the Boundary, of a Worker that can run it. -/
def candidateRows (env : Env) (t : Tables) (scope : Scope) (c : Circuit) (runtimeId : RuntimeId)
    (messageId : MessageId) (attemptId : Option AttemptId) (floor : ℕ) : List Candidate :=
  Rows.join t.attempts (fun a => some a.id = attemptId ∧ a.runtimeSessionId = some runtimeId)
    fun attempt =>
  Rows.join t.messages (fun m => m.id = messageId ∧ m.attemptId = some attempt.id ∧
      m.workItemId = some attempt.workItemId ∧ m.assignment = true) fun message =>
  Rows.join t.works (fun w => w.id = attempt.workItemId ∧ w.assignedWorkerId = attempt.workerId ∧
      message.senderId = w.supervisorId) fun work =>
  Rows.join t.principals (fun p => p.id = work.supervisorId ∧ p.role = .cao) fun _ =>
  Rows.join t.specs (fun s => some s.runtimeSessionId = attempt.runtimeSessionId ∧
      s.principalId = attempt.workerId ∧ s.state = .enabled ∧ s.adapter = .claude ∧
      s.providerScopeDigest = scope) fun spec =>
  Rows.join t.runtimes (fun r => r.id = spec.runtimeSessionId ∧ r.principalId = spec.principalId)
    fun runtime =>
  Rows.join t.enrollments (fun e => e.id = spec.enrollmentId ∧ e.runtimeSessionId = runtime.id ∧
      e.principalId = runtime.principalId ∧ (e.state = .awaitingHandshake ∨ e.state = .ready))
    fun _ =>
  Rows.join t.attachments (fun a => a.id = spec.attachmentId ∧ a.principalId = work.supervisorId)
    fun attachment =>
  Rows.join t.attachments (fun a => some a.id = work.supervisorAttachmentId ∧
      a.principalId = work.supervisorId ∧ a.projectScopeDigest = attachment.projectScopeDigest ∧
      a.state = .active ∧ env.now < a.leaseExpiresAt) fun _ =>
  Rows.join (sourceRows t c) (fun s =>
      attachment.projectScopeDigest = s.attachment.projectScopeDigest ∧
      spec.catalogTargetId = s.spec.catalogTargetId ∧ spec.workspaceRef = s.spec.workspaceRef ∧
      s.spec.providerScopeDigest = spec.providerScopeDigest) fun source =>
  Rows.join t.events (fun e => e.causationId = some message.id ∧
      e.actorId = some work.supervisorId ∧ floor < e.sequence ∧
      e.Answers attempt source.boundary.id ∧
      t.countEvents (fun e' => e'.causationId = some message.id ∧
        e'.actorId = some work.supervisorId ∧ floor < e'.sequence ∧
        e'.Answers attempt source.boundary.id) = 1) fun instruction =>
  [⟨work.id, instruction.sequence⟩]

/-- **The query of `_provider_closed_source_takeover_sequence_tx`**, without a target, a
workspace and a Work asked for: the conversation of the source was closed after
the Boundary, and its Work and its Worker with it. -/
def takeoverRows (env : Env) (t : Tables) (scope : Scope) (c : Circuit)
    (candidateAttachmentId : AttachmentId) : List (Spec × Attachment × Event) :=
  Rows.join t.specs (fun s => some s.runtimeSessionId = c.sourceRuntimeSessionId ∧
      s.state = .stopped ∧ s.providerScopeDigest = scope ∧ s.catalogTargetId ≠ "" ∧
      c.state = .open_) fun spec =>
  Rows.join t.attachments (fun a => a.id = spec.attachmentId) fun attachment =>
  Rows.join t.runtimes (fun r => r.id = spec.runtimeSessionId ∧ r.principalId = spec.principalId ∧
      r.state = .stopped) fun _ =>
  Rows.join t.attempts (fun a => a.runtimeSessionId = some spec.runtimeSessionId ∧
      spec.principalId = a.workerId) fun attempt =>
  Rows.join t.boundaries (fun b => some b.id = c.sourceBoundaryId ∧
      some b.workItemId = c.sourceWorkItemId ∧ b.attemptId = attempt.id ∧
      b.sourcePrincipalId = attempt.workerId ∧ b.Limited) fun boundary =>
  Rows.join t.works (fun w => w.id = boundary.workItemId ∧
      w.supervisorAttachmentId = some attachment.id ∧ w.supervisorId = attachment.principalId ∧
      w.state = .canceled ∧ w.goalAttachmentGeneration = some spec.attachmentGeneration) fun work =>
  Rows.join t.events (fun e => e.sequence = c.sourceBoundarySequence ∧
      e.actorId = some attempt.workerId ∧ e.Records boundary) fun recorded =>
  Rows.join t.events (fun e => e.aggregateId = work.id ∧ e.actorId = some work.supervisorId ∧
      recorded.sequence < e.sequence) fun disposed =>
  Rows.join t.events (fun e => e.aggregateId = work.id ∧ e.actorId = some work.supervisorId ∧
      disposed.sequence < e.sequence) fun canceled =>
  Rows.join t.events (fun e => e.aggregateId = attachment.id ∧
      e.actorId = some work.supervisorId ∧ canceled.sequence < e.sequence) fun closed =>
  Rows.join t.attachments (fun a => a.id = candidateAttachmentId ∧
      a.principalId = attachment.principalId ∧
      a.projectScopeDigest = attachment.projectScopeDigest ∧ a.state = .active ∧
      env.now < a.leaseExpiresAt) fun candidate =>
  match disposed.data, canceled.data, closed.data with
  | .boundaryDisposed boundaryId kind reasonCode attachmentId attachmentGeneration,
    .workCanceled reason closeRequestDigest canceledGeneration,
    .conversationClosed closedGeneration =>
    if boundaryId = boundary.id ∧ kind = "cancel" ∧ reasonCode = "cao_conversation_closed" ∧
        attachmentId = some attachment.id ∧ attachmentGeneration = some closedGeneration ∧
        reason = "cao_conversation_closed" ∧ canceledGeneration = some closedGeneration ∧
        spec.attachmentGeneration ≤ closedGeneration ∧
        (candidate.id ≠ attachment.id ∧ attachment.state = .revoked ∧
            attachment.generation = closedGeneration ∨
          candidate.id = attachment.id ∧ attachment.state = .active ∧
            attachment.generation = closedGeneration + 1) ∧
        t.countEvents (fun e => e.aggregateId = spec.id ∧ e.actorId = some work.supervisorId ∧
          canceled.sequence < e.sequence ∧ e.sequence < closed.sequence ∧
          e.data = .managedWorkerStopped "cao_conversation_closed" closeRequestDigest
            (some closedGeneration)) = 1 ∧
        env.closedCleanly spec attachment closed = true
    then [(spec, attachment, closed)] else []
  | _, _, _ => []

/-- `_provider_closed_source_takeover_sequence_tx`. -/
def takeoverSequence (env : Env) (t : Tables) (scope : Scope) (c : Circuit)
    (candidateAttachmentId : AttachmentId) : Option ℕ :=
  match takeoverRows env t scope c candidateAttachmentId with
  | [(_, _, closed)] => if 0 < closed.sequence then some closed.sequence else none
  | _ => none

/-- The attachments of the probe and of the source, each with its generation. -/
def attachmentPair (t : Tables) (scope : Scope) (c : Circuit) (runtimeId : RuntimeId) :
    Option ((AttachmentId × ℕ) × AttachmentId × ℕ) :=
  (Rows.join t.specs (fun s => s.runtimeSessionId = runtimeId ∧ s.providerScopeDigest = scope)
    fun probe =>
  Rows.join t.attachments (fun a => a.id = probe.attachmentId) fun probeAttachment =>
  Rows.join t.specs (fun s => t.RanOn s c.sourceRuntimeSessionId) fun source =>
  Rows.join t.attachments (fun a => a.id = source.attachmentId) fun sourceAttachment =>
  [((probeAttachment.id, probe.attachmentGeneration),
    (sourceAttachment.id, source.attachmentGeneration))]).head?

/-- The instruction has to be newer than this: the Boundary, or the close of the
conversation that a takeover follows. -/
def instructionFloor (env : Env) (t : Tables) (scope : Scope) (c : Circuit)
    (runtimeId : RuntimeId) : Option ℕ :=
  match attachmentPair t scope c runtimeId with
  | none => none
  | some (probe, source) =>
    if probe = source then some c.sourceBoundarySequence
    else takeoverSequence env t scope c probe.1

/-- **`_provider_probe_candidate_tx`.** -/
def probeCandidate (env : Env) (t : Tables) (scope : Scope) (c : Circuit) (runtimeId : RuntimeId)
    (messageId : MessageId) (attemptId : Option AttemptId) : Option Candidate :=
  match instructionFloor env t scope c runtimeId with
  | none => none
  | some floor =>
    match candidateRows env t scope c runtimeId messageId attemptId floor with
    | [candidate] => some candidate
    | _ => none

/-- The last query of `_valid_provider_probe_tx`: the probe is running. -/
def probeRunning (t : Tables) (scope : Scope) (runtimeId : RuntimeId) (messageId : MessageId)
    (attemptId : Option AttemptId) : Bool :=
  !(Rows.join t.specs (fun s => s.runtimeSessionId = runtimeId ∧ s.state = .enabled ∧
      s.adapter = .claude ∧ s.providerScopeDigest = scope) fun spec =>
  Rows.join t.runtimes (fun r => r.id = spec.runtimeSessionId ∧ spec.principalId = r.principalId ∧
      r.state = .busy) fun runtime =>
  Rows.join t.enrollments (fun e => e.runtimeSessionId = runtime.id ∧
      e.principalId = runtime.principalId ∧ (e.state = .awaitingHandshake ∨ e.state = .ready))
    fun _ =>
  Rows.join t.attempts (fun a => some a.id = attemptId ∧ a.runtimeSessionId = some runtime.id ∧
      a.workerId = runtime.principalId) fun attempt =>
  Rows.join t.messages (fun m => m.id = messageId ∧ m.assignment = true ∧
      m.attemptId = some attempt.id ∧ m.workItemId = some attempt.workItemId) fun message =>
  Rows.join t.deliveries (fun d => d.messageId = message.id ∧ d.recipientId = runtime.principalId ∧
      d.runtimeSessionId = some runtime.id ∧ (d.state = .dispatched ∨ d.state = .acknowledged))
    fun _ => [()]).isEmpty

/-- What has to be there of a probe whose outcome is marked as unknown: the
assignment was handed to the runtime. -/
def probeHandedOff (t : Tables) (scope : Scope) (c : Circuit) : Bool :=
  !(Rows.join t.specs (fun s => some s.runtimeSessionId = c.probeRuntimeSessionId ∧
      s.adapter = .claude ∧ s.providerScopeDigest = scope) fun spec =>
  Rows.join t.runtimes (fun r => r.id = spec.runtimeSessionId ∧ r.principalId = spec.principalId)
    fun runtime =>
  Rows.join t.attempts (fun a => some a.id = c.probeAttemptId ∧
      a.runtimeSessionId = some runtime.id ∧ a.workerId = runtime.principalId) fun attempt =>
  Rows.join t.messages (fun m => some m.id = c.probeMessageId ∧ m.assignment = true ∧
      m.attemptId = some attempt.id ∧ m.workItemId = some attempt.workItemId) fun message =>
  Rows.join t.deliveries (fun d => d.messageId = message.id ∧ d.recipientId = runtime.principalId ∧
      d.runtimeSessionId = some runtime.id ∧
      (d.state = .dispatched ∨ d.state = .delivered ∨ d.state = .acknowledged))
    fun _ => [()]).isEmpty

/-- What the query of a rate limit reads. -/
structure LimitRow where
  adapter : Adapter
  scope : Scope
  boundaryId : BoundaryId
  workItemId : WorkId
  boundarySequence : ℕ
  deriving DecidableEq, Repr

/-- **The query of `_record_provider_rate_limit_tx`.** -/
def limitRows (t : Tables) (runtimeId : RuntimeId) (boundaryId : BoundaryId)
    (workItemId : WorkId) : List LimitRow :=
  Rows.join t.specs (fun s => s.runtimeSessionId = runtimeId ∧ s.catalogTargetId ≠ "") fun spec =>
  Rows.join t.attempts (fun a => a.runtimeSessionId = some spec.runtimeSessionId ∧
      a.workerId = spec.principalId ∧ a.workItemId = workItemId) fun attempt =>
  Rows.join t.boundaries (fun b => b.id = boundaryId ∧ b.attemptId = attempt.id ∧
      b.workItemId = attempt.workItemId ∧ b.sourcePrincipalId = attempt.workerId ∧ b.Limited)
    fun boundary =>
  Rows.join t.works (fun w => w.id = attempt.workItemId ∧ w.assignedWorkerId = attempt.workerId)
    fun work =>
  Rows.join t.attachments (fun a => a.id = spec.attachmentId) fun attachment =>
  Rows.join t.attachments (fun a => some a.id = work.supervisorAttachmentId ∧
      a.principalId = attachment.principalId ∧
      a.projectScopeDigest = attachment.projectScopeDigest ∧ a.principalId = work.supervisorId)
    fun _ =>
  Rows.join t.events (fun e => e.RecordsId boundary.workItemId boundary.id ∧
      t.countEvents (fun e' => e'.RecordsId boundary.workItemId boundary.id) = 1) fun event =>
  [⟨spec.adapter, spec.providerScopeDigest, boundary.id, attempt.workItemId, event.sequence⟩]

/-! ## What is written -/

/-- The circuit, half open for its probe. -/
def Circuit.reserve (now : Instant) (runtimeId : RuntimeId) (messageId : MessageId)
    (attemptId : Option AttemptId) (instructionSequence : ℕ) (c : Circuit) : Circuit :=
  { c with
    state := .halfOpen
    probeRuntimeSessionId := some runtimeId
    probeAttemptId := attemptId
    probeMessageId := some messageId
    probeInstructionSequence := instructionSequence
    probeOutcomeState := .active
    updatedAt := now }

/-- The circuit, open again. -/
def Circuit.release (now : Instant) (c : Circuit) : Circuit :=
  { c with
    state := .open_
    probeRuntimeSessionId := none
    probeAttemptId := none
    probeMessageId := none
    probeInstructionSequence := 0
    probeOutcomeState := .none
    updatedAt := now }

/-- The circuit, blocked: the outcome of its probe is not known. -/
def Circuit.block (now : Instant) (c : Circuit) : Circuit :=
  { c with state := .blocked, probeOutcomeState := .unknown, updatedAt := now }

/-- The circuit, closed. The columns that name the probe stay. -/
def Circuit.close (now : Instant) (c : Circuit) : Circuit :=
  { c with
    state := .closed
    probeInstructionSequence := 0
    probeOutcomeState := .none
    updatedAt := now }

/-- The circuit that a rate limit opens. -/
def Circuit.opened (env : Env) (runtimeId : RuntimeId) (row : LimitRow) : Circuit where
  state := .open_
  cooldownUntil := env.now + env.cooldownSeconds
  sourceRuntimeSessionId := some runtimeId
  sourceBoundaryId := some row.boundaryId
  sourceWorkItemId := some row.workItemId
  sourceBoundarySequence := row.boundarySequence
  probeRuntimeSessionId := none
  probeAttemptId := none
  probeMessageId := none
  probeInstructionSequence := 0
  probeOutcomeState := .none
  openedAt := env.now
  updatedAt := env.now

/-- The circuit is of the limit already, or of a later one. -/
def Circuit.Covers (c : Circuit) (row : LimitRow) : Prop :=
  c.sourceBoundaryId = some row.boundaryId ∨ row.boundarySequence ≤ c.sourceBoundarySequence

instance (c : Circuit) (row : LimitRow) : Decidable (c.Covers row) := by
  unfold Circuit.Covers
  infer_instance

/-! ## The functions -/

namespace Store

variable (env : Env) (s : Store)

/-- A circuit is written. -/
def setCircuit (scope : Scope) (c : Circuit) : Store :=
  { s with circuits := Function.update s.circuits scope (some c) }

/-- `_valid_provider_probe_tx`. -/
def validProbe (scope : Scope) (c : Circuit) (runtimeId : RuntimeId) (messageId : MessageId)
    (attemptId : Option AttemptId) : Bool :=
  if c.state ≠ .halfOpen ∨ c.probeOutcomeState ≠ .active ∨
      c.probeRuntimeSessionId ≠ some runtimeId ∨ c.probeAttemptId ≠ attemptId ∨
      c.probeMessageId ≠ some messageId ∨ c.sourceBoundarySequence = 0 ∨
      c.probeInstructionSequence ≤ c.sourceBoundarySequence then false
  else
    match probeCandidate env s.tables scope c runtimeId messageId attemptId with
    | none => false
    | some candidate =>
      decide (candidate.instructionSequence = c.probeInstructionSequence) &&
        probeRunning s.tables scope runtimeId messageId attemptId

/-- What a claim answers: the dispatch is allowed, or it is put off. -/
inductive Decision where
  | allowed
  | deferred (until_ : Instant)
  deriving DecidableEq, Repr

/-- Put off for the cooldown, or until the next scan. -/
def defer (c : Circuit) : Decision := .deferred (max c.cooldownUntil (env.now + env.scanSeconds))

/-- **`_claim_provider_runtime_probe_tx`.** -/
def claim (runtimeId : RuntimeId) (messageId : MessageId) (attemptId : Option AttemptId) :
    Decision × Store :=
  match s.tables.spec? runtimeId with
  | none => (.allowed, s)
  | some spec =>
    if spec.adapter ≠ .claude then (.allowed, s)
    else
      match s.circuits spec.providerScopeDigest with
      | none => (.allowed, s)
      | some c =>
        if c.state = .closed then (.allowed, s)
        else if spec.state ≠ .enabled then (defer env c, s)
        else if c.state = .halfOpen then
          if s.validProbe env spec.providerScopeDigest c runtimeId messageId attemptId = true then
            (.allowed, s)
          else (defer env c, s)
        else if c.probeOutcomeState ≠ .none then (defer env c, s)
        else
          match probeCandidate env s.tables spec.providerScopeDigest c runtimeId messageId
              attemptId with
          | none => (defer env c, s)
          | some candidate =>
            -- the row is the one that was read, so the update finds it open
            if c.state = .open_ then
              (.allowed,
                { s.setCircuit spec.providerScopeDigest (c.reserve env.now runtimeId messageId
                    attemptId candidate.instructionSequence) with
                  tables := s.tables.addEvent runtimeId none none .rateLimitProbeReserved })
            else (defer env c, s)

/-- **`_release_provider_runtime_probe_tx`.** -/
def release (runtimeId : RuntimeId) (messageId : MessageId) (attemptId : Option AttemptId) : Store :=
  match s.tables.spec? runtimeId with
  | none => s
  | some spec =>
    if spec.adapter ≠ .claude then s
    else
      match s.circuits spec.providerScopeDigest with
      | none => s
      | some c =>
        if (c.state = .halfOpen ∨ c.state = .blocked) ∧ c.probeRuntimeSessionId = some runtimeId ∧
            attemptId ≠ none ∧ c.probeAttemptId = attemptId ∧ c.probeMessageId = some messageId then
          s.setCircuit spec.providerScopeDigest (c.release env.now)
        else s

/-- **`_mark_provider_runtime_probe_unknown_tx`.** The update looks at every
circuit. -/
def markUnknown (runtimeId : RuntimeId) : Store :=
  { s with
    circuits := fun scope => (s.circuits scope).map fun c =>
      if c.state = .halfOpen ∧ c.probeOutcomeState = .active ∧
          c.probeRuntimeSessionId = some runtimeId ∧ c.probeAttemptId ≠ none ∧
          c.probeMessageId ≠ none ∧ probeHandedOff s.tables scope c = true then
        c.block env.now
      else c }

/-- **`_close_provider_rate_limit_probe_tx`.** -/
def close (runtimeId : RuntimeId) (attemptId : AttemptId) (actorId : PrincipalId) : Store :=
  match s.tables.spec? runtimeId with
  | none => s
  | some spec =>
    if spec.adapter ≠ .claude then s
    else
      match s.circuits spec.providerScopeDigest with
      | none => s
      | some c =>
        if (c.state = .halfOpen ∨ c.state = .blocked) ∧ c.probeRuntimeSessionId = some runtimeId ∧
            c.probeAttemptId = some attemptId ∧
            ∃ m ∈ s.tables.messages, some m.id = c.probeMessageId ∧ m.assignment = true ∧
              m.attemptId = some attemptId then
          { s.setCircuit spec.providerScopeDigest (c.close env.now) with
            tables := s.tables.addEvent runtimeId (some actorId) none .rateLimitClosedOnProgress }
        else s

/-- **`_record_provider_rate_limit_tx`.** -/
def recordLimit (runtimeId : RuntimeId) (boundaryId : BoundaryId) (workItemId : WorkId) : Store :=
  match (limitRows s.tables runtimeId boundaryId workItemId).head? with
  | none => s
  | some row =>
    if row.adapter ≠ .claude then s
    else if (s.circuits row.scope).any (fun c => decide (c.Covers row)) = true then s
    else
      { s.setCircuit row.scope (.opened env runtimeId row) with
        tables := s.tables.addEvent runtimeId none none
          (.rateLimitOpened (env.now + env.cooldownSeconds)) }

end Store

/-! ## The transactions -/

/-- What the dispatch of a delivery to a managed Worker is about. -/
structure Dispatch where
  runtimeId : RuntimeId
  recipientId : PrincipalId
  messageId : MessageId
  attemptId : Option AttemptId
  generation : ℕ
  ownerToken : String
  /-- The launch is current: the runtime, the enrollment and the ticket are. -/
  launchIsCurrent : Bool
  deriving DecidableEq, Repr

/-- The delivery is the dispatcher's, and not handed off. -/
def Dispatch.leases (d : Dispatch) (row : Delivery) : Bool :=
  decide (row.messageId = d.messageId ∧ row.recipientId = d.recipientId ∧
    row.generation = d.generation ∧ row.state = .leased ∧ row.ownerToken = d.ownerToken)

/-- **The transaction that reserves a dispatch**, and whether it did. A probe that was
claimed for a delivery that is not reserved is released. -/
def Store.dispatch (env : Env) (s : Store) (d : Dispatch) : Bool × Store :=
  if d.launchIsCurrent = false then (false, s)
  else
    match s.claim env d.runtimeId d.messageId d.attemptId with
    | (.deferred _, s') => (false, s')
    | (.allowed, s') =>
      if Rows.rowcount d.leases s'.tables.deliveries = 1 then
        (true, { s' with
          tables := { s'.tables with
            deliveries := Rows.update d.leases (fun row => { row with state := .dispatched })
              s'.tables.deliveries } })
      else (false, s'.release env d.runtimeId d.messageId d.attemptId)

/-- **The recovery of a Worker that its provider limited**, as
`recover_terminal_worker_attempt` records it for one Attempt. -/
structure Recovery where
  runtimeId : RuntimeId
  attempt : Attempt
  boundaryId : BoundaryId
  runtimeState : RuntimeState
  generation : ℕ
  deriving DecidableEq, Repr

/-- The Boundary of a recovery. -/
def Recovery.boundary (r : Recovery) : Boundary where
  id := r.boundaryId
  workItemId := r.attempt.workItemId
  attemptId := r.attempt.id
  sourcePrincipalId := r.attempt.workerId
  kind := .failure
  runtimeState := r.runtimeState
  generation := r.generation
  runtimeRecovery := true
  reason := rateLimited

/-- The Boundary is recorded, with its event. -/
def Recovery.record (r : Recovery) (t : Tables) : Tables :=
  ({ t with boundaries := r.boundary :: t.boundaries } : Tables).addEvent r.attempt.workItemId
    (some r.attempt.workerId) none
    (.boundaryRecorded r.boundaryId .failure r.runtimeState r.generation)

/-- The identifier of the Boundary is new. -/
def Recovery.Fresh (r : Recovery) (t : Tables) : Prop :=
  (∀ b ∈ t.boundaries, b.id ≠ r.boundaryId) ∧ ∀ e ∈ t.events, e.boundaryId? ≠ some r.boundaryId

instance (r : Recovery) (t : Tables) : Decidable (r.Fresh t) := by
  unfold Recovery.Fresh
  infer_instance

/-- **The transaction that records a recovery and opens the circuit.** -/
def Store.recover (env : Env) (s : Store) (r : Recovery) : Store :=
  ({ s with tables := r.record s.tables } : Store).recordLimit env r.runtimeId r.boundaryId
    r.attempt.workItemId

/-- What the creation of a managed Worker chooses. -/
structure NewWorker where
  id : SpecId
  attachmentId : AttachmentId
  attachmentGeneration : ℕ
  principalId : PrincipalId
  runtimeSessionId : RuntimeId
  enrollmentId : EnrollmentId
  adapter : Adapter
  model : String
  workspaceRef : String
  deriving DecidableEq, Repr

/-- The spec that `_create_managed_worker_thread_tx` inserts. It has no catalog
target. -/
def NewWorker.spec (w : NewWorker) : Spec where
  id := w.id
  attachmentId := w.attachmentId
  attachmentGeneration := w.attachmentGeneration
  principalId := w.principalId
  runtimeSessionId := w.runtimeSessionId
  enrollmentId := w.enrollmentId
  adapter := w.adapter
  workspaceRef := w.workspaceRef
  providerScopeDigest := ⟨w.adapter, w.model⟩
  catalogTargetId := ""
  state := .enabled

/-- The columns of a spec that are unique. -/
def Spec.Clash (a b : Spec) : Prop :=
  a.principalId = b.principalId ∨ a.runtimeSessionId = b.runtimeSessionId

instance (a b : Spec) : Decidable (a.Clash b) := by
  unfold Spec.Clash
  infer_instance

/-- **The rows of a new Worker are inserted.** -/
def NewWorker.insert (w : NewWorker) (t : Tables) : Tables :=
  { t with
    specs := w.spec :: t.specs
    epochs := ⟨w.runtimeSessionId, w.id⟩ :: t.epochs
    runtimes := ⟨w.runtimeSessionId, w.principalId, .starting⟩ :: t.runtimes
    enrollments :=
      ⟨w.enrollmentId, w.principalId, w.runtimeSessionId, .awaitingHandshake⟩ :: t.enrollments
    principals := ⟨w.principalId, .worker⟩ :: t.principals }

/-! ## Runs -/

/-- The Worker of a spec, in the columns that stay. -/
def Spec.SameWorker (a b : Spec) : Prop :=
  b.id = a.id ∧ b.principalId = a.principalId ∧ b.adapter = a.adapter ∧
    b.providerScopeDigest = a.providerScopeDigest ∧ b.catalogTargetId = a.catalogTargetId

instance (a b : Spec) : Decidable (a.SameWorker b) := by
  unfold Spec.SameWorker
  infer_instance

/-- **What any other transaction may make of the tables**: events are added, and no
Worker comes into being. -/
structure Tables.Extends (t t' : Tables) : Prop where
  events : t.events <:+ t'.events
  specs : ∀ b ∈ t'.specs, ∃ a ∈ t.specs, a.SameWorker b
  unique : t'.specs.Pairwise fun a b => ¬ a.Clash b

instance (t t' : Tables) : Decidable (t.Extends t') :=
  decidable_of_iff (t.events <:+ t'.events ∧ (∀ b ∈ t'.specs, ∃ a ∈ t.specs, a.SameWorker b) ∧
      t'.specs.Pairwise fun a b => ¬ a.Clash b)
    ⟨fun ⟨h₁, h₂, h₃⟩ => ⟨h₁, h₂, h₃⟩, fun h => ⟨h.events, h.specs, h.unique⟩⟩

/-- **A rate limit that was recorded**: the scope of the limited Claude Worker, and
the sequence of the event of its Boundary. -/
structure Limit where
  scope : Scope
  sequence : ℕ
  deriving DecidableEq, Repr

/-- **The state of the system**: the store, and the limits that were recorded. -/
structure Breaker where
  store : Store
  limits : List Limit

namespace Breaker

/-- What happens next. -/
inductive Event where
  /-- A managed Worker is created. -/
  | create (w : NewWorker)
  /-- A rate limit is recovered: its Boundary is recorded. -/
  | recover (env : Env) (r : Recovery)
  /-- A recovery that was recorded before is recovered again. -/
  | recoverAgain (env : Env) (runtimeId : RuntimeId) (boundaryId : BoundaryId) (workItemId : WorkId)
  /-- A dispatch is reserved, or not. -/
  | dispatch (env : Env) (d : Dispatch)
  /-- A probe is released. -/
  | release (env : Env) (runtimeId : RuntimeId) (messageId : MessageId)
      (attemptId : Option AttemptId)
  /-- A probe is marked as unknown. -/
  | markUnknown (env : Env) (runtimeId : RuntimeId)
  /-- A report closes the circuit. -/
  | close (env : Env) (runtimeId : RuntimeId) (attemptId : AttemptId) (actorId : PrincipalId)
  /-- Any other transaction. -/
  | other (tables : Tables)

/-- The limit that a recovery records, if its Worker is a managed Claude Worker. -/
def limit? (t : Tables) (r : Recovery) : Option Limit :=
  (t.specs.find? fun spec =>
    decide (spec.principalId = r.attempt.workerId ∧ spec.adapter = .claude)).map fun spec =>
    ⟨spec.providerScopeDigest, t.nextSequence⟩

/-- **One step.** -/
def step (s : Breaker) : Event → Option Breaker
  | .create w =>
    if ∀ a ∈ s.store.tables.specs, ¬ w.spec.Clash a then
      some { s with store := { s.store with tables := w.insert s.store.tables } }
    else none
  | .recover env r =>
    if r.attempt ∈ s.store.tables.attempts ∧ r.attempt.runtimeSessionId = some r.runtimeId ∧
        r.Fresh s.store.tables then
      some { store := s.store.recover env r
             limits := (limit? s.store.tables r).toList ++ s.limits }
    else none
  | .recoverAgain env runtimeId boundaryId workItemId =>
    some { s with store := s.store.recordLimit env runtimeId boundaryId workItemId }
  | .dispatch env d => some { s with store := (s.store.dispatch env d).2 }
  | .release env runtimeId messageId attemptId =>
    some { s with store := s.store.release env runtimeId messageId attemptId }
  | .markUnknown env runtimeId => some { s with store := s.store.markUnknown env runtimeId }
  | .close env runtimeId attemptId actorId =>
    some { s with store := s.store.close env runtimeId attemptId actorId }
  | .other tables =>
    if s.store.tables.Extends tables then some { s with store := { s.store with tables := tables } }
    else none

/-- No circuit has been opened, and no limit recorded. -/
structure Initial (s : Breaker) : Prop where
  specs : s.store.tables.specs.Pairwise fun a b => ¬ a.Clash b
  circuits : ∀ scope, s.store.circuits scope = none
  limits : s.limits = []

end Breaker

end Provider
