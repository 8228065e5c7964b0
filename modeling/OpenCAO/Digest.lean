import OpenCAO.Models

/-!
# Packets and digests

A goal revision seals everything its Work is about into a *goal packet*,
and an Attempt seals the goal packet and its own identity into a *task
packet*. Boundaries, turns, reviews and decisions carry the digests of
both, so that nothing said about one packet can be taken for something
said about another.

A digest is the SHA-256 of the canonical JSON of a mapping. All that is
ever done with one is to compare it with another, and digests of
different mappings are taken to differ; so a digest *is* its mapping
here, with one constructor for each set of keys that the service
digests. Keys that the source omits when they have their default hold
the default.

Texts that the service builds from identifiers – the identity of a
source event, an idempotency key – are sorted by the forms the service
writes. A caller may send a text of any form.
-/

/-- **The identity of a conversation** as packets seal it. -/
structure AttachmentPacket where
  attachmentId : AttachmentId
  supervisorId : PrincipalId
  runtimeSessionId : RuntimeId
  nativeThreadId : NativeThreadId
  projectDigest : String
  generation : ℕ
  deriving DecidableEq, Repr

/-- **The packet of a goal revision**, `build_goal_packet`. -/
structure GoalPacket where
  workItemId : WorkId
  version : ℕ
  title : String
  objective : String
  maturity : String
  acceptance : List String
  nonGoals : List String
  priority : ℕ
  requesterId : Option PrincipalId
  supervisorId : Option PrincipalId
  metadata : String
  reason : String
  createdBy : PrincipalId
  sourceIntentId : Option ℕ
  sourceDirectiveId : Option DirectiveId
  correlationId : Option ℕ
  priorVersion : Option ℕ
  supervisorAttachment : Option AttachmentPacket
  completionContract : String
  dependencies : List String
  managedTaskPolicy : Option String
  workerPurpose : Option String
  deriving DecidableEq, Repr

/-- What a decision on a Boundary asks for, `BoundaryDispositionInput`. -/
structure BoundaryDispositionInput where
  turnId : TurnId
  leaseToken : String
  expectedGeneration : ℕ
  kind : BoundaryDispositionKind
  reason : String
  instruction : String
  resumeCondition : String
  workerId : Option PrincipalId
  runtimeSessionId : Option RuntimeId
  expectedPurposeVersion : Option ℕ
  deriving DecidableEq, Repr

/-- Why the system gave up on a supervision, `reason_code`. -/
inductive EscalationReason where
  | supervisionRecoveryIncomplete | workerCommandOutcomeUnsettled
  deriving DecidableEq, Repr

/-- **The identity of the event a Boundary reports.** -/
inductive SourceEventId where
  | retry (key : String)
  | retryRequest (workItemId : WorkId) (attemptNumber generation : ℕ) (workerId : PrincipalId)
      (runtimeSessionId : Option RuntimeId) (reason : String)
  | reviewNeedsWork (reviewId : ReviewId)
  | requesterDecisionRejected (decisionId : DecisionId)
  | directive (directiveId : DirectiveId)
  | other (text : String)
  deriving DecidableEq, Repr

/-- What a Boundary knows beside its text: whether it reports a recovery,
the directive it is about, the target of a retry, the review or decision
it follows from. -/
structure BoundaryMetadata where
  runtimeRecovery : Bool
  systemRecovery : Bool
  directiveId : Option DirectiveId
  reason : String
  dynamicThreadRecovery : Bool
  target : Option (PrincipalId × Option RuntimeId)
  evidence : Option RowId
  rest : String
  deriving DecidableEq, Repr

/-- **Digests.** -/
inductive Digest where
  | goalPacket (packet : GoalPacket)
  | taskPacket (goalPacketDigest : Digest) (workItemId : WorkId) (goalVersion : ℕ)
      (attemptNumber : ℕ) (workerId : PrincipalId) (runtimeSessionId : Option RuntimeId)
      (supervisorAttachment : Option AttachmentPacket) (dependencies : List String)
  | boundaryInput (sourceEventId : SourceEventId) (workItemId : WorkId) (attemptNumber : ℕ)
      (goalVersion : ℕ) (goalPacketDigest taskPacketDigest : Digest) (generation : ℕ)
      (kind : BoundaryKind) (summary : String) (metadata : BoundaryMetadata)
  | turnInput (boundaryId : BoundaryId) (boundaryInputDigest : Digest)
      (goalPacketDigest taskPacketDigest : Digest) (generation : ℕ)
  | turnResult (boundaryId : BoundaryId) (dispositionId : DispositionId) (requestDigest : Digest)
      (goalPacketDigest taskPacketDigest : Digest)
  | dispositionRequest (request : BoundaryDispositionInput)
  | escalation (boundaryId : BoundaryId) (reasonCode : EscalationReason)
  | retryDecision (boundaryId : BoundaryId) (generation : ℕ) (reason : String)
      (workerId : PrincipalId) (runtimeSessionId : Option RuntimeId)
  | closeDecision (attachmentId : AttachmentId) (attachmentGeneration : ℕ)
  | requesterDecision (attachmentId : AttachmentId) (reviewId : ReviewId) (accepted : Bool)
      (summary : String)
  deriving DecidableEq, Repr

/-- **The idempotency key of a reasoner turn.** -/
inductive TurnKey where
  | none
  | systemEscalation (boundaryId : BoundaryId)
  | conversationClose (attachmentId : AttachmentId) (generation : ℕ) (boundaryId : BoundaryId)
  | replyResume (turnId : TurnId)
  | other (text : String)
  deriving DecidableEq, Repr

/-- **The idempotency key of a message.** -/
inductive MessageKey where
  | none
  | boundary (boundaryId : BoundaryId)
  | requesterEscalation (boundaryId : BoundaryId)
  | reasonerRecovery (turnId : TurnId)
  | reasonerIncomplete (messageId : WorkMessageId) (generation : ℕ)
  | retry (workItemId : WorkId) (attemptNumber : ℕ)
  | replace (directiveId : DirectiveId)
  | resume (completedWorkId targetWorkId : WorkId)
  | cancel (directiveId : DirectiveId)
  | directive (directiveId : DirectiveId)
  | userNeededReply (boundaryId : BoundaryId) (key : String)
  | runtimeBoundary (boundaryId : BoundaryId)
  | other (text : String)
  deriving DecidableEq, Repr
