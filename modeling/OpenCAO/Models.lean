import Mathlib.Data.Nat.Notation

/-!
# Enumerations and identifiers of the control plane

The enumerations are the ones of `models.py`, constructor by
constructor. Identifiers are random hexadecimal names in the source; all
that is ever done with one is to compare it with another, so they are
natural numbers here, under a name per table.

Instants are whole seconds: `utc_now` drops the microseconds, and the
order of its fixed-width text is the order of the instants.
-/

/-- The identifier of a principal. -/
abbrev PrincipalId := ℕ
/-- The identifier of a message. -/
abbrev MessageId := ℕ
/-- The identifier of a conversation attachment. -/
abbrev AttachmentId := ℕ
/-- The identifier of a runtime session. -/
abbrev RuntimeId := ℕ
/-- The identifier of a native thread of the host. -/
abbrev NativeThreadId := ℕ
/-- An instant, in seconds. -/
abbrev Instant := ℕ

/-- Where a delivery stands between its creation and its handling. -/
inductive DeliveryState where
  /-- Waiting for a dispatcher. -/
  | queued
  /-- Claimed by a dispatcher, not yet handed off. -/
  | leased
  /-- Reserved for a hand-off whose outcome is not known yet. -/
  | dispatched
  /-- Handed off. -/
  | delivered
  /-- Acknowledged by its recipient. -/
  | acknowledged
  /-- Settled. -/
  | handled
  /-- Given up. -/
  | dead
  deriving DecidableEq, Repr

/-- Whether a dead delivery may be re-armed by runtime availability
alone. -/
inductive DeliveryReactivationPolicy where
  /-- It stays dead. -/
  | terminal
  /-- It may be re-armed. -/
  | retryable
  deriving DecidableEq, Repr

/-- The state of a runtime session. -/
inductive RuntimeState where
  /-- Being started. -/
  | starting
  /-- Ready for a turn. -/
  | ready
  /-- Running a turn. -/
  | busy
  /-- Waiting between turns. -/
  | waiting
  /-- Stopped. -/
  | stopped
  /-- Failed. -/
  | failed
  /-- Gone. -/
  | missing
  deriving DecidableEq, Repr

/-- The runtime has ended. -/
def RuntimeState.ended : RuntimeState → Bool
  | stopped | failed | missing => true
  | starting | ready | busy | waiting => false

/-- The runtime can take a turn now or later. -/
def RuntimeState.connectable : RuntimeState → Bool
  | ready | waiting | busy => true
  | starting | stopped | failed | missing => false

/-- The state of a conversation attachment. -/
inductive AttachmentState where
  /-- In use. -/
  | active
  /-- Not renewed in time. -/
  | stale
  /-- Closed. -/
  | revoked
  /-- Failed. -/
  | failed
  deriving DecidableEq, Repr

/-! ## Work and its supervision

The rows of one Work are numbered among themselves, so the identifier of
a row is its Work and its number. -/

/-- The identifier of a Work. -/
abbrev WorkId := ℕ
/-- The identifier of a directive. -/
abbrev DirectiveId := ℕ

/-- The identifier of a row of a Work. -/
structure RowId where
  work : WorkId
  number : ℕ
  deriving DecidableEq, Repr

abbrev BoundaryId := RowId
abbrev TurnId := RowId
abbrev DispositionId := RowId
abbrev ReviewId := RowId
abbrev DecisionId := RowId
abbrev WorkMessageId := RowId

/-- The role of a principal. -/
inductive PrincipalRole where
  | cao | worker | user | external | dashboard
  deriving DecidableEq, Repr

/-- The state of a Work. -/
inductive WorkState where
  | «open» | active | suspended | waitingSupervisor | waitingReview | waitingUser | userNeeded
  | completed | canceled | failed
  deriving DecidableEq, Repr

/-- The Work has ended. -/
def WorkState.terminal : WorkState → Bool
  | completed | canceled | failed => true
  | «open» | active | suspended | waitingSupervisor | waitingReview | waitingUser | userNeeded =>
    false

/-- Whose attention a Work has. -/
inductive AttentionOwner where
  | none | worker | cao | user | external
  deriving DecidableEq, Repr

/-- The state of an Attempt. `systemReconciliation` is no member of the
enumeration of the source: the text is written by `worker_output.py`. -/
inductive AttemptState where
  | assigned | accepted | working | suspended | waitingSupervisor | inputRequired | blocked
  | submitted | completed | failed | canceled | systemReconciliation
  deriving DecidableEq, Repr

/-- The Attempt has ended. -/
def AttemptState.terminal : AttemptState → Bool
  | completed | failed | canceled => true
  | assigned | accepted | working | suspended | waitingSupervisor | inputRequired | blocked
  | submitted | systemReconciliation => false

/-- How well the result of an Attempt is established. -/
inductive EvidenceConfidence where
  | unknown | declared | observed | verified
  deriving DecidableEq, Repr

/-- What a Boundary reports. -/
inductive BoundaryKind where
  | directive | idle | question | blocker | completion | workerOutput | reviewRejected
  | userRejection | retryRequest | exit | failure
  deriving DecidableEq, Repr

/-- What is decided about a Boundary. -/
inductive BoundaryDispositionKind where
  | «continue» | correct | retry | waitUser | pause | accept | cancel | fail
  deriving DecidableEq, Repr

/-- The state of a reasoner turn. -/
inductive ReasonerTurnState where
  | leased | completed | abandoned
  deriving DecidableEq, Repr

/-- The verdict of a review. -/
inductive ReviewVerdict where
  | ok | needsWork
  deriving DecidableEq, Repr

/-- The kinds of messages that the supervision of a Work sends. -/
inductive MessageKind where
  | assignment | instruction | review | cancel | system | report
  deriving DecidableEq, Repr
