import OpenCAO.CommandLanes

/-!
# Inboxes

A recipient acknowledges messages in batches, reports that he has handled one,
and the CAO settles a hand-off whose outcome is not known. The three calls act
on the rows that the dispatchers move, and what they ask for is read in the
tables of the Works: a notification of a Boundary is handled when that Boundary
is decided, and an assignment is returned to the queue while it is current.

What is asked depends on who calls. A caller from a conversation of the CAO – a
*scoped* one – is held to the letter: his receipt needs the exact Boundary, and
a hand-off whose outcome is unknown is closed to him. Nobody else is asked about
the outcome, and to anybody else the end of a Work is ground enough.

The tables of the Works are written by other transactions; here they change as
they like.
-/

/-- A whole number in a payload, if it is there and is one. -/
inductive PayloadNumber where
  | absent | malformed | number (n : ℕ)
  deriving DecidableEq, Repr

/-- The number is not there, or it is this one. -/
def PayloadNumber.Agrees (p : PayloadNumber) (n : ℕ) : Prop := p = .absent ∨ p = .number n

instance (p : PayloadNumber) (n : ℕ) : Decidable (p.Agrees n) := by
  unfold PayloadNumber.Agrees
  infer_instance

/-- What is read of the payload of a message. -/
structure InboxPayload where
  boundaryId : Option BoundaryId
  goalPacketDigest : Option String
  taskPacketDigest : Option String
  generation : PayloadNumber
  expectedGeneration : PayloadNumber
  workItemId : Option WorkId
  attemptId : Option RowId
  /-- The digest of the payload is that of its row. -/
  intact : Bool
  deriving DecidableEq, Repr

/-- A row of `messages`. -/
structure InboxMessage where
  kind : MessageKind
  workItemId : Option WorkId
  attemptId : Option RowId
  goalVersion : ℕ
  goalPacketDigest : String
  taskPacketDigest : String
  payload : InboxPayload
  deriving DecidableEq, Repr

/-- A row of `work_items`. -/
structure InboxWork where
  id : WorkId
  supervisorId : Option PrincipalId
  supervisorAttachmentId : Option AttachmentId
  state : WorkState
  attentionOwner : AttentionOwner
  generation : ℕ
  paused : Bool
  deriving DecidableEq, Repr

/-- A row of `attempts`; its Work and its number are its identifier. -/
structure InboxAttempt where
  id : RowId
  workerId : PrincipalId
  runtimeSessionId : Option RuntimeId
  state : AttemptState
  goalVersion : ℕ
  goalPacketDigest : String
  taskPacketDigest : String
  deriving DecidableEq, Repr

/-- A row of `boundaries`; its identifier names its Work. -/
structure InboxBoundary where
  id : BoundaryId
  attemptId : RowId
  goalVersion : ℕ
  goalPacketDigest : String
  taskPacketDigest : String
  generation : ℕ
  deriving DecidableEq, Repr

/-- A row of `boundary_dispositions`. -/
structure InboxDisposition where
  boundaryId : BoundaryId
  generation : ℕ
  decidedBy : PrincipalId
  deriving DecidableEq, Repr

/-- **The tables of the Works.** A message is numbered when it is stored. -/
structure InboxLedger where
  messages : List InboxMessage
  works : List InboxWork
  boundaries : List InboxBoundary
  dispositions : List InboxDisposition
  /-- The Boundaries that were superseded. -/
  supersessions : List BoundaryId
  /-- The runtimes that are busy. -/
  busyRuntimes : List RuntimeId

/-- **The state of the inboxes.** -/
structure Inboxes where
  /-- The deliveries, the clock and the jobs of the dispatchers. -/
  dispatching : Dispatching
  attempts : List InboxAttempt
  ledger : InboxLedger

/-- Why a call fails. -/
inductive InboxError where
  | authorization (reason : String)
  | validation (reason : String)
  | notFound (what : String)
  | conflict (reason : String)
  deriving DecidableEq, Repr

/-- A transaction on the inboxes. -/
abbrev InboxTx := Tx Inboxes InboxError

/-- **Whoever calls**, and what the checks of his credentials and of his authority over
the Work answer. -/
structure InboxCaller where
  id : PrincipalId
  role : PrincipalRole
  /-- The conversation he calls from. -/
  attachmentId : Option AttachmentId
  /-- He holds a credential of a conversation or of its runtime. -/
  credentialed : Bool
  /-- `_require_current_cao_attachment_actor_tx`. -/
  attachmentCurrent : Bool
  /-- `_require_worker_runtime_actor_tx`. -/
  speaksFor : RuntimeId → Bool
  /-- `_authorize_work_actor`, `_require_authorized_work_tx` and
  `_confirm_work_purpose_tx`. -/
  workAuthorized : Bool

/-- He calls from a conversation of the CAO. -/
def InboxCaller.Scoped (c : InboxCaller) : Prop := c.role = .cao ∧ c.attachmentId ≠ none

instance (c : InboxCaller) : Decidable c.Scoped := by
  unfold InboxCaller.Scoped
  infer_instance

namespace InboxLedger

variable (l : InboxLedger)

def work? (id : WorkId) : Option InboxWork := l.works.find? fun w => w.id = id

/-- **The Boundary was disposed or superseded.** -/
def BoundarySettled (id : BoundaryId) : Prop :=
  (∃ d ∈ l.dispositions, d.boundaryId = id) ∨ id ∈ l.supersessions

instance (id : BoundaryId) : Decidable (l.BoundarySettled id) := by
  unfold BoundarySettled
  infer_instance

/-- The Work of a message has ended. -/
def Ended (m : InboxMessage) : Prop :=
  ∃ id ∈ m.workItemId, ∃ w ∈ l.work? id, w.state.terminal = true

instance (m : InboxMessage) : Decidable (l.Ended m) := by
  unfold Ended
  infer_instance

/-- The Boundary was resolved under the authority of its Work: disposed at its own
generation by the supervisor, or superseded. -/
def Resolved (w : InboxWork) (b : InboxBoundary) : Prop :=
  (∃ d ∈ l.dispositions, d.boundaryId = b.id ∧ d.generation = b.generation ∧
    some d.decidedBy = w.supervisorId) ∨ b.id ∈ l.supersessions

instance (w : InboxWork) (b : InboxBoundary) : Decidable (l.Resolved w b) := by
  unfold Resolved
  infer_instance

end InboxLedger

namespace Inboxes

open Delivery

variable (s : Inboxes)

/-- The clock. -/
def now : Instant := s.dispatching.now

/-- The rows of `message_deliveries`. -/
def deliveries : List Delivery := s.dispatching.deliveries

/-- The state with other deliveries. -/
def withDeliveries (rows : List Delivery) : Inboxes :=
  { s with dispatching := { s.dispatching with deliveries := rows } }

/-- The update of one row. -/
def updateRow (d : Delivery) (f : Delivery → Delivery) : Inboxes :=
  s.withDeliveries (Rows.update (fun r => r.key = d.key) f s.deliveries)

def message? (id : MessageId) : Option InboxMessage := s.ledger.messages[id]?

/-- The row of a message and a recipient. -/
def delivery? (id : MessageId) (recipientId : PrincipalId) : Option Delivery :=
  s.deliveries.find? fun d => d.key = (id, recipientId)

def attempt? (id : RowId) : Option InboxAttempt := s.attempts.find? fun a => a.id = id

/-- `_latest_attempt_tx`. -/
def latestAttempt? (id : WorkId) : Option InboxAttempt :=
  (s.attempts.filter fun a => a.id.work = id).maxOn? fun a => a.id.number

/-- The lanes of the commands in these tables. -/
def lanes : CommandLanes :=
  { dispatching := s.dispatching
    messages := s.ledger.messages.map InboxMessage.workItemId
    pausedWorks := (s.ledger.works.filter fun w => w.paused).map InboxWork.id
    entered := [] }

/-! ## What is asked of a delivery -/

/-- The last hand-off through the runtime of a delivery to its recipient. -/
def newestHandoff? (d : Delivery) : Option Delivery :=
  (s.deliveries.filter fun r => r.runtimeSessionId = d.runtimeSessionId &&
    r.recipientId = d.recipientId && r.state = .dispatched && r.ownerToken ≠ "").maxOn? messageId

/-- The runtime of the delivery is busy, and its last hand-off is of the same owner. -/
def ActiveRuntime (d : Delivery) : Prop :=
  (∃ r ∈ s.ledger.busyRuntimes, d.runtimeSessionId = some r) ∧
    ∃ newest ∈ s.newestHandoff? d, d.ownerToken = newest.ownerToken

instance (d : Delivery) : Decidable (s.ActiveRuntime d) := by
  unfold ActiveRuntime
  infer_instance

/-- **The outcome of a hand-off is unknown**: nobody holds it, or its lease has ended and
no runtime works on it. -/
def OutcomeUnknown (d : Delivery) : Prop :=
  d.state = .dispatched ∧
    (d.ownerToken = "" ∨ ((∀ t ∈ d.leaseUntil, t ≤ s.now) ∧ ¬ s.ActiveRuntime d))

instance (d : Delivery) : Decidable (s.OutcomeUnknown d) := by
  unfold OutcomeUnknown
  infer_instance

/-- **`_resolved_cao_boundary_notification_tx`**: the notification is of this caller's
conversation, and the Boundary it names – of the Work, the Attempt and the packets of the
message – was resolved. -/
def ResolvedNotification (c : InboxCaller) (m : InboxMessage) (d : Delivery) : Prop :=
  c.role = .cao ∧ c.attachmentId ≠ none ∧ d.recipientId = c.id ∧
    d.recipientAttachmentId = c.attachmentId ∧
    (∀ g ∈ m.payload.goalPacketDigest, g = m.goalPacketDigest) ∧
    (∀ g ∈ m.payload.taskPacketDigest, g = m.taskPacketDigest) ∧
    ∃ b ∈ s.ledger.boundaries, m.payload.boundaryId = some b.id ∧
      m.workItemId = some b.id.work ∧ m.attemptId = some b.attemptId ∧
      b.attemptId.work = b.id.work ∧ (∃ a ∈ s.attempts, a.id = b.attemptId) ∧
      b.goalVersion = m.goalVersion ∧ b.goalPacketDigest = m.goalPacketDigest ∧
      b.taskPacketDigest = m.taskPacketDigest ∧
      (∃ w ∈ s.ledger.work? b.id.work, w.supervisorId = some c.id ∧
        w.supervisorAttachmentId = c.attachmentId ∧ s.ledger.Resolved w b) ∧
      m.payload.generation.Agrees b.generation ∧ m.payload.expectedGeneration.Agrees b.generation

instance (c : InboxCaller) (m : InboxMessage) (d : Delivery) :
    Decidable (s.ResolvedNotification c m d) := by
  unfold ResolvedNotification
  infer_instance

/-- The Attempt of a message is on the packets of the message. -/
def PacketsCurrent (m : InboxMessage) : Prop :=
  ∀ id ∈ m.attemptId, ∃ a ∈ s.attempt? id, m.goalVersion = a.goalVersion ∧
    m.goalPacketDigest = a.goalPacketDigest ∧ m.taskPacketDigest = a.taskPacketDigest

instance (m : InboxMessage) : Decidable (s.PacketsCurrent m) := by
  unfold PacketsCurrent
  infer_instance

/-- **The assignment is current**: its payload is intact and is about the generation of
an active Work that has its Worker's attention, and about the latest Attempt, which goes
on with this recipient on this runtime. -/
def AssignmentIsCurrent (m : InboxMessage) (d : Delivery) : Prop :=
  ∃ id ∈ m.workItemId, ∃ w ∈ s.ledger.work? id, ∃ a ∈ s.latestAttempt? id,
    m.attemptId = some a.id ∧ m.payload.intact = true ∧ m.payload.workItemId = some w.id ∧
      m.payload.attemptId = some a.id ∧ m.payload.generation = .number w.generation ∧
      w.state = .active ∧ w.attentionOwner = .worker ∧
      (a.state = .assigned ∨ a.state = .accepted ∨ a.state = .working) ∧
      a.workerId = d.recipientId ∧ a.runtimeSessionId = d.runtimeSessionId

instance (m : InboxMessage) (d : Delivery) : Decidable (s.AssignmentIsCurrent m d) := by
  unfold AssignmentIsCurrent
  infer_instance

end Inboxes

/-- The delivery can be acknowledged. -/
def DeliveryState.available : DeliveryState → Bool
  | queued | leased | dispatched | delivered => true
  | acknowledged | handled | dead => false

namespace Inboxes

open Delivery

/-! ## Acknowledgement -/

/-- An assignment its Worker has accepted. -/
def accepted (a : InboxAttempt) : InboxAttempt := { a with state := .accepted }

/-- The Attempt of an assignment is accepted by its Worker. -/
def accept (c : InboxCaller) (m : InboxMessage) (s : Inboxes) : Inboxes :=
  if m.kind = .assignment then
    { s with
      attempts := Rows.update (fun a => some a.id = m.attemptId && a.workerId = c.id &&
        a.state = .assigned) accepted s.attempts }
  else s

/-- A delivery is acknowledged that is the head of its lane and on current packets. -/
def receive (c : InboxCaller) (m : InboxMessage) (d : Delivery) : InboxTx PUnit := do
  let s ← get
  Tx.require (s.lanes.RequireDeliveryHead d) (.conflict "message has an unhandled predecessor")
  Tx.require (s.PacketsCurrent m) (.conflict "message acknowledgement targets a stale task packet")
  Tx.require (d.state.available = true)
    (.conflict "message is not available for acknowledgement")
  modify fun s => accept c m (s.updateRow d (settled .acknowledged))

/-- The calls that speak for a recipient are made from where his delivery goes. -/
def requireRoute (c : InboxCaller) (d : Delivery) : InboxTx PUnit := do
  Tx.require (c.attachmentId ≠ none → d.recipientAttachmentId = c.attachmentId)
    (.authorization "message is not bound to this CAO conversation")

/-- A Worker speaks for the runtime of his delivery. -/
def requireRuntime (c : InboxCaller) (d : Delivery) : InboxTx PUnit :=
  Tx.when (c.role = .worker) do
    let runtimeId ← Tx.need d.runtimeSessionId
      (.conflict "Worker delivery is not bound to a managed MCP runtime")
    Tx.require (c.speaksFor runtimeId = true) (.authorization "worker runtime")

/-- **`acknowledge`**, for one member of a batch. -/
def acknowledgeOne (c : InboxCaller) (id : MessageId) : InboxTx PUnit := do
  let s ← get
  let m ← Tx.need (s.message? id) (.notFound "message")
  let d ← Tx.need (s.delivery? id c.id)
    (.authorization "message is not addressed to this principal")
  requireRoute c d
  Tx.require (c.attachmentId ≠ none → ¬ s.OutcomeUnknown d)
    (.conflict "unknown CAO handoff is preserved and unavailable for acknowledgement")
  requireRuntime c d
  if d.state = .acknowledged ∨ d.state = .handled then pure ⟨⟩
  else if d.state = .dead then
    if s.ResolvedNotification c m d then
      -- The receipt settles what happened, not the transport.
      modify fun s => s.updateRow d incorporated
    else do
      Tx.require (¬ (c.Scoped ∧ m.payload.boundaryId ≠ none))
        (.conflict "message is not available for acknowledgement")
      if s.ledger.Ended m then modify fun s => s.updateRow d (settled .handled)
      else receive c m d
  else receive c m d

/-- `_require_role` for a caller with a credential of a conversation. -/
def requireRole (c : InboxCaller) : InboxTx PUnit :=
  Tx.require (c.credentialed = true → c.role = .cao) (.authorization "role")

/-- **`acknowledge`**: a batch is one transaction. -/
def acknowledge (c : InboxCaller) (ids : List MessageId) : InboxTx PUnit := do
  requireRole c
  Tx.require (c.role = .cao ∧ c.credentialed = true → c.attachmentCurrent = true)
    (.authorization "CAO attachment authority is unavailable")
  Tx.each (acknowledgeOne c) ids.dedup

/-! ## Handling -/

/-- The Boundary a message is about is decided, as far as it is asked of the caller. -/
def BoundaryDecided (s : Inboxes) (c : InboxCaller) (m : InboxMessage) (d : Delivery) : Prop :=
  ∀ b ∈ m.payload.boundaryId,
    if c.Scoped then s.ResolvedNotification c m d else s.ledger.BoundarySettled b

instance (s : Inboxes) (c : InboxCaller) (m : InboxMessage) (d : Delivery) :
    Decidable (s.BoundaryDecided c m d) := by
  unfold BoundaryDecided
  infer_instance

/-- **`mark_message_handled`.** -/
def markMessageHandled (c : InboxCaller) (id : MessageId) (evidence : String) : InboxTx PUnit := do
  requireRole c
  Tx.require (evidence ≠ "") (.validation "message handling evidence is required")
  let s ← get
  Tx.require (c.Scoped → c.attachmentCurrent = true)
    (.authorization "CAO attachment authority is unavailable")
  let d ← Tx.need (s.delivery? id c.id) (.notFound "message delivery")
  requireRoute c d
  requireRuntime c d
  let m ← Tx.need (s.message? id) (.notFound "message")
  Tx.require (s.lanes.RequireDeliveryHead d) (.conflict "message has an unhandled predecessor")
  if d.state = .handled then pure ⟨⟩
  else do
    Tx.require (d.state = .acknowledged)
      (.conflict "message must be acknowledged before it is handled")
    Tx.require (s.BoundaryDecided c m d)
      (.conflict "supervisor boundary must be disposed before its message is handled")
    Tx.require (m.payload.boundaryId = none ∧ c.role = .cao ∧ m.workItemId ≠ none →
      c.workAuthorized = true) (.authorization "work")
    modify fun s => s.updateRow d (settled .handled)

/-! ## Resolution -/

/-- The note a resolution leaves on the row. -/
def resolutionNote (current : Bool) (evidenceDigest : String) : DeliveryOutcome → String
  | .delivered => "resolved:delivered;evidence_digest=" ++ evidenceDigest
  | .notDelivered =>
    if current then "resolved:not_delivered;evidence_digest=" ++ evidenceDigest
    else "system_reconciliation_required"
  | .dead => "resolved:dead;evidence_digest=" ++ evidenceDigest

/-- **`resolve_delivery`.** Of an assignment that was not delivered it is asked whether it
is current. -/
def resolveDelivery (c : InboxCaller) (id : MessageId) (recipientId : PrincipalId)
    (outcome : DeliveryOutcome) (evidenceDigest : String) : InboxTx PUnit := do
  Tx.require (c.role = .cao) (.authorization "role")
  let s ← get
  let m ← Tx.need (s.message? id) (.notFound "message")
  Tx.require (∀ w ∈ m.workItemId, s.ledger.work? w ≠ none) (.notFound "work item")
  Tx.require (m.workItemId ≠ none → c.workAuthorized = true) (.authorization "work")
  let d ← Tx.need (s.delivery? id recipientId) (.notFound "message delivery")
  Tx.require (d.state = .dispatched)
    (.conflict "only an unknown dispatched delivery can be resolved")
  let current := decide (m.kind = .assignment → s.AssignmentIsCurrent m d)
  modify fun s => s.updateRow d fun r =>
    { resolved s.now current outcome r with
      nextAttemptAt := if outcome = .notDelivered then s.now else r.nextAttemptAt
      lastError := resolutionNote current evidenceDigest outcome }

/-! ## The system -/

/-- **The events.** -/
inductive Event where
  /-- A step of a dispatcher. -/
  | dispatch (e : Dispatching.Event)
  /-- New messages are delivered, and other transactions write the tables of the Works. -/
  | others (new : List Delivery) (attempts : List InboxAttempt) (ledger : InboxLedger)
  /-- `acknowledge`. -/
  | acknowledge (c : InboxCaller) (ids : List MessageId)
  /-- `mark_message_handled`. -/
  | handle (c : InboxCaller) (id : MessageId) (evidence : String)
  /-- `resolve_delivery`. -/
  | resolve (c : InboxCaller) (id : MessageId) (recipientId : PrincipalId)
      (outcome : DeliveryOutcome) (evidenceDigest : String)

/-- **One step**; a call that fails changes nothing. -/
def step (s : Inboxes) : Event → Option Inboxes
  | .dispatch e => (s.dispatching.step e).map fun d => { s with dispatching := d }
  | .others new attempts ledger =>
    if ((s.deliveries ++ new).map Delivery.key).Nodup ∧ ∀ d ∈ new, d.state = .queued then
      some { s.withDeliveries (s.deliveries ++ new) with attempts := attempts, ledger := ledger }
    else none
  | .acknowledge c ids => some (Tx.commit (acknowledge c ids) s)
  | .handle c id evidence => some (Tx.commit (markMessageHandled c id evidence) s)
  | .resolve c id recipientId outcome evidenceDigest =>
    some (Tx.commit (resolveDelivery c id recipientId outcome evidenceDigest) s)

/-- The initial states: the deliveries have their primary key. -/
def Initial (s : Inboxes) : Prop := (s.deliveries.map Delivery.key).Nodup

/-- **The system of the inboxes.** -/
def system : TransitionSystem Inboxes Event := .ofFunction Initial step

/-! ## What becomes of a row -/

open Tx

variable {s s' : Inboxes} {c : InboxCaller} {d d' : Delivery}

/-- **What a recipient's call does to a row**: a row that was handled stays as it is, no
row dies, and there are grounds for a row that is handled now – its Boundary is settled,
or, where that is `enough`, its Work has ended. -/
structure Treats (l : InboxLedger) (enough : Prop) (d d' : Delivery) : Prop where
  key : d'.key = d.key
  handled : d.state = .handled → d' = d
  dead : d'.state = .dead → d' = d
  grounds : d'.state = .handled → d.state = .handled ∨
    ∀ m, l.messages[d.messageId]? = some m → ∀ b ∈ m.payload.boundaryId,
      l.BoundarySettled b ∨ (d.state = .dead ∧ l.Ended m ∧ enough)

section Treats

variable {l : InboxLedger} {enough : Prop}

theorem Treats.refl (d : Delivery) : Treats l enough d d := ⟨rfl, fun _ => rfl, fun _ => rfl, .inl⟩

theorem Treats.trans {d'' : Delivery} (h : Treats l enough d d') (h' : Treats l enough d' d'') :
    Treats l enough d d'' where
  key := h'.key.trans h.key
  handled hstate := by
    obtain rfl := h.handled hstate
    exact h'.handled hstate
  dead hstate := by
    obtain rfl := h'.dead hstate
    exact h.dead hstate
  grounds hstate := by
    rcases h'.grounds hstate with hwas | hgrounds
    · exact h.grounds hwas
    · right
      have hid : d'.messageId = d.messageId := congrArg Prod.fst h.key
      rw [hid] at hgrounds
      intro m hm b hb
      rcases hgrounds m hm b hb with hsettled | ⟨hdead, hended⟩
      · exact .inl hsettled
      · obtain rfl := h.dead hdead
        exact .inr ⟨hdead, hended⟩

/-- A row that is neither handled nor dead afterwards. -/
theorem Treats.of_available (hkey : d'.key = d.key) (hold : d.state ≠ .handled)
    (hdead : d'.state ≠ .dead) (hnew : d'.state ≠ .handled) : Treats l enough d d' :=
  ⟨hkey, fun h => absurd h hold, fun h => absurd h hdead, fun h => absurd h hnew⟩

end Treats

/-- What a call of a recipient leaves. -/
structure Treated (enough : Prop) (s s' : Inboxes) : Prop where
  ledger : s'.ledger = s.ledger
  rows : List.Forall₂ (Treats s.ledger enough) s.deliveries s'.deliveries

theorem Treated.refl {enough : Prop} (s : Inboxes) : Treated enough s s :=
  ⟨rfl, List.forall₂_same.mpr fun d _ => .refl d⟩

theorem Treated.trans {enough : Prop} {s₁ s₂ s₃ : Inboxes} (h : Treated enough s₁ s₂) (h' : Treated enough s₂ s₃) :
    Treated enough s₁ s₃ := by
  refine ⟨h'.ledger.trans h.ledger, ?_⟩
  have hrows := h'.rows
  rw [h.ledger] at hrows
  exact Rows.evolve_trans (R := Treats s₁.ledger enough) (fun _ _ _ h₁ h₂ => h₁.trans h₂) h.rows hrows

theorem Treated.keys {enough : Prop} (h : Treated enough s s') (hkeys : (s.deliveries.map Delivery.key).Nodup) :
    (s'.deliveries.map Delivery.key).Nodup := by
  have : s'.deliveries.map Delivery.key = s.deliveries.map Delivery.key :=
    Rows.map_eq_of_evolve (fun _ _ hd => hd.key.symm) h.rows
  rw [this]
  exact hkeys

/-- A row found by its key. -/
theorem key_of_delivery? {id : MessageId} {recipientId : PrincipalId}
    (hd : s.delivery? id recipientId = some d) : d ∈ s.deliveries ∧ d.key = (id, recipientId) := by
  have hkey := List.find?_some hd
  exact ⟨List.mem_of_find?_eq_some hd, of_decide_eq_true hkey⟩

/-- The update of a row that was found. -/
theorem evolve_updateRow {R : Delivery → Delivery → Prop} (hrefl : ∀ d, R d d)
    (hkeys : (s.deliveries.map Delivery.key).Nodup) (hd : d ∈ s.deliveries)
    {f : Delivery → Delivery} (h : R d (f d)) :
    List.Forall₂ R s.deliveries (s.updateRow d f).deliveries := by
  refine Rows.evolve_update_of_mem hrefl fun r hr hkey => ?_
  obtain rfl : r = d := Rows.eq_of_key hkeys hr hd (of_decide_eq_true hkey)
  exact h

theorem deliveries_accept (c : InboxCaller) (m : InboxMessage) (s : Inboxes) :
    (accept c m s).deliveries = s.deliveries ∧ (accept c m s).ledger = s.ledger := by
  unfold accept
  split <;> exact ⟨rfl, rfl⟩

/-- A resolved notification is of a Boundary that is settled. -/
theorem ResolvedNotification.settled {m : InboxMessage} (h : s.ResolvedNotification c m d) :
    ∀ b ∈ m.payload.boundaryId, s.ledger.BoundarySettled b := by
  obtain ⟨-, -, -, -, -, -, boundary, -, hboundary, -, -, -, -, -, -, -, ⟨w, -, -, -, hresolved⟩, -⟩ := h
  intro b hb
  obtain rfl : boundary.id = b := Option.some.inj (hboundary.symm.trans hb)
  rcases hresolved with ⟨disposition, hmem, hid, -⟩ | hsuperseded
  · exact .inl ⟨disposition, hmem, hid⟩
  · exact .inr hsuperseded

theorem receive_spec (hkeys : (s.deliveries.map Delivery.key).Nodup) (hd : d ∈ s.deliveries)
    (m : InboxMessage) {enough : Prop} :
    Ensures s (receive c m d) fun _ s' => Treated enough s s' := by
  refine Ensures.get (Ensures.require fun _ => Ensures.require fun _ => Ensures.require
    fun havailable => ?_)
  obtain ⟨hdeliveries, hledger⟩ := deliveries_accept c m (s.updateRow d (Delivery.settled .acknowledged))
  refine ⟨hledger, ?_⟩
  rw [hdeliveries]
  refine evolve_updateRow .refl hkeys hd (.of_available rfl (fun h => ?_) (fun h => by cases h)
    fun h => by cases h)
  rw [h] at havailable
  cases havailable

theorem requireRuntime_spec (c : InboxCaller) (d : Delivery) :
    Ensures s (requireRuntime c d) fun _ s' => s' = s := by
  refine Ensures.ite (fun _ => Ensures.need fun runtimeId _ => ?_) fun _ => ?_
  · unfold Ensures
    rw [wp_require]
    exact ⟨fun _ => rfl, fun _ => trivial⟩
  · show s = s
    rfl

/-- **One member of a batch.** -/
theorem acknowledgeOne_spec (hkeys : (s.deliveries.map Delivery.key).Nodup) (c : InboxCaller)
    (id : MessageId) : Ensures s (acknowledgeOne c id) fun _ s' => Treated (¬ c.Scoped) s s' := by
  refine Ensures.get (Ensures.need fun m hm => Ensures.need fun d hd => Ensures.require fun _ =>
    Ensures.require fun _ => Ensures.bind (requireRuntime_spec c d) ?_)
  rintro - s₁ rfl
  obtain ⟨hmem, hkey⟩ := key_of_delivery? hd
  have hid : d.messageId = id := congrArg Prod.fst hkey
  refine Ensures.ite (fun _ => .refl s₁) fun hopen => Ensures.ite (fun hdead => ?_)
    fun _ => receive_spec hkeys hmem m
  refine Ensures.ite (fun hresolved => ?_) fun _ => Ensures.require fun hnotice =>
    Ensures.ite (fun hended => ?_) fun _ => receive_spec hkeys hmem m
  · refine ⟨rfl, evolve_updateRow .refl hkeys hmem ⟨rfl, fun h => ?_, fun h => (by cases h), ?_⟩⟩
    · exact absurd (.inr h) hopen
    · intro _
      right
      intro m' hm' b hb
      rw [hid] at hm'
      obtain rfl : m = m' := Option.some.inj (hm.symm.trans hm')
      exact .inl (hresolved.settled b hb)
  · refine ⟨rfl, evolve_updateRow .refl hkeys hmem ⟨rfl, fun h => ?_, fun h => (by cases h), ?_⟩⟩
    · exact absurd (.inr h) hopen
    · intro _
      right
      intro m' hm' b hb
      rw [hid] at hm'
      obtain rfl : m = m' := Option.some.inj (hm.symm.trans hm')
      refine .inr ⟨hdead, hended, fun hscoped => hnotice ⟨hscoped, ?_⟩⟩
      rw [show m.payload.boundaryId = some b from hb]
      exact Option.some_ne_none b

/-- **A batch.** -/
theorem acknowledge_spec (hkeys : (s.deliveries.map Delivery.key).Nodup) (c : InboxCaller)
    (ids : List MessageId) :
    Ensures s (acknowledge c ids) fun _ s' => Treated (¬ c.Scoped) s s' := by
  refine Ensures.require fun _ => Ensures.require fun _ => ?_
  refine wp_each (I := Treated (¬ c.Scoped) s) _ (fun id _ s₁ h₁ => ?_) (.refl s)
  exact (acknowledgeOne_spec (h₁.keys hkeys) c id).mono fun _ _ h₂ => h₁.trans h₂

/-- **The report that a message was handled.** -/
theorem markMessageHandled_spec (hkeys : (s.deliveries.map Delivery.key).Nodup) (c : InboxCaller)
    (id : MessageId) (evidence : String) :
    Ensures s (markMessageHandled c id evidence) fun _ s' => Treated False s s' := by
  refine Ensures.require fun _ => Ensures.require fun _ => Ensures.get (Ensures.require fun _ =>
    Ensures.need fun d hd => Ensures.require fun _ => Ensures.bind (requireRuntime_spec c d) ?_)
  rintro - s₁ rfl
  obtain ⟨hmem, hkey⟩ := key_of_delivery? hd
  have hid : d.messageId = id := congrArg Prod.fst hkey
  refine Ensures.need fun m hm => Ensures.require fun _ => Ensures.ite (fun _ => .refl s₁)
    fun hopen => Ensures.require fun _ => Ensures.require fun hdecided => Ensures.require fun _ => ?_
  refine ⟨rfl, evolve_updateRow .refl hkeys hmem
    ⟨rfl, fun h => absurd h hopen, fun h => (by cases h), fun _ => .inr fun m' hm' b hb => .inl ?_⟩⟩
  rw [hid] at hm'
  obtain rfl : m = m' := Option.some.inj (hm.symm.trans hm')
  have hdecided := hdecided b hb
  split at hdecided
  · exact ResolvedNotification.settled hdecided b hb
  · exact hdecided

/-- Only what is current returns to the queue, in its next generation. -/
theorem generation_of_resolved {now : Instant} {current : Bool}
    (h : (resolved now current .notDelivered d).state = .queued) :
    current = true ∧ (resolved now current .notDelivered d).generation = d.generation + 1 := by
  cases current with
  | true => exact ⟨rfl, rfl⟩
  | false => cases h

/-- **What a resolution does to a row**: it stays, or it was handed off and is not handled
now; one that returns to the queue has a higher generation and, if it is an assignment, is
current. -/
def Resolves (s : Inboxes) (d d' : Delivery) : Prop :=
  d' = d ∨ (d'.key = d.key ∧ d.state = .dispatched ∧ d'.state ≠ .handled ∧
    (d'.state = .queued → d.generation < d'.generation ∧
      ∀ m, s.message? d.messageId = some m → m.kind = .assignment → s.AssignmentIsCurrent m d))

/-- **The resolution of a hand-off.** -/
theorem resolveDelivery_spec (hkeys : (s.deliveries.map Delivery.key).Nodup) (c : InboxCaller)
    (id : MessageId) (recipientId : PrincipalId) (outcome : DeliveryOutcome)
    (evidenceDigest : String) :
    Ensures s (resolveDelivery c id recipientId outcome evidenceDigest) fun _ s' =>
      List.Forall₂ (Resolves s) s.deliveries s'.deliveries := by
  refine Ensures.require fun _ => Ensures.get (Ensures.need fun m hm => Ensures.require fun _ =>
    Ensures.require fun _ => Ensures.need fun d hd => Ensures.require fun hstate => ?_)
  obtain ⟨hmem, hkey⟩ := key_of_delivery? hd
  have hid : d.messageId = id := congrArg Prod.fst hkey
  refine evolve_updateRow (fun d => .inl rfl) hkeys hmem (.inr ⟨?_, hstate, ?_, fun hqueued => ?_⟩)
  · cases outcome with
    | delivered | dead => rfl
    | notDelivered =>
      show (resolved _ _ .notDelivered d).key = d.key
      unfold resolved
      split <;> rfl
  · cases outcome with
    | delivered | dead => exact fun h => by cases h
    | notDelivered =>
      show (resolved _ _ .notDelivered d).state ≠ .handled
      unfold resolved
      split <;> exact fun h => by cases h
  · cases outcome with
    | delivered | dead => cases hqueued
    | notDelivered =>
      obtain ⟨hcurrent, hgeneration⟩ := generation_of_resolved hqueued
      refine ⟨lt_of_lt_of_eq (Nat.lt_succ_self _) hgeneration.symm, fun m' hm' => ?_⟩
      rw [hid] at hm'
      obtain rfl : m = m' := Option.some.inj (hm.symm.trans hm')
      exact of_decide_eq_true hcurrent

/-! ## Runs -/

/-- **What one event does to a row.** -/
structure Turned (s : Inboxes) (e : Event) (d d' : Delivery) : Prop where
  key : d'.key = d.key
  handled : d.state = .handled → d' = d
  grounds : d'.state = .handled → d.state = .handled ∨
    ∀ m, s.message? d.messageId = some m → ∀ b ∈ m.payload.boundaryId,
      s.ledger.BoundarySettled b ∨
        (d.state = .dead ∧ s.ledger.Ended m ∧ ∃ c ids, e = .acknowledge c ids ∧ ¬ c.Scoped)

section Turned

variable {e : Event}

theorem Turned.refl (d : Delivery) : Turned s e d d := ⟨rfl, fun _ => rfl, .inl⟩

theorem turned_rows (rows : List Delivery) : List.Forall₂ (Turned s e) rows rows :=
  List.forall₂_same.mpr fun d _ => .refl d

/-- A row that is handled neither before nor after. -/
theorem Turned.of_open (hkey : d'.key = d.key) (hold : d.state ≠ .handled)
    (hnew : d'.state ≠ .handled) : Turned s e d d' :=
  ⟨hkey, fun h => absurd h hold, fun h => absurd h hnew⟩

theorem Turned.of_treats {enough : Prop} (h : Treats s.ledger enough d d')
    (henough : enough → ∃ c ids, e = .acknowledge c ids ∧ ¬ c.Scoped) : Turned s e d d' := by
  refine ⟨h.key, h.handled, fun hstate => (h.grounds hstate).imp_right fun hgrounds m hm b hb => ?_⟩
  exact (hgrounds m hm b hb).imp_right fun hdead => ⟨hdead.1, hdead.2.1, henough hdead.2.2⟩

/-- A row a dispatcher worked on. -/
theorem Turned.of_worked (h : Worked d d') : Turned s e d d' := by
  rcases h.work with rfl | ⟨hstate, hleft⟩
  · exact .refl _
  · refine .of_open h.key (fun hhandled => ?_) fun hhandled => ?_
    · rcases hstate with hstate | hstate <;> rw [hstate] at hhandled <;> cases hhandled
    · rw [hhandled] at hleft
      cases hleft

/-- A row a claim went over. -/
theorem Turned.of_reclaimed (h : Reclaimed d d') : Turned s e d d' := by
  rcases h with rfl | ⟨hkey, hold, hnew, -⟩
  · exact .refl _
  · refine .of_open hkey (fun hhandled => ?_) fun hhandled => ?_
    · rw [hhandled] at hold
      cases hold
    · rw [hhandled] at hnew
      cases hnew

/-- **A dispatcher handles nothing.** -/
theorem turned_of_dispatch (hkeys : (s.deliveries.map Delivery.key).Nodup)
    {event : Dispatching.Event} {t : Dispatching} (h : s.dispatching.step event = some t) :
    List.Forall₂ (Turned s e) s.deliveries t.deliveries := by
  by_cases hclaim : ∃ owner leaseSeconds query, event = .claim owner leaseSeconds query
  · obtain ⟨owner, leaseSeconds, query, rfl⟩ := hclaim
    obtain rfl := Option.some.inj h
    exact (reclaimed_of_claim s.now leaseSeconds owner query hkeys).imp fun _ _ =>
      Turned.of_reclaimed
  · push Not at hclaim
    exact (Dispatching.worked_of_step hkeys hclaim h).imp fun _ _ => Turned.of_worked

/-- The rows after a call of a recipient. -/
theorem turned_of_treated {enough : Prop} (h : Treated enough s s')
    (henough : enough → ∃ c ids, e = .acknowledge c ids ∧ ¬ c.Scoped) :
    List.Forall₂ (Turned s e) s.deliveries s'.deliveries :=
  h.rows.imp fun _ _ hd => .of_treats hd henough

/-- **One step**: every row is turned, and a new one is queued. -/
theorem turned_of_step (hkeys : (s.deliveries.map Delivery.key).Nodup) (h : s.step e = some s') :
    ∃ rows new, s'.deliveries = rows ++ new ∧ List.Forall₂ (Turned s e) s.deliveries rows ∧
      (∀ d ∈ new, d.state = .queued) ∧ (s'.deliveries.map Delivery.key).Nodup := by
  -- all events but one leave the number of the rows
  have hsame : List.Forall₂ (Turned s e) s.deliveries s'.deliveries →
      ∃ rows new, s'.deliveries = rows ++ new ∧ List.Forall₂ (Turned s e) s.deliveries rows ∧
        (∀ d ∈ new, d.state = .queued) ∧ (s'.deliveries.map Delivery.key).Nodup := by
    intro hrows
    refine ⟨s'.deliveries, [], (List.append_nil _).symm, hrows, fun d hd => (by cases hd), ?_⟩
    rw [Rows.map_eq_of_evolve (fun _ _ hd => hd.key.symm) hrows]
    exact hkeys
  cases e with
  | dispatch event =>
    obtain ⟨t, ht, rfl⟩ := Option.map_eq_some_iff.mp h
    exact hsame (turned_of_dispatch hkeys ht)
  | others new attempts ledger =>
    obtain ⟨⟨hnodup, hqueued⟩, rfl⟩ := TransitionSystem.of_guarded h
    exact ⟨s.deliveries, new, rfl, turned_rows _, hqueued, hnodup⟩
  | acknowledge c ids =>
    obtain rfl := Option.some.inj h
    refine hsame (commit_of_wp (I := fun s' => List.Forall₂ _ s.deliveries s'.deliveries)
      (turned_rows _) ((acknowledge_spec hkeys c ids).mono fun _ _ ht => ?_))
    exact turned_of_treated ht fun hscoped => ⟨c, ids, rfl, hscoped⟩
  | handle c id evidence =>
    obtain rfl := Option.some.inj h
    refine hsame (commit_of_wp (I := fun s' => List.Forall₂ _ s.deliveries s'.deliveries)
      (turned_rows _) ((markMessageHandled_spec hkeys c id evidence).mono fun _ _ ht => ?_))
    exact turned_of_treated ht False.elim
  | resolve c id recipientId outcome evidenceDigest =>
    obtain rfl := Option.some.inj h
    refine hsame (commit_of_wp (I := fun s' => List.Forall₂ _ s.deliveries s'.deliveries)
      (turned_rows _) ((resolveDelivery_spec hkeys c id recipientId outcome evidenceDigest).mono
        fun _ _ hrows => hrows.imp fun d d' hd => ?_))
    rcases hd with rfl | ⟨hkey, hstate, hnew, -⟩
    · exact .refl _
    · refine .of_open hkey (fun hhandled => ?_) hnew
      rw [hstate] at hhandled
      cases hhandled

end Turned

theorem keys_of_reachable (hs : system.Reachable s) : (s.deliveries.map Delivery.key).Nodup := by
  refine TransitionSystem.Reachable.invariant (T := system)
    (I := fun s => (s.deliveries.map Delivery.key).Nodup) (fun _ h => h) ?_ hs
  intro s e s' _ hkeys hstep
  obtain ⟨-, -, -, -, -, hkeys'⟩ := turned_of_step hkeys hstep
  exact hkeys'

/-- **Handled is absorbing**: the row stays, whatever follows. -/
theorem handled_of_runs (hs : system.Reachable s) (hruns : system.Runs s s')
    (hd : d ∈ s.deliveries) (hstate : d.state = .handled) : d ∈ s'.deliveries := by
  have hstays : ∀ d ∈ s.deliveries, d.state = .handled → d ∈ s'.deliveries := by
    refine TransitionSystem.Runs.lift (T := system)
      (R := fun s s' => ∀ d ∈ s.deliveries, d.state = .handled → d ∈ s'.deliveries)
      (fun _ _ hd _ => hd) (fun h h' d hd hstate => h' d (h d hd hstate) hstate) ?_ hs hruns
    intro s e s' hreach hstep d hd hstate
    obtain ⟨rows, new, hrows, hturned, -, -⟩ := turned_of_step (keys_of_reachable hreach) hstep
    obtain ⟨d', hd', hturn⟩ := Rows.exists_right hturned hd
    obtain rfl := hturn.handled hstate
    rw [hrows]
    exact List.mem_append_left new hd'
  exact hstays d hd hstate

/-- **The row under a key is turned by a step.** -/
theorem turned_of_key (hs : system.Reachable s) {e : Event} (h : s.step e = some s')
    (hd : d ∈ s.deliveries) (hd' : d' ∈ s'.deliveries) (hkey : d'.key = d.key) :
    Turned s e d d' := by
  obtain ⟨rows, new, hrows, hturned, -, hkeys'⟩ := turned_of_step (keys_of_reachable hs) h
  obtain ⟨d'', hd'', hturn⟩ := Rows.exists_right hturned hd
  have hmem : d'' ∈ s'.deliveries := hrows ▸ List.mem_append_left new hd''
  obtain rfl : d'' = d' := Rows.eq_of_key hkeys' hmem hd' (hturn.key.trans hkey.symm)
  exact hturn

/-- **What returns to the queue**, by a resolution. -/
theorem requeued_of_resolve (hs : system.Reachable s) {id : MessageId} {recipientId : PrincipalId}
    {outcome : DeliveryOutcome} {evidenceDigest : String}
    (h : s.step (.resolve c id recipientId outcome evidenceDigest) = some s')
    (hd : d ∈ s.deliveries) (hd' : d' ∈ s'.deliveries) (hkey : d'.key = d.key)
    (hold : d.state ≠ .queued) (hnew : d'.state = .queued) :
    d.generation < d'.generation ∧ ∀ m, s.message? d.messageId = some m → m.kind = .assignment →
      s.AssignmentIsCurrent m d := by
  have hkeys := keys_of_reachable hs
  obtain ⟨-, -, -, -, -, hkeys'⟩ := turned_of_step hkeys h
  obtain rfl := Option.some.inj h
  have hrows := commit_of_wp (I := fun t : Inboxes => List.Forall₂ (Resolves s) s.deliveries t.deliveries)
    (List.forall₂_same.mpr fun _ _ => .inl rfl)
    (resolveDelivery_spec hkeys c id recipientId outcome evidenceDigest)
  obtain ⟨d'', hd'', hturn⟩ := Rows.exists_right hrows hd
  rcases hturn with rfl | ⟨hkey'', -, -, hgrounds⟩
  · exact absurd (Rows.eq_of_key hkeys' hd'' hd' hkey.symm ▸ hnew) hold
  · obtain rfl := Rows.eq_of_key hkeys' hd'' hd' (hkey''.trans hkey.symm)
    exact hgrounds hnew

/-- **A caller from a conversation of the CAO receives no hand-off whose outcome is
unknown.** -/
theorem outcome_of_acknowledgeOne {id : MessageId} {r : PUnit × Inboxes}
    (hc : c.attachmentId ≠ none) (h : acknowledgeOne c id s = .ok r) :
    ∀ d ∈ s.delivery? id c.id, ¬ s.OutcomeUnknown d := by
  have hspec : Ensures s (acknowledgeOne c id) fun _ _ =>
      ∀ d ∈ s.delivery? id c.id, ¬ s.OutcomeUnknown d := by
    refine Ensures.get (Ensures.need fun m _ => Ensures.need fun d hd => Ensures.require fun _ =>
      Ensures.require fun hknown => ?_)
    have hall : ∀ d ∈ s.delivery? id c.id, ¬ s.OutcomeUnknown d := by
      intro d' hd'
      obtain rfl : d = d' := Option.some.inj (hd.symm.trans hd')
      exact hknown hc
    exact wp_true fun _ _ => hall
  exact hspec.run h

/-- A batch that succeeds has run all its members. -/
theorem acknowledge_run {ids : List MessageId} {r : PUnit × Inboxes}
    (h : acknowledge c ids s = .ok r) : Tx.each (acknowledgeOne c) ids.dedup s = .ok r :=
  (of_require (of_require h).2).2

/-- A batch fails with its members. -/
theorem acknowledge_fails {ids : List MessageId} {err : InboxError}
    (h : Tx.each (acknowledgeOne c) ids.dedup s = .error err) :
    ∃ err', acknowledge c ids s = .error err' := by
  cases hack : acknowledge c ids s with
  | error err' => exact ⟨err', rfl⟩
  | ok r =>
    rw [acknowledge_run hack] at h
    cases h

/-! ## A sample -/

/-- A queued delivery of a message. -/
def sampleDelivery (id : MessageId) (recipientId : PrincipalId) (runtimeId : Option RuntimeId) :
    Delivery :=
  ⟨id, recipientId, none, .queued, 1, 0, 0, runtimeId, none, "", "", .terminal⟩

/-- A message of Work 0 and its only Attempt. -/
def sampleMessage (kind : MessageKind) (boundaryId : Option BoundaryId) : InboxMessage :=
  ⟨kind, some 0, some ⟨0, 0⟩, 1, "goal", "task",
    ⟨boundaryId, none, none, .absent, .absent, none, none, true⟩⟩

/-- The tables of Work 0: an instruction to its Worker, and a notification of its Boundary
to its supervisor. -/
def sampleLedger (state : WorkState) (attention : AttentionOwner) : InboxLedger :=
  { messages := [sampleMessage .instruction none, sampleMessage .report (some ⟨0, 0⟩)]
    works := [⟨0, some 7, none, state, attention, 1, false⟩]
    boundaries := [⟨⟨0, 0⟩, ⟨0, 0⟩, 1, "goal", "task", 1⟩]
    dispositions := []
    supersessions := []
    busyRuntimes := [] }

def sampleAttempt (state : AttemptState) : InboxAttempt :=
  ⟨⟨0, 0⟩, 8, some 3, state, 1, "goal", "task"⟩

/-- The Work goes on. -/
def sampleInboxes : Inboxes :=
  { dispatching := ⟨100, [sampleDelivery 0 8 (some 3), sampleDelivery 1 7 none], [], []⟩
    attempts := [sampleAttempt .working]
    ledger := sampleLedger .active .worker }

/-- The Work was canceled. -/
def sampleCancel : Event :=
  .others [] [sampleAttempt .canceled] (sampleLedger .canceled .none)

/-- A dispatcher takes a message. -/
def claimOne (id : MessageId) : Dispatching.Event :=
  .claim "a" 60 ⟨fun d => d.messageId = id, fun id => id⟩

/-- The row a dispatcher took. -/
def claimedRow (d : Delivery) : Delivery :=
  { d with state := .leased, leaseUntil := some 160, ownerToken := "a" }

/-- The instruction is handed off, and the adapter reports no outcome. -/
def unknownHandoff : List Event :=
  let d := claimedRow (sampleDelivery 0 8 (some 3))
  [.dispatch (claimOne 0),
    .dispatch (.reserve ⟨"a", d, .claimed⟩ ⟨fun _ => true, true, true, true⟩),
    .dispatch (.enter ⟨"a", d, .reserved⟩),
    .dispatch (.settle ⟨"a", d, .submitted⟩ (.unknown "timeout"))]

/-- The notification could not be delivered. -/
def deadNotice : List Event :=
  [.dispatch (claimOne 1), .dispatch (.preLaunch
    ⟨"a", claimedRow (sampleDelivery 1 7 none), .claimed⟩ (.finish 8 "runtime" true))]

/-- The Worker, on runtime 3. -/
def sampleWorker : InboxCaller := ⟨8, .worker, none, false, true, fun r => r = 3, true⟩

/-- The supervisor, not from a conversation. -/
def sampleSupervisor : InboxCaller := ⟨7, .cao, none, false, true, fun _ => false, true⟩

theorem reachable_sampleInboxes : system.Reachable sampleInboxes :=
  .of_init (by show (List.map Delivery.key _).Nodup; decide)

end Inboxes
