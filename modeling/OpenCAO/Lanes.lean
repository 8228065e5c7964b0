import OpenCAO.Assignments
import OpenCAO.WakeRoutes

/-!
# The lanes of the Workers

A command to a Worker – an assignment, an instruction, a cancellation – is
a message of a Work with one delivery, pinned to the runtime of its
Attempt. The deliveries of one Worker on one runtime form a *lane*: they
are dispatched one after the other, in the order they were sent.

Two things happen to a lane that do not know of each other. Dispatchers
claim and reserve deliveries, and the control plane commits transactions
that move the Works and Attempts the deliveries are about. The state of
the lanes is therefore both, the store and the dispatching, with the
commands sent so far between them. What connects the two sides is

* the claim, which reads the store (`Lanes.Dispatchable`),
* the transactions, which send commands and settle deliveries of the
  Work they move (`Call.settles`, `Call.retires`),
* and the check of a pause, which reads the deliveries
  (`Lanes.CommandsSettled`).

A command is numbered in the order it was sent, and its number is the
message identifier of its delivery.
-/

/-- The message is a command to a Worker. -/
def MessageKind.toWorker : MessageKind → Bool
  | .assignment | .instruction | .cancel => true
  | .review | .system | .report => false

/-- A delivery that has not reached its recipient. -/
def DeliveryState.unsent : DeliveryState → Bool
  | queued | leased => true
  | dispatched | delivered | acknowledged | handled | dead => false

/-- A delivery that its lane waits for. -/
def DeliveryState.unsettled : DeliveryState → Bool
  | queued | leased | dispatched | delivered | acknowledged => true
  | handled | dead => false

/-- A command, with the Work it is about. -/
structure Command where
  workId : WorkId
  message : Message
  deriving DecidableEq, Repr

/-- **The lanes of the Workers.** -/
structure Lanes where
  store : Store
  /-- The commands in the order they were sent. -/
  sent : List Command
  dispatching : Dispatching

/-! ## What transactions do to deliveries -/

/-- The conversation of a cancelled Attempt is over: its Worker is not told,
and whatever is on its way to it is dead (service 23357). -/
def WorkFile.Unreachable (f : WorkFile) (world : World) (m : Message) : Prop :=
  ∃ a ∈ f.latestAttempt?, a.number = m.attemptNumber ∧ world.runtimeLive a = false

instance (f : WorkFile) (world : World) (m : Message) : Decidable (f.Unreachable world m) := by
  unfold WorkFile.Unreachable
  infer_instance

/-- The recovery of a Worker goes on: nobody recorded its event before. -/
def WorkFile.Recovers (f : WorkFile) (event : SourceEventId) (a : Attempt) : Prop :=
  ∀ b ∈ f.boundaries, b.sourcePrincipalId = a.workerId → b.sourceEventId ≠ event

instance (f : WorkFile) (event : SourceEventId) (a : Attempt) :
    Decidable (f.Recovers event a) := by
  unfold WorkFile.Recovers
  infer_instance

/-- The delivery is on the lane of an Attempt. -/
def OnLane (a : Attempt) (m : Message) (d : Delivery) : Prop :=
  m.attemptNumber = a.number ∧ d.recipientId = a.workerId ∧ d.runtimeSessionId = a.runtimeSessionId

instance (a : Attempt) (m : Message) (d : Delivery) : Decidable (OnLane a m d) := by
  unfold OnLane
  infer_instance

/-- **What becomes of a delivery of the Work** in the transaction of a call,
as far as what the call finds decides it. -/
def Call.settles (world : World) (f : WorkFile) (m : Message) (d : Delivery) :
    Call → Option DeliveryState
  | .cancelWork _ _ _ =>
    if f.Unreachable world m ∧ d.state.unsettled = true then some .dead else none
  | .closeConversation _ _ =>
    if d.state.unsettled = true ∧ (f.Unreachable world m ∨ d.state ≠ .dispatched) then some .dead
    else none
  | .finishWorker worker _ =>
    if d.recipientId = worker ∧ ((d.state = .queued ∧ d.ownerToken = "") ∨
        (d.state = .leased ∧ (d.ownerToken = "" ∨ d.leaseUntil.all (· ≤ world.now)))) then
      some .dead
    else none
  | .report actor r =>
    if world.cached = none ∧ m.kind = .assignment ∧ m.attemptNumber = r.attemptNumber ∧
        d.recipientId = actor.id ∧ d.state.unsettled = true then some .handled
    else none
  | .acceptAssignment n =>
    if m.kind = .assignment ∧ m.attemptNumber = n ∧ d.state.unsettled = true ∧
        d.state ≠ .acknowledged then some .acknowledged
    else none
  | .reconcileCompletedTurn event n =>
    if (∃ a ∈ f.attempt? n, OnLane a m d ∧ f.Recovers event a) ∧
        (∀ b ∈ f.openBoundaries, b.attemptNumber ≠ n) ∧ d.state.unsent = true then some .dead
    else none
  | .recoverAmbiguousWorker event n =>
    if (∃ a ∈ f.attempt? n, OnLane a m d ∧ f.Recovers event a) ∧ d.state.unsent = true then
      some .dead
    else none
  | .recoverUnstartedWorker event n =>
    -- A runtime that cannot take a message any more keeps its queue.
    if (∃ a ∈ f.attempt? n, OnLane a m d ∧ f.Recovers event a ∧ world.runtimeLive a = true) ∧
        d.state = .queued then some .dead
    else none
  | .failAssignmentDependency _ n =>
    if m.kind = .assignment ∧ m.attemptNumber = n ∧ d.state = .leased then some .dead else none
  | _ => none

/-- **What becomes of a delivery of the Work** in the transaction of a decision,
which depends on what the decision did: a pause retires the commands that
were not sent, and a recovery that goes on those of its Attempt. -/
def Call.retires (f g : WorkFile) (m : Message) (d : Delivery) : Call → Option DeliveryState
  | .disposeBoundary _ id r =>
    if f.work.pausedBoundaryId = none ∧ g.work.pausedBoundaryId.isSome ∧
        (∃ a ∈ g.latestAttempt?, d.recipientId = a.workerId) ∧ m.kind ≠ .cancel ∧
        d.state.unsent = true then some .dead
    else if ¬ f.Disposed id ∧ (r.kind = .continue ∨ r.kind = .correct) ∧
        (∃ b ∈ g.boundary? id, WorkFile.continuesRecovery b = true ∧
          ∃ a ∈ f.attempt? b.attemptNumber, OnLane a m d) ∧
        (d.state.unsent = true ∨ d.state = .dispatched) then some .dead
    else none
  | _ => none

/-- The delivery is with its recipient, or on its way there. -/
def Delivery.InTransit (now : Instant) (d : Delivery) : Prop :=
  d.state = .dispatched ∨ d.state = .delivered ∨ d.state = .acknowledged ∨
    (d.state = .leased ∧ d.ownerToken ≠ "" ∧ d.leaseUntil.any (now < ·))

instance (now : Instant) (d : Delivery) : Decidable (d.InTransit now) := by
  unfold Delivery.InTransit
  infer_instance

/-- A delivery that is settled. -/
def Delivery.settled (state : DeliveryState) (d : Delivery) : Delivery :=
  { d with state := state, leaseUntil := none, ownerToken := "" }

/-- The delivery of a new command. -/
def Delivery.ofCommand (now : Instant) (id : MessageId) (c : Command) (runtime : Option RuntimeId) :
    Delivery :=
  { messageId := id, recipientId := c.message.recipientId, recipientAttachmentId := none,
    state := .queued, generation := 1, attempts := 0, nextAttemptAt := now,
    runtimeSessionId := runtime, leaseUntil := none, ownerToken := "", lastError := "",
    reactivationPolicy := .terminal }

namespace Lanes

variable (L : Lanes)

/-- The rows of `message_deliveries`. -/
def deliveries : List Delivery := L.dispatching.deliveries

/-- The lanes with other deliveries. -/
def withDeliveries (rows : List Delivery) : Lanes :=
  { L with dispatching := { L.dispatching with deliveries := rows } }

/-- The command that is delivered. -/
def command? (d : Delivery) : Option Command := L.sent[d.messageId]?

/-- The delivery is about a Work. -/
def About (w : WorkId) (d : Delivery) : Prop := ∃ c ∈ L.command? d, c.workId = w

instance (w : WorkId) (d : Delivery) : Decidable (L.About w d) := by
  unfold About
  infer_instance

/-! ## The claim -/

/-- The Work of the delivery is paused. -/
def Paused (d : Delivery) : Prop :=
  ∃ c ∈ L.command? d, ∃ f ∈ L.store.file? c.workId, f.work.pausedBoundaryId ≠ none

instance (d : Delivery) : Decidable (L.Paused d) := by
  unfold Paused
  infer_instance

/-- An earlier delivery of the lane that was not settled; one of a paused Work
that nobody holds is passed over. -/
def Precedes (prior d : Delivery) : Prop :=
  prior.recipientId = d.recipientId ∧ prior.messageId < d.messageId ∧
    prior.state.unsettled = true ∧ prior.recipientAttachmentId = none ∧
    ¬ (prior.state = .queued ∧ prior.ownerToken = "" ∧ L.Paused prior) ∧
    prior.runtimeSessionId = d.runtimeSessionId

instance (prior d : Delivery) : Decidable (L.Precedes prior d) := by
  unfold Precedes
  infer_instance

/-- **`runtime_delivery_lane_head_sql`.** -/
def LaneHead (d : Delivery) : Prop :=
  ¬ L.Paused d ∧ ∀ prior ∈ L.deliveries, ¬ L.Precedes prior d

instance (d : Delivery) : Decidable (L.LaneHead d) := by
  unfold LaneHead
  infer_instance

end Lanes

/-- **The authority of an assignment**, as `_claim_delivery` asks for it. -/
def WorkFile.Authorizes (f : WorkFile) (m : Message) (d : Delivery) : Prop :=
  (∃ a ∈ f.latestAttempt?, a.number = m.attemptNumber ∧ a.workerId = d.recipientId ∧
      f.work.assignedWorkerId = a.workerId ∧ a.runtimeSessionId.isSome ∧
      a.runtimeSessionId = d.runtimeSessionId ∧ a.state = .assigned) ∧
    f.work.state = .active ∧ f.work.attentionOwner = .worker ∧
    m.payload.generation = some f.work.generation

instance (f : WorkFile) (m : Message) (d : Delivery) : Decidable (f.Authorizes m d) := by
  unfold WorkFile.Authorizes
  infer_instance

namespace Lanes

variable (L : Lanes)

/-- **What `_claim_delivery` reads in the store**: an assignment has authority,
and the delivery is the head of its lane. What it reads about runtimes,
enrollments and threads is left to the query. -/
def Dispatchable (d : Delivery) : Prop :=
  ∃ c ∈ L.command? d,
    (c.message.kind = .assignment →
      ∃ f ∈ L.store.file? c.workId, f.Authorizes c.message d) ∧ L.LaneHead d

instance (d : Delivery) : Decidable (L.Dispatchable d) := by
  unfold Dispatchable
  infer_instance

/-- A claim reads the store, after it reset the expired leases. -/
def claimQuery (query : Delivery.ClaimQuery) : Delivery.ClaimQuery :=
  let rows := Delivery.resetExpiredLeases L.dispatching.now L.deliveries
  { dispatchable := fun d => decide ((L.withDeliveries rows).Dispatchable d) && query.dispatchable d
    sequence := id }

/-- An event of the dispatchers on the lanes. -/
def observed : Dispatching.Event → Dispatching.Event
  | .claim owner leaseSeconds query => .claim owner leaseSeconds (L.claimQuery query)
  | e => e

/-! ## The transactions -/

/-- The commands that a transaction sent. -/
def newCommands (s s' : Store) : List Command :=
  s'.files.flatMap fun f =>
    ((f.messages.filter fun m =>
      m.kind.toWorker && (s.file? f.id).all fun g => decide (m ∉ g.messages)).map
        fun m => ⟨f.id, m⟩).reverse

/-- The runtime of the Attempt that a command is about. -/
def commandRuntime (s : Store) (c : Command) : Option RuntimeId :=
  ((s.file? c.workId).bind fun f => f.attempt? c.message.attemptNumber).bind (·.runtimeSessionId)

/-- The deliveries of new commands. -/
def newDeliveries (now : Instant) (s : Store) (first : ℕ) (commands : List Command) :
    List Delivery :=
  commands.mapIdx fun i c => .ofCommand now (first + i) c (commandRuntime s c)

/-- A delivery after a transaction. -/
def settle (t : Transaction) (s' : Store) (d : Delivery) : Delivery :=
  match t, L.command? d with
  | .call w world call _ _, some c =>
    if c.workId = w then
      match L.store.file? w, s'.file? w with
      | some f, some g =>
        match (call.settles world f c.message d).or (call.retires f g c.message d) with
        | some state => d.settled state
        | none => d
      | _, _ => d
    else d
  | _, _ => d

/-- No delivery of the Work to the Worker of its latest Attempt is in transit:
the part of `_require_pause_safe_tx` about deliveries. -/
def CommandsSettled (w : WorkId) : Prop :=
  ∀ f ∈ L.store.file? w, ∀ a ∈ f.latestAttempt?, ∀ d ∈ L.deliveries, L.About w d →
    d.recipientId = a.workerId → ¬ d.InTransit L.dispatching.now

instance (w : WorkId) : Decidable (L.CommandsSettled w) := by
  unfold CommandsSettled
  infer_instance

/-- A transaction on the lanes: whether an execution is settled is also a
matter of the deliveries. -/
def informed : Transaction → Transaction
  | .call w world c there resumer =>
    .call w { world with
      executionSettled := world.executionSettled && decide (L.CommandsSettled w) } c there resumer
  | t => t

/-- The watchdog for assignments that nobody claims looks at Attempts whose
deliveries are all in the queue. -/
def Enabled : Transaction → Prop
  | .call w _ (.recoverUnstartedWorker _ n) _ _ => ∀ d ∈ L.deliveries,
      (∃ c ∈ L.command? d, c.workId = w ∧ c.message.attemptNumber = n) → d.state = .queued
  | _ => True

instance (t : Transaction) : Decidable (L.Enabled t) := by
  unfold Enabled
  split <;> infer_instance

/-- **A transaction of the control plane**: the store moves, deliveries of the
Work are settled with it, and new commands are queued. -/
def commit (t : Transaction) : Lanes :=
  match (L.informed t).run L.store with
  | .error _ => L
  | .ok (_, s') =>
    let commands := newCommands L.store s'
    { store := s'
      sent := L.sent ++ commands
      dispatching :=
        { L.dispatching with
          deliveries := L.deliveries.map (L.settle (L.informed t) s') ++
            newDeliveries L.dispatching.now s' L.sent.length commands } }

/-! ## The system -/

/-- **The events of the lanes.** -/
inductive Event where
  /-- A transaction of the control plane. -/
  | commit (t : Transaction)
  /-- A step of a dispatcher. -/
  | dispatch (e : Dispatching.Event)
  /-- A delivery is acknowledged, handled or given up in a transaction of its own: by
  its Worker, by `resolve_delivery`, or by one of the sweeps. -/
  | settle (id : MessageId) (state : DeliveryState)
  /-- `resolve_delivery`: a hand-off of unknown outcome did not arrive. -/
  | resolve (id : MessageId)
  /-- `_reactivate_deliveries_tx`: a runtime of the recipient is available again. -/
  | reactivate (recipientId : PrincipalId) (runtimeId : RuntimeId) (admits : Delivery → Bool)

/-- The assignment is current, as `resolve_delivery` asks for it. -/
def AssignmentCurrent (d : Delivery) : Prop :=
  ∀ c ∈ L.command? d, c.message.kind = .assignment →
    ∃ f ∈ L.store.file? c.workId, c.message.payload.generation = some f.work.generation ∧
      f.work.state = .active ∧ f.work.attentionOwner = .worker ∧
      ∃ a ∈ f.latestAttempt?, OnLane a c.message d ∧ a.state ∈ WorkFile.workerOwned

instance (d : Delivery) : Decidable (L.AssignmentCurrent d) := by
  unfold AssignmentCurrent
  infer_instance

/-- The delivery that did not arrive: back in the queue, unless it is an
assignment that is not current any more. -/
def returned (d : Delivery) : Delivery :=
  if L.AssignmentCurrent d then Delivery.requeue L.dispatching.now d else d.settled .dead

/-- The rows that the return of a runtime re-arms. -/
def Reactivates (recipientId : PrincipalId) (admits : Delivery → Bool) (d : Delivery) : Prop :=
  d.recipientId = recipientId ∧ d.state = .dead ∧ d.reactivationPolicy = .retryable ∧
    admits d = true ∧
    ∀ c ∈ L.command? d, c.message.kind = .cancel ∨
      ∀ f ∈ L.store.file? c.workId, ∀ a ∈ f.attempt? c.message.attemptNumber,
        a.workerId ≠ recipientId ∨ a.state.terminal = false

instance (recipientId : PrincipalId) (admits : Delivery → Bool) (d : Delivery) :
    Decidable (L.Reactivates recipientId admits d) := by
  unfold Reactivates
  infer_instance

/-- **One step.** -/
def step : Event → Option Lanes
  | .commit t => if L.Enabled t then some (L.commit t) else none
  | .dispatch e =>
    -- The two retries of an unstarted hand-off are about wakes of a CAO.
    match e with
    | .settle _ (.retryCao _ _) | .settle _ (.retryDesktop _ _) => none
    | e => (Dispatching.step L.dispatching (L.observed e)).map fun d => { L with dispatching := d }
  | .settle id state =>
    if state = .delivered ∨ state = .acknowledged ∨ state = .handled ∨ state = .dead then
      some (L.withDeliveries (Rows.update (fun d => d.messageId = id ∧ d.state.unsettled = true)
        (Delivery.settled state) L.deliveries))
    else none
  | .resolve id =>
    some (L.withDeliveries (Rows.update (fun d => d.messageId = id ∧ d.state = .dispatched)
      L.returned L.deliveries))
  | .reactivate recipientId runtimeId admits =>
    some (L.withDeliveries (Rows.update (fun d => L.Reactivates recipientId admits d)
      (WakeRouting.rearm L.dispatching.now runtimeId) L.deliveries))

/-- Nothing has happened. -/
def Initial : Prop :=
  L.store.files = [] ∧ L.sent = [] ∧ L.deliveries = [] ∧ L.dispatching.jobs = [] ∧
    L.dispatching.handoffs = []

/-- **The system of the lanes.** -/
def system : TransitionSystem Lanes Event := .ofFunction Initial step

end Lanes
