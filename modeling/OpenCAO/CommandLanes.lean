import OpenCAO.Fifo
import OpenCAO.Lanes

/-!
# Worker commands in order

A Worker must not see a command before it is done with the one sent before.
Nothing in the tables says so: a delivery is a row of its own, and the
order is a matter of the predicate `runtime_delivery_lane_head_sql`, which
looks at the earlier deliveries of the lane. The dispatcher asks for it when
it claims a delivery, and the recipient when it acknowledges one or reports
it handled; every other statement about a delivery takes the state as it
finds it.

The runs here are of any number of dispatchers and recipients over one table
of deliveries. Deliveries that are bound to a conversation of the CAO stand
in the same table and follow another predicate; the lanes are those of the
others. A message is numbered when it is stored, and its number is its
identifier.
-/

/-- A delivery somebody is working on. -/
def DeliveryState.held : DeliveryState → Bool
  | leased | dispatched | delivered | acknowledged => true
  | queued | handled | dead => false

theorem DeliveryState.unsettled_of_held {state : DeliveryState} (h : state.held = true) :
    state.unsettled = true := by
  cases state <;> first | rfl | cases h

/-- Nobody works on the row: it waits, or is leased. -/
def DeliveryState.waiting : DeliveryState → Bool
  | queued | leased => true
  | dispatched | delivered | acknowledged | handled | dead => false

/-- How a job leaves a delivery that it held. -/
def DeliveryState.left : DeliveryState → Bool
  | queued | dispatched | delivered | dead => true
  | leased | acknowledged | handled => false

/-- What `resolve_delivery` is told about a hand-off of unknown outcome. -/
inductive DeliveryOutcome where
  | delivered | notDelivered | dead
  deriving DecidableEq, Repr

namespace Delivery

/-- The lane of a delivery: its recipient and the runtime it is pinned to. -/
def lane (d : Delivery) : PrincipalId × Option RuntimeId := (d.recipientId, d.runtimeSessionId)

/-- **The discipline of the commands.** A delivery that is bound to a
conversation is no command: it neither is held nor is waited for. -/
def commands : Discipline Delivery (PrincipalId × Option RuntimeId) where
  lane := lane
  rank := messageId
  Held d := d.recipientAttachmentId = none ∧ d.state.held = true
  Settled d := d.recipientAttachmentId = none → d.state.unsettled = false
  not_settled d hheld hsettled := by
    have hunsettled := DeliveryState.unsettled_of_held hheld.2
    rw [hsettled hheld.1] at hunsettled
    cases hunsettled

/-- The row `_message` inserts for one recipient. -/
def queuedFor (now : Instant) (id : MessageId)
    (recipient : PrincipalId × Option AttachmentId × Option RuntimeId) : Delivery :=
  { messageId := id, recipientId := recipient.1, recipientAttachmentId := recipient.2.1,
    state := .queued, generation := 1, attempts := 0, nextAttemptAt := now,
    runtimeSessionId := recipient.2.2, leaseUntil := none, ownerToken := "", lastError := "",
    reactivationPolicy := .terminal }

/-- A dead row whose recipient has incorporated it otherwise. -/
def incorporated (d : Delivery) : Delivery := { d with state := .handled }

/-- A row a rate limit of the provider took from its dispatcher. -/
def rateLimited (d : Delivery) : Delivery :=
  { d with
    leaseUntil := none, ownerToken := "", attempts := d.attempts + 1,
    lastError := "runtime_provider_rate_limited" }

/-- A queued delivery of a conversation that follows its wake runtime. -/
def reroute (now : Instant) (runtimeId : RuntimeId) (d : Delivery) : Delivery :=
  { d with
    runtimeSessionId := some runtimeId, generation := d.generation + 1, attempts := 0,
    nextAttemptAt := now, leaseUntil := none, ownerToken := "", lastError := "" }

/-- The row after `resolve_delivery`; a hand-off that did not arrive is tried
again unless it is an assignment that is not current any more. -/
def resolved (now : Instant) (assignmentIsCurrent : Bool) : DeliveryOutcome → Delivery → Delivery
  | .delivered => settled .delivered
  | .notDelivered => if assignmentIsCurrent then requeue now else settled .dead
  | .dead => settled .dead

end Delivery

/-- **The state of the command lanes.** -/
structure CommandLanes where
  /-- The deliveries, the clock and the jobs of the dispatchers. -/
  dispatching : Dispatching
  /-- The Work of every message, in the order of their numbers. -/
  messages : List (Option WorkId)
  /-- The Works that are paused. -/
  pausedWorks : List WorkId
  /-- The commands that were dispatched, in the order they first were. -/
  entered : List ((PrincipalId × Option RuntimeId) × ℕ)

namespace CommandLanes

variable (L : CommandLanes)

/-- The rows of `message_deliveries`. -/
def deliveries : List Delivery := L.dispatching.deliveries

/-- The lanes with other deliveries. -/
def withDeliveries (rows : List Delivery) : CommandLanes :=
  { L with dispatching := { L.dispatching with deliveries := rows } }

/-- The row of a message and a recipient. -/
def delivery? (id : MessageId) (recipientId : PrincipalId) : Option Delivery :=
  L.deliveries.find? fun d => d.key = (id, recipientId)

/-- The Work of the message is paused. -/
def Paused (d : Delivery) : Prop := ∃ w ∈ L.pausedWorks, L.messages[d.messageId]? = some (some w)

instance (d : Delivery) : Decidable (L.Paused d) := by
  unfold Paused
  infer_instance

/-- An earlier delivery of the lane that was not settled; one of a paused Work
that nobody holds is passed over. -/
def Precedes (prior d : Delivery) : Prop :=
  prior.recipientId = d.recipientId ∧ prior.messageId < d.messageId ∧
    prior.state.unsettled = true ∧ prior.recipientAttachmentId = none ∧
    ¬ (prior.state = .queued ∧ prior.ownerToken = "" ∧ L.Paused prior) ∧
    prior.runtimeSessionId = d.runtimeSessionId

instance (prior d : Delivery) : Decidable (L.Precedes prior d) := by
  unfold Precedes
  infer_instance

/-- **`runtime_delivery_lane_head_sql`.** -/
def LaneHead (d : Delivery) : Prop :=
  ¬ L.Paused d ∧ ∀ prior ∈ L.deliveries, ¬ L.Precedes prior d

instance (d : Delivery) : Decidable (L.LaneHead d) := by
  unfold LaneHead
  infer_instance

/-- `_require_delivery_head_tx`: nothing is asked of a delivery that is bound
to a conversation. -/
def RequireDeliveryHead (d : Delivery) : Prop := d.recipientAttachmentId = none → L.LaneHead d

instance (d : Delivery) : Decidable (L.RequireDeliveryHead d) := by
  unfold RequireDeliveryHead
  infer_instance

/-! ## What dispatchers and recipients do -/

/-- A claim asks for the head of the lane after it reset the expired leases. A
delivery of a conversation is claimed under a predicate that asks for an
attachment; what the query reads elsewhere is a parameter. -/
def claimQuery (query : Delivery.ClaimQuery) : Delivery.ClaimQuery :=
  let rows := Delivery.resetExpiredLeases L.dispatching.now L.deliveries
  { dispatchable := fun d =>
      decide ((L.withDeliveries rows).RequireDeliveryHead d) && query.dispatchable d
    sequence := id }

/-- An event of the dispatchers on the lanes. -/
def observed : Dispatching.Event → Dispatching.Event
  | .claim owner leaseSeconds query => .claim owner leaseSeconds (L.claimQuery query)
  | e => e

/-- **`_message`**: a new message with a delivery to each recipient. -/
def send (workItemId : Option WorkId)
    (recipients : List (PrincipalId × Option AttachmentId × Option RuntimeId)) : CommandLanes :=
  { L.withDeliveries (L.deliveries ++
      recipients.map (Delivery.queuedFor L.dispatching.now L.messages.length)) with
    messages := L.messages ++ [workItemId] }

/-- The update of one row. -/
def updateRow (d : Delivery) (f : Delivery → Delivery) : CommandLanes :=
  L.withDeliveries (Rows.update (fun r => r.key = d.key) f L.deliveries)

/-- **`acknowledge`**, for one message: what was acknowledged or handled stays,
a dead row is handled when its subject is closed, and anything else has to be
the head of its lane. -/
def acknowledge (id : MessageId) (recipientId : PrincipalId) (closed : Bool) :
    Option CommandLanes :=
  (L.delivery? id recipientId).bind fun d =>
    match d.state with
    | .acknowledged | .handled => some L
    | .dead => if closed then some (L.updateRow d Delivery.incorporated) else none
    | .queued | .leased | .dispatched | .delivered =>
      if L.RequireDeliveryHead d then some (L.updateRow d (Delivery.settled .acknowledged))
      else none

/-- **`mark_message_handled`**: the head of the lane, once it was acknowledged. -/
def markMessageHandled (id : MessageId) (recipientId : PrincipalId) : Option CommandLanes :=
  (L.delivery? id recipientId).bind fun d =>
    if L.RequireDeliveryHead d then
      if d.state = .handled then some L
      else if d.state = .acknowledged then some (L.updateRow d (Delivery.settled .handled))
      else none
    else none

/-- **`resolve_delivery`.** -/
def resolveDelivery (id : MessageId) (recipientId : PrincipalId) (outcome : DeliveryOutcome)
    (assignmentIsCurrent : Bool) : Option CommandLanes :=
  (L.delivery? id recipientId).bind fun d =>
    if d.state = .dispatched then
      some (L.updateRow d (Delivery.resolved L.dispatching.now assignmentIsCurrent outcome))
    else none

/-! ## The system -/

/-- **The events of the command lanes.** -/
inductive Event where
  /-- `_message`. -/
  | send (workItemId : Option WorkId)
      (recipients : List (PrincipalId × Option AttachmentId × Option RuntimeId))
  /-- A step of a dispatcher. -/
  | dispatch (e : Dispatching.Event)
  /-- `acknowledge`. -/
  | acknowledge (id : MessageId) (recipientId : PrincipalId) (closed : Bool)
  /-- `mark_message_handled`. -/
  | handle (id : MessageId) (recipientId : PrincipalId)
  /-- `resolve_delivery`. -/
  | resolve (id : MessageId) (recipientId : PrincipalId) (outcome : DeliveryOutcome)
      (assignmentIsCurrent : Bool)
  /-- Deliveries are settled with what they are about: a report or the end of a turn
  handles them, a cancellation, a recovery or a later message makes them dead. -/
  | settle (selects : Delivery → Bool) (handled : Bool)
  /-- A report incorporates dead deliveries. -/
  | incorporate (selects : Delivery → Bool)
  /-- A rate limit of the provider is noticed on hand-offs of unknown outcome. -/
  | rateLimit (selects : Delivery → Bool)
  /-- The queued deliveries of a conversation follow its wake runtime. -/
  | reroute (attachmentId : AttachmentId) (runtimeId : RuntimeId)
  /-- Dead deliveries of a recipient are re-armed on a runtime. -/
  | rearm (recipientId : PrincipalId) (runtimeId : RuntimeId) (selects : Delivery → Bool)
  /-- A Work is paused. -/
  | pause (id : WorkId)
  /-- A Work is resumed. -/
  | resume (id : WorkId)

/-- The rows a re-arming selects. -/
def rearms (recipientId : PrincipalId) (selects : Delivery → Bool) (d : Delivery) : Bool :=
  d.recipientId = recipientId && d.state = .dead && d.reactivationPolicy = .retryable && selects d

/-- The lanes after an event, before the log is written. -/
def apply : Event → Option CommandLanes
  | .send workItemId recipients =>
    if (recipients.map Prod.fst).Nodup then some (L.send workItemId recipients) else none
  | .dispatch e =>
    (Dispatching.step L.dispatching (L.observed e)).map fun d => { L with dispatching := d }
  | .acknowledge id recipientId closed => L.acknowledge id recipientId closed
  | .handle id recipientId => L.markMessageHandled id recipientId
  | .resolve id recipientId outcome current => L.resolveDelivery id recipientId outcome current
  | .settle selects handled =>
    some (L.withDeliveries (Rows.update (fun d => d.state.unsettled && selects d)
      (Delivery.settled (if handled then .handled else .dead)) L.deliveries))
  | .incorporate selects =>
    some (L.withDeliveries (Rows.update (fun d => d.state = .dead && selects d)
      Delivery.incorporated L.deliveries))
  | .rateLimit selects =>
    some (L.withDeliveries (Rows.update (fun d => d.state = .dispatched && selects d)
      Delivery.rateLimited L.deliveries))
  | .reroute attachmentId runtimeId =>
    some (L.withDeliveries (Rows.update
      (fun d => d.recipientAttachmentId = some attachmentId && d.state = .queued)
      (Delivery.reroute L.dispatching.now runtimeId) L.deliveries))
  | .rearm recipientId runtimeId selects =>
    some (L.withDeliveries (Rows.update (rearms recipientId selects)
      (WakeRouting.rearm L.dispatching.now runtimeId) L.deliveries))
  | .pause id => some { L with pausedWorks := id :: L.pausedWorks }
  | .resume id => some { L with pausedWorks := L.pausedWorks.filter (· ≠ id) }

/-- A command that is dispatched. -/
def dispatchedCommand (d : Delivery) : Bool :=
  d.recipientAttachmentId = none && d.state = .dispatched

/-- The log is written. -/
def recordEntered : CommandLanes :=
  { L with entered := Delivery.commands.record dispatchedCommand L.deliveries L.entered }

/-- **One step.** -/
def step (e : Event) : Option CommandLanes := (L.apply e).map recordEntered

/-- Nothing has happened. -/
def Initial : Prop :=
  L.deliveries = [] ∧ L.dispatching.jobs = [] ∧ L.dispatching.handoffs = [] ∧
    L.messages = [] ∧ L.pausedWorks = [] ∧ L.entered = []

/-- **The system of the command lanes.** -/
def system : TransitionSystem CommandLanes Event := .ofFunction Initial step

/-- The runs in which no Work is paused and no command is re-armed, which is
the one way for a command to change its runtime. -/
def Undisturbed : Event → Prop
  | .pause _ => False
  | .rearm recipientId _ selects => ∀ d ∈ L.deliveries, d.recipientAttachmentId = none →
      rearms recipientId selects d = false
  | _ => True

end CommandLanes

/-! ## What a statement does to a row

A row keeps its key and its conversation. A command also keeps its runtime,
stays settled once it is, and is held only if it was or if its lane is settled
below it. -/

/-- **A row keeps its turn.** -/
structure Delivery.KeepsTurn (rows : List Delivery) (d d' : Delivery) : Prop where
  key : d'.key = d.key
  attachment : d'.recipientAttachmentId = d.recipientAttachmentId
  runtime : d.recipientAttachmentId = none → d'.runtimeSessionId = d.runtimeSessionId
  unsettled : d.recipientAttachmentId = none → d'.state.unsettled = true →
    d.state.unsettled = true
  held : d.recipientAttachmentId = none → d'.state.held = true →
    d.state.held = true ∨ Delivery.commands.Clear rows d.lane d.messageId

namespace Delivery

variable {rows : List Delivery} {d d' : Delivery}

theorem KeepsTurn.refl (d : Delivery) : KeepsTurn rows d d :=
  ⟨rfl, rfl, fun _ => rfl, fun _ => id, fun _ => .inl⟩

/-- Whoever holds a row may do with it what he likes. -/
theorem KeepsTurn.of_held (hkey : d'.key = d.key) (hroute : d'.route = d.route)
    (hheld : d.state.held = true) : KeepsTurn rows d d' where
  key := hkey
  attachment := congrArg Prod.fst hroute
  runtime _ := congrArg Prod.snd hroute
  unsettled _ _ := DeliveryState.unsettled_of_held hheld
  held _ _ := .inl hheld

/-- A row may be settled. -/
theorem KeepsTurn.of_settled (hkey : d'.key = d.key) (hroute : d'.route = d.route)
    (h : d'.state.unsettled = false) : KeepsTurn rows d d' where
  key := hkey
  attachment := congrArg Prod.fst hroute
  runtime _ := congrArg Prod.snd hroute
  unsettled _ hunsettled := by
    rw [h] at hunsettled
    cases hunsettled
  held _ hheld := by
    rw [DeliveryState.unsettled_of_held hheld] at h
    cases h

/-- A row that waits may be taken when its lane is settled below it. -/
theorem KeepsTurn.of_clear (hkey : d'.key = d.key) (hroute : d'.route = d.route)
    (hunsettled : d.state.unsettled = true)
    (hclear : d.recipientAttachmentId = none → commands.Clear rows d.lane d.messageId) :
    KeepsTurn rows d d' where
  key := hkey
  attachment := congrArg Prod.fst hroute
  runtime _ := congrArg Prod.snd hroute
  unsettled _ _ := hunsettled
  held hattachment _ := .inr (hclear hattachment)

/-- Nothing is asked of a row that is bound to a conversation. -/
theorem KeepsTurn.of_bound (hkey : d'.key = d.key)
    (hattachment : d'.recipientAttachmentId = d.recipientAttachmentId)
    (hbound : d.recipientAttachmentId ≠ none) : KeepsTurn rows d d' where
  key := hkey
  attachment := hattachment
  runtime h := absurd h hbound
  unsettled h := absurd h hbound
  held h := absurd h hbound

/-- **A row that keeps its turn moves on in its lane.** -/
theorem KeepsTurn.moves (h : KeepsTurn rows d d') : commands.Moves rows d d' where
  place hnot := by
    have hattachment : d.recipientAttachmentId = none := by
      by_contra hbound
      exact hnot fun hnone => absurd (h.attachment.symm.trans hnone) hbound
    have hrecipient : d'.recipientId = d.recipientId := congrArg Prod.snd h.key
    have hid : d'.messageId = d.messageId := congrArg Prod.fst h.key
    show (d'.lane, d'.messageId) = (d.lane, d.messageId)
    unfold Delivery.lane
    rw [hrecipient, hid, h.runtime hattachment]
  settled hsettled hattachment := by
    have hwas : d.recipientAttachmentId = none := h.attachment.symm.trans hattachment
    by_contra hunsettled
    have := h.unsettled hwas (Bool.not_eq_false _ ▸ hunsettled)
    rw [hsettled hwas] at this
    cases this
  held hheld := by
    have hwas : d.recipientAttachmentId = none := h.attachment.symm.trans hheld.1
    rcases h.held hwas hheld.2 with hstate | hclear
    · exact .inl ⟨hwas, hstate⟩
    · exact .inr hclear

theorem keepsTurn_rows (rows : List Delivery) : List.Forall₂ (KeepsTurn rows) rows rows :=
  List.forall₂_same.mpr fun d _ => .refl d

theorem keepsTurn_update {p : Delivery → Bool} {f : Delivery → Delivery}
    (h : ∀ d ∈ rows, p d = true → KeepsTurn rows d (f d)) :
    List.Forall₂ (KeepsTurn rows) rows (Rows.update p f rows) :=
  Rows.evolve_update_of_mem .refl h

/-- **What a job does to a row**: nothing, or it held the row, which stays on its
route and is left as a job leaves it. -/
structure Worked (d d' : Delivery) : Prop where
  key : d'.key = d.key
  route : d'.route = d.route
  work : d' = d ∨ ((d.state = .leased ∨ d.state = .dispatched) ∧ d'.state.left = true)

theorem Worked.refl (d : Delivery) : Worked d d := ⟨rfl, rfl, .inl rfl⟩

/-- The reactivation policy stays or is terminal, except for a row that dies. -/
def KeepsPolicy (d d' : Delivery) : Prop :=
  d'.reactivationPolicy = d.reactivationPolicy ∨ d'.reactivationPolicy = .terminal ∨
    d'.state = .dead

/-- **What a job does to a row, and to its reactivation policy.** -/
structure Tried (d d' : Delivery) : Prop where
  worked : Worked d d'
  policy : KeepsPolicy d d'

theorem Tried.refl (d : Delivery) : Tried d d := ⟨.refl d, .inl rfl⟩

theorem tried_rows (rows : List Delivery) : List.Forall₂ Tried rows rows :=
  List.forall₂_same.mpr fun d _ => .refl d

/-- An update under the fence of a state that a job holds a row in. -/
theorem tried_fenced {captured : Delivery} {owner : String} {expected : DeliveryState}
    {p : Delivery → Bool} {f : Delivery → Delivery}
    (hp : ∀ d, p d = true → fenced captured owner expected d = true)
    (hexpected : expected = .leased ∨ expected = .dispatched) (hkey : ∀ d, (f d).key = d.key)
    (hroute : ∀ d, (f d).route = d.route)
    (hstate : ∀ d, d.state = expected → (f d).state.left = true)
    (hpolicy : ∀ d, KeepsPolicy d (f d)) :
    List.Forall₂ Tried rows (Rows.update p f rows) := by
  refine Rows.evolve_update Tried.refl (fun d hd => ?_) rows
  obtain ⟨-, -, hexp, -⟩ := fenced_iff.mp (hp d hd)
  refine ⟨⟨hkey d, hroute d, .inr ⟨?_, hstate d hexp⟩⟩, hpolicy d⟩
  rw [hexp]
  exact hexpected

/-- **What a claim does to a row**: nothing, or the row waits before and after, and keeps
its policy. -/
def Reclaimed (d d' : Delivery) : Prop :=
  d' = d ∨ (d'.key = d.key ∧ d.state.waiting = true ∧ d'.state.waiting = true ∧
    d'.reactivationPolicy = d.reactivationPolicy)

theorem Reclaimed.trans {d'' : Delivery} (h : Reclaimed d d') (h' : Reclaimed d' d'') :
    Reclaimed d d'' := by
  rcases h with rfl | ⟨hkey, hold, hmid, hpolicy⟩
  · exact h'
  · rcases h' with rfl | ⟨hkey', -, hnew, hpolicy'⟩
    · exact .inr ⟨hkey, hold, hmid, hpolicy⟩
    · exact .inr ⟨hkey'.trans hkey, hold, hnew, hpolicy'.trans hpolicy⟩

/-- A claim first returns the expired leases, then leases one row. -/
theorem reclaimed_of_claim (now : Instant) (leaseSeconds : ℕ) (owner : String)
    (query : ClaimQuery) (hkeys : (rows.map key).Nodup) :
    List.Forall₂ Reclaimed rows (claimDelivery now leaseSeconds owner query rows).1 := by
  have hreset : List.Forall₂ Reclaimed rows (resetExpiredLeases now rows) := by
    refine Rows.evolve_update (fun d => .inl rfl) (fun d hd => .inr ⟨rfl, ?_, rfl, rfl⟩) _
    rw [Bool.and_eq_true, decide_eq_true_eq] at hd
    rw [hd.1]
    rfl
  rcases claimDelivery_cases now leaseSeconds owner query hkeys with hc | ⟨row, -, -, -, hc⟩
  · rw [hc]
    exact hreset
  · rw [hc]
    have hlease : List.Forall₂ Reclaimed (resetExpiredLeases now rows)
        (Rows.update (stillQueued row) (lease (now + leaseSeconds) owner)
          (resetExpiredLeases now rows)) := by
      refine Rows.evolve_update (fun d => .inl rfl) (fun d hd => .inr ⟨rfl, ?_, rfl, rfl⟩) _
      simp only [stillQueued, Bool.and_eq_true, decide_eq_true_eq] at hd
      rw [hd.2]
      rfl
    exact Rows.evolve_trans (R := Reclaimed) (fun _ _ _ h h' => h.trans h') hreset hlease

end Delivery

namespace Dispatching

open Delivery

theorem tried_of_preLaunch (now : Instant) (j : Job) (rows : List Delivery)
    (op : PreLaunch) : List.Forall₂ Tried rows (op.run now j rows) := by
  cases op with
  | park wakeReady =>
    simp only [PreLaunch.run, parkCaoCatalogDelivery]
    split
    · exact tried_rows rows
    · split
      · exact tried_rows rows
      · exact tried_fenced (fun d hd => (Bool.and_eq_true_iff.mp hd).1) (.inl rfl) (fun _ => rfl)
          (fun _ => rfl) (fun _ _ => rfl) fun _ => .inl rfl
  | finish maxAttempts errorCode dead =>
    refine tried_fenced (fun _ => id) (.inl rfl) (fun _ => rfl) (fun _ => rfl) (fun d _ => ?_)
      fun d => .inr ?_
    · show (if _ then DeliveryState.dead else .queued).left = true
      split <;> rfl
    · -- Only a row that dies may be re-armed.
      show (if _ then DeliveryReactivationPolicy.retryable else .terminal) = .terminal ∨
        (if _ then DeliveryState.dead else .queued) = .dead
      split
      next hboth => exact .inr (if_pos (Bool.and_eq_true_iff.mp hboth).1)
      next => exact .inl rfl
  | deferRateLimited t | deferTicketPending t =>
    exact tried_fenced (fun _ => id) (.inl rfl) (fun _ => rfl) (fun _ => rfl) (fun _ _ => rfl)
      fun _ => .inl rfl
  | block code =>
    exact tried_fenced (fun _ => id) (.inl rfl) (fun _ => rfl) (fun _ => rfl) (fun _ _ => rfl)
      fun _ => .inr (.inl rfl)

theorem tried_of_settlement (now : Instant) (j : Job) (rows : List Delivery)
    (op : Settlement) : List.Forall₂ Tried rows (op.run now j rows) := by
  have hretry : ∀ (lastError : String), List.Forall₂ Tried rows
      (retryUnstarted now lastError j.delivery j.owner rows) := fun _ =>
    tried_fenced (fun _ => id) (.inr rfl) (fun _ => rfl) (fun _ => rfl) (fun _ _ => rfl)
      fun _ => .inl rfl
  cases op with
  | confirm authority =>
    simp only [Settlement.run]
    split
    · exact tried_fenced (fun _ => id) (.inr rfl) (fun _ => rfl) (fun _ => rfl)
        (fun _ _ => rfl) fun _ => .inl rfl
    · exact tried_rows rows
  | block code | notSubmitted =>
    exact tried_fenced (fun _ => id) (.inr rfl) (fun _ => rfl) (fun _ => rfl) (fun _ _ => rfl)
      fun _ => .inr (.inl rfl)
  | retryCao ticketUnconsumed errorCode =>
    simp only [Settlement.run, retryUnstartedCaoDelivery]
    split
    · exact hretry errorCode
    · exact tried_rows rows
  | retryDesktop runtimeId attachmentLive =>
    simp only [Settlement.run, retryUnstartedDesktopCaoDelivery]
    split
    · exact hretry _
    · exact tried_rows rows
  | unknown errorCode =>
    -- The row stays dispatched.
    refine tried_fenced (fun _ => id) (.inr rfl) (fun _ => rfl) (fun _ => rfl) (fun d hd => ?_)
      fun _ => .inl rfl
    show d.state.left = true
    rw [hd]
    rfl

/-- What the events that are no claim do to a row. -/
theorem tried_of_step {s s' : Dispatching} (hkeys : (s.deliveries.map Delivery.key).Nodup)
    {e : Event} (hclaim : ∀ owner leaseSeconds q, e ≠ .claim owner leaseSeconds q)
    (h : Dispatching.step s e = some s') : List.Forall₂ Tried s.deliveries s'.deliveries := by
  cases e with
  | tick | crash =>
    obtain rfl := Option.some.inj h
    exact tried_rows _
  | claim owner leaseSeconds q => exact absurd rfl (hclaim owner leaseSeconds q)
  | preLaunch j op =>
    obtain ⟨-, rfl⟩ := TransitionSystem.of_guarded h
    exact tried_of_preLaunch s.now j s.deliveries op
  | reserve j answers =>
    obtain ⟨-, rfl⟩ := TransitionSystem.of_guarded h
    rcases reserveDelivery_cases answers j.delivery j.owner hkeys with hc | ⟨-, hc⟩
    · simp only [hc]
      exact tried_of_preLaunch s.now j s.deliveries (.park answers.wakeReady)
    · simp only [hc]
      exact tried_fenced (fun _ => id) (.inl rfl) (fun _ => rfl) (fun _ => rfl)
        (fun _ _ => rfl) fun _ => .inl rfl
  | settle j op =>
    obtain ⟨-, rfl⟩ := TransitionSystem.of_guarded h
    exact tried_of_settlement s.now j s.deliveries op
  | enter | skip | leave =>
    obtain ⟨-, rfl⟩ := TransitionSystem.of_guarded h
    exact tried_rows _

/-- **Only a claim takes a row into the hands of somebody.** -/
theorem worked_of_step {s s' : Dispatching} (hkeys : (s.deliveries.map Delivery.key).Nodup)
    {e : Event} (hclaim : ∀ owner leaseSeconds q, e ≠ .claim owner leaseSeconds q)
    (h : Dispatching.step s e = some s') : List.Forall₂ Worked s.deliveries s'.deliveries :=
  (tried_of_step hkeys hclaim h).imp fun _ _ => Tried.worked

/-- A row a job worked on keeps its turn. -/
theorem keepsTurn_of_worked {rows : List Delivery} {d d' : Delivery} (h : Worked d d') :
    KeepsTurn rows d d' := by
  rcases h.work with rfl | ⟨hstate, -⟩
  · exact .refl _
  · refine .of_held h.key h.route ?_
    rcases hstate with hstate | hstate <;> rw [hstate] <;> rfl

end Dispatching

namespace CommandLanes

open Delivery

variable {L L' : CommandLanes}

/-! ## The invariant -/

/-- **The invariant of the command lanes.** -/
structure Inv (L : CommandLanes) : Prop where
  /-- The primary key of the table. -/
  keys : (L.deliveries.map Delivery.key).Nodup
  /-- Every delivery is about a message that was stored. -/
  numbered : ∀ d ∈ L.deliveries, d.messageId < L.messages.length
  /-- No Work is paused. -/
  running : L.pausedWorks = []
  /-- The lanes are worked off in order. -/
  orderly : commands.Orderly L.deliveries
  /-- Below a command that was dispatched its lane is settled. -/
  logged : commands.Logged L.deliveries L.entered
  /-- The log is about messages that were stored. -/
  entered_lt : ∀ e ∈ L.entered, e.2 < L.messages.length
  /-- Each lane was dispatched in order. -/
  increasing : Discipline.Increasing L.entered

theorem Inv.of_initial (h : L.Initial) : Inv L where
  keys := by simp [h.1]
  numbered := by simp [h.1]
  running := h.2.2.2.2.1
  orderly := by simp [h.1, Discipline.Orderly]
  logged := by simp [h.2.2.2.2.2, Discipline.Logged]
  entered_lt := by simp [h.2.2.2.2.2]
  increasing := by simp [h.2.2.2.2.2, Discipline.Increasing]

/-- **Rows that keep their turn keep the invariant.** -/
theorem Inv.keepsTurn (hL : Inv L)
    (h : List.Forall₂ (KeepsTurn L.deliveries) L.deliveries L'.deliveries)
    (hmessages : L'.messages = L.messages) (hrunning : L'.pausedWorks = [])
    (hentered : L'.entered = L.entered) : Inv L' where
  keys := by
    have : L'.deliveries.map Delivery.key = L.deliveries.map Delivery.key :=
      Rows.map_eq_of_evolve (fun _ _ hd => hd.key.symm) h
    rw [this]
    exact hL.keys
  numbered d' hd' := by
    obtain ⟨d, hd, hkept⟩ := Rows.exists_left h hd'
    have hid : d'.messageId = d.messageId := congrArg Prod.fst hkept.key
    rw [hid, hmessages]
    exact hL.numbered d hd
  running := hrunning
  orderly := hL.orderly.evolve (h.imp fun _ _ => KeepsTurn.moves)
  logged := by
    rw [hentered]
    exact hL.logged.evolve (h.imp fun _ _ => KeepsTurn.moves)
  entered_lt := by
    rw [hentered, hmessages]
    exact hL.entered_lt
  increasing := by
    rw [hentered]
    exact hL.increasing

/-- An update of rows, each of which keeps its turn. -/
theorem Inv.update (hL : Inv L) {p : Delivery → Bool} {f : Delivery → Delivery}
    (h : ∀ d ∈ L.deliveries, p d = true → KeepsTurn L.deliveries d (f d)) :
    Inv (L.withDeliveries (Rows.update p f L.deliveries)) :=
  hL.keepsTurn (keepsTurn_update h) rfl hL.running rfl

/-- **The head of a lane finds the lane settled below it.** -/
theorem Inv.clear_of_laneHead (hL : Inv L) {d : Delivery} (h : L.LaneHead d) :
    commands.Clear L.deliveries d.lane d.messageId := by
  intro prior hprior hlane hlt hattachment
  by_contra hunsettled
  refine h.2 prior hprior ⟨congrArg Prod.fst hlane, hlt, Bool.not_eq_false _ ▸ hunsettled,
    hattachment, ?_, congrArg Prod.snd hlane⟩
  rintro ⟨-, -, w, hw, -⟩
  rw [hL.running] at hw
  cases hw

/-- A row found by its key. -/
theorem Inv.update_row (hL : Inv L) {id : MessageId} {recipientId : PrincipalId} {d : Delivery}
    (hd : d ∈ L.delivery? id recipientId) {f : Delivery → Delivery}
    (h : KeepsTurn L.deliveries d (f d)) : Inv (L.updateRow d f) := by
  refine hL.update fun r hr hkey => ?_
  have hmem : d ∈ L.deliveries := List.mem_of_find?_eq_some hd
  obtain rfl : r = d := Rows.eq_of_key hL.keys hr hmem (of_decide_eq_true hkey)
  exact h

/-! ### The operations -/

theorem Inv.acknowledge (hL : Inv L) {id : MessageId} {recipientId : PrincipalId} {closed : Bool}
    (h : L.acknowledge id recipientId closed = some L') : Inv L' := by
  obtain ⟨d, hd, h⟩ := Option.bind_eq_some_iff.mp h
  have hhead : L.RequireDeliveryHead d → KeepsTurn L.deliveries d (d.settled .acknowledged) ∨
      d.state.unsettled = false := by
    intro hhead
    by_cases hunsettled : d.state.unsettled = true
    · exact .inl (.of_clear rfl rfl hunsettled fun hattachment =>
        hL.clear_of_laneHead (hhead hattachment))
    · exact .inr (Bool.not_eq_true _ ▸ hunsettled)
  split at h
  · obtain rfl := Option.some.inj h
    exact hL
  · obtain rfl := Option.some.inj h
    exact hL
  · obtain ⟨-, rfl⟩ := TransitionSystem.of_guarded h
    exact hL.update_row hd (.of_settled rfl rfl rfl)
  all_goals
    obtain ⟨hrequired, rfl⟩ := TransitionSystem.of_guarded h
    rcases hhead hrequired with hkeeps | hsettled
    · exact hL.update_row hd hkeeps
    · simp_all [DeliveryState.unsettled]

theorem Inv.markMessageHandled (hL : Inv L) {id : MessageId} {recipientId : PrincipalId}
    (h : L.markMessageHandled id recipientId = some L') : Inv L' := by
  obtain ⟨d, hd, h⟩ := Option.bind_eq_some_iff.mp h
  split at h
  · split at h
    · obtain rfl := Option.some.inj h
      exact hL
    · obtain ⟨-, rfl⟩ := TransitionSystem.of_guarded h
      exact hL.update_row hd (.of_settled rfl rfl rfl)
  · cases h

theorem Inv.resolveDelivery (hL : Inv L) {id : MessageId} {recipientId : PrincipalId}
    {outcome : DeliveryOutcome} {current : Bool}
    (h : L.resolveDelivery id recipientId outcome current = some L') : Inv L' := by
  obtain ⟨d, hd, h⟩ := Option.bind_eq_some_iff.mp h
  obtain ⟨hstate, rfl⟩ := TransitionSystem.of_guarded h
  refine hL.update_row hd ?_
  have hheld : d.state.held = true := by
    rw [hstate]
    rfl
  cases outcome with
  | delivered | dead => exact .of_held rfl rfl hheld
  | notDelivered =>
    unfold resolved
    split <;> exact .of_held rfl rfl hheld

/-- The deliveries of a new message. -/
theorem of_mem_queuedFor {now : Instant} {id : MessageId} {d : Delivery}
    {recipients : List (PrincipalId × Option AttachmentId × Option RuntimeId)}
    (hd : d ∈ recipients.map (queuedFor now id)) : d.messageId = id ∧ d.state = .queued := by
  obtain ⟨r, -, rfl⟩ := List.mem_map.mp hd
  exact ⟨rfl, rfl⟩

/-- **The number of a new message is new**: its deliveries have their primary key. -/
theorem keys_send (hkeys : (L.deliveries.map Delivery.key).Nodup)
    (hnumbered : ∀ d ∈ L.deliveries, d.messageId < L.messages.length) (workItemId : Option WorkId)
    {recipients : List (PrincipalId × Option AttachmentId × Option RuntimeId)}
    (hdistinct : (recipients.map Prod.fst).Nodup) :
    ((L.send workItemId recipients).deliveries.map Delivery.key).Nodup := by
  show ((L.deliveries ++ recipients.map _).map Delivery.key).Nodup
  rw [List.map_append, List.nodup_append]
  refine ⟨hkeys, ?_, ?_⟩
  · refine List.Nodup.of_map Prod.snd ?_
    rw [List.map_map, List.map_map]
    exact hdistinct
  · rintro k hk _ hk' rfl
    obtain ⟨d, hd, rfl⟩ := List.mem_map.mp hk
    obtain ⟨d', hd', heq⟩ := List.mem_map.mp hk'
    have hid : d'.messageId = d.messageId := congrArg Prod.fst heq
    rw [(of_mem_queuedFor hd').1] at hid
    exact absurd (hnumbered d hd) (by rw [hid]; exact lt_irrefl _)

theorem numbered_send (hnumbered : ∀ d ∈ L.deliveries, d.messageId < L.messages.length)
    (workItemId : Option WorkId)
    (recipients : List (PrincipalId × Option AttachmentId × Option RuntimeId)) :
    ∀ d ∈ (L.send workItemId recipients).deliveries,
      d.messageId < (L.send workItemId recipients).messages.length := by
  intro d hd
  rw [show (L.send workItemId recipients).messages.length = L.messages.length + 1 by
    simp [CommandLanes.send]]
  rcases List.mem_append.mp hd with hold | hin
  · exact Nat.lt_succ_of_lt (hnumbered d hold)
  · rw [(of_mem_queuedFor hin).1]
    exact Nat.lt_succ_self _

/-- **A new message goes to the end of its lanes.** -/
theorem Inv.send (hL : Inv L) (workItemId : Option WorkId)
    {recipients : List (PrincipalId × Option AttachmentId × Option RuntimeId)}
    (hdistinct : (recipients.map Prod.fst).Nodup) : Inv (L.send workItemId recipients) := by
  refine ⟨keys_send hL.keys hL.numbered workItemId hdistinct,
    numbered_send hL.numbered workItemId recipients, hL.running, ?_, ?_, ?_, hL.increasing⟩
  · refine hL.orderly.append (fun d hd hheld => ?_) fun d hd d' hd' => ?_
    · have hstate := hheld.2
      rw [(of_mem_queuedFor hd).2] at hstate
      cases hstate
    · show d.messageId ≤ d'.messageId
      rw [(of_mem_queuedFor hd').1]
      exact (hL.numbered d hd).le
  · refine hL.logged.append fun e he d hd => ?_
    show e.2 ≤ d.messageId
    rw [(of_mem_queuedFor hd).1]
    exact (hL.entered_lt e he).le
  · intro e he
    rw [show (L.send workItemId recipients).messages.length = L.messages.length + 1 by
      simp [CommandLanes.send]]
    exact Nat.lt_succ_of_lt (hL.entered_lt e he)

/-- **A claim takes the head of a lane**, in two stages: the expired leases are
reset, and then the head is looked for. -/
theorem Inv.claim (hL : Inv L) (owner : String) (leaseSeconds : ℕ) (query : ClaimQuery)
    {s : Dispatching}
    (h : Dispatching.step L.dispatching (L.observed (.claim owner leaseSeconds query)) = some s) :
    Inv { L with dispatching := s } := by
  obtain rfl := Option.some.inj h
  have hreset : Inv (L.withDeliveries (resetExpiredLeases L.dispatching.now L.deliveries)) := by
    refine hL.update fun d _ hd => .of_held rfl rfl ?_
    simp only [Bool.and_eq_true, decide_eq_true_eq] at hd
    rw [hd.1]
    rfl
  rcases claimDelivery_cases L.dispatching.now leaseSeconds owner (L.claimQuery query) hL.keys with
    hc | ⟨row, hrow, hqueued, hq, hc⟩
  · refine hreset.keepsTurn ?_ rfl hL.running rfl
    show List.Forall₂ _ _ (claimDelivery _ _ _ _ L.deliveries).1
    rw [hc]
    exact keepsTurn_rows _
  · have hhead : (L.withDeliveries (resetExpiredLeases L.dispatching.now
        L.deliveries)).RequireDeliveryHead row := of_decide_eq_true (Bool.and_eq_true_iff.mp hq).1
    refine hreset.keepsTurn ?_ rfl hL.running rfl
    show List.Forall₂ _ _ (claimDelivery _ _ _ _ L.deliveries).1
    rw [hc]
    refine keepsTurn_update fun d hd hp => ?_
    simp only [stillQueued, Bool.and_eq_true, decide_eq_true_eq] at hp
    obtain rfl : d = row := Rows.eq_of_key hreset.keys hd hrow hp.1.1
    refine .of_clear rfl rfl ?_ fun hattachment => hreset.clear_of_laneHead (hhead hattachment)
    rw [hqueued]
    rfl

theorem Inv.dispatch (hL : Inv L) (e : Dispatching.Event) {s : Dispatching}
    (h : Dispatching.step L.dispatching (L.observed e) = some s) :
    Inv { L with dispatching := s } := by
  by_cases hclaim : ∃ owner leaseSeconds query, e = .claim owner leaseSeconds query
  · obtain ⟨owner, leaseSeconds, query, rfl⟩ := hclaim
    exact hL.claim owner leaseSeconds query h
  · push Not at hclaim
    have hsame : L.observed e = e := by
      cases e with
      | claim owner leaseSeconds query => exact absurd rfl (hclaim owner leaseSeconds query)
      | _ => rfl
    rw [hsame] at h
    exact hL.keepsTurn ((Dispatching.worked_of_step hL.keys hclaim h).imp fun _ _ =>
      Dispatching.keepsTurn_of_worked) rfl hL.running rfl

/-- **Every event keeps the invariant** in an undisturbed run. -/
theorem Inv.apply (hL : Inv L) (e : Event) (hundisturbed : L.Undisturbed e)
    (h : L.apply e = some L') : Inv L' := by
  cases e with
  | send workItemId recipients =>
    obtain ⟨hdistinct, rfl⟩ := TransitionSystem.of_guarded h
    exact hL.send workItemId hdistinct
  | dispatch e =>
    obtain ⟨s, hs, rfl⟩ := Option.map_eq_some_iff.mp h
    exact hL.dispatch e hs
  | acknowledge id recipientId closed => exact hL.acknowledge h
  | handle id recipientId => exact hL.markMessageHandled h
  | resolve id recipientId outcome current => exact hL.resolveDelivery h
  | settle selects handled =>
    obtain rfl := Option.some.inj h
    refine hL.update fun d _ _ => .of_settled rfl rfl ?_
    cases handled <;> rfl
  | incorporate selects =>
    obtain rfl := Option.some.inj h
    exact hL.update fun d _ _ => .of_settled rfl rfl rfl
  | rateLimit selects =>
    obtain rfl := Option.some.inj h
    refine hL.update fun d _ hd => .of_held rfl rfl ?_
    simp only [Bool.and_eq_true, decide_eq_true_eq] at hd
    rw [hd.1]
    rfl
  | reroute attachmentId runtimeId =>
    obtain rfl := Option.some.inj h
    refine hL.update fun d _ hd => .of_bound rfl rfl ?_
    simp only [Bool.and_eq_true, decide_eq_true_eq] at hd
    rw [hd.1]
    exact Option.some_ne_none _
  | rearm recipientId runtimeId selects =>
    obtain rfl := Option.some.inj h
    refine hL.update fun d hmem hd => .of_bound rfl rfl fun hattachment => ?_
    rw [hundisturbed d hmem hattachment] at hd
    cases hd
  | pause id => cases hundisturbed
  | resume id =>
    obtain rfl := Option.some.inj h
    refine hL.keepsTurn (keepsTurn_rows _) rfl ?_ rfl
    show L.pausedWorks.filter _ = []
    rw [hL.running]
    rfl

/-- **Writing the log keeps the invariant.** -/
theorem Inv.recordEntered (hL : Inv L) : Inv L.recordEntered := by
  have hstage : ∀ d, dispatchedCommand d = true → commands.Held d := by
    intro d hd
    simp only [dispatchedCommand, Bool.and_eq_true, decide_eq_true_eq] at hd
    refine ⟨hd.1, ?_⟩
    rw [hd.2]
    rfl
  have hplaces : (L.deliveries.map commands.place).Nodup := by
    refine List.Nodup.of_map (fun e => (e.2, e.1.1)) ?_
    rw [List.map_map]
    exact hL.keys
  exact
    { keys := hL.keys
      numbered := hL.numbered
      running := hL.running
      orderly := hL.orderly
      logged := hL.logged.record hL.orderly hstage
      entered_lt := by
        intro e he
        rcases Discipline.mem_record.mp he with hold | ⟨d, hd, -, -, rfl⟩
        · exact hL.entered_lt e hold
        · exact hL.numbered d hd
      increasing := hL.increasing.record hL.logged hL.orderly hplaces hstage }

theorem inv_of_reachable (hL : (system.restrict Undisturbed).Reachable L) : Inv L := by
  refine TransitionSystem.Reachable.invariant (T := system.restrict Undisturbed) (I := Inv)
    (fun _ h => .of_initial h) (fun s e s' _ hs h => ?_) hL
  obtain ⟨t, ht, rfl⟩ := Option.map_eq_some_iff.mp h.2
  exact (hs.apply e h.1 ht).recordEntered

/-- Whatever is dispatched stands in the log. -/
theorem entered_of_dispatched (hL : system.Reachable L) :
    ∀ d ∈ L.deliveries, dispatchedCommand d = true → (d.lane, d.messageId) ∈ L.entered := by
  refine TransitionSystem.Reachable.invariant (T := system) (I := fun L => ∀ d ∈ L.deliveries,
    dispatchedCommand d = true → (d.lane, d.messageId) ∈ L.entered)
    (fun s h d hd => ?_) (fun s e s' _ _ h d hd hstage => ?_) hL
  · rw [h.1] at hd
    cases hd
  · obtain ⟨t, -, rfl⟩ := Option.map_eq_some_iff.mp h
    refine Discipline.mem_record.mpr ?_
    by_cases hin : commands.place d ∈ t.entered
    · exact .inl hin
    · exact .inr ⟨d, hd, hstage, hin, rfl⟩

/-- **The commands of a Worker are worked off in order, one at a time.** In
every run without pauses, re-arming and changes of runtime, each lane has at
most one command that is leased, dispatched, delivered or acknowledged;
when it has one, every earlier command of the lane is handled or dead; and
the commands of a lane first entered `dispatched` in the order of their
numbers. -/
theorem commands_in_order (hL : (system.restrict Undisturbed).Reachable L) :
    (∀ d ∈ L.deliveries, ∀ d' ∈ L.deliveries, d.recipientAttachmentId = none →
        d'.recipientAttachmentId = none → d.state.held = true → d'.state.held = true →
        d.lane = d'.lane → d = d') ∧
      (∀ d ∈ L.deliveries, d.recipientAttachmentId = none → d.state.held = true →
        ∀ prior ∈ L.deliveries, prior.recipientAttachmentId = none → prior.lane = d.lane →
          prior.messageId < d.messageId → prior.state = .handled ∨ prior.state = .dead) ∧
      Discipline.Increasing L.entered := by
  have hinv := inv_of_reachable hL
  refine ⟨fun d hd d' hd' hcommand hcommand' hheld hheld' hlane => ?_,
    fun d hd hcommand hheld prior hprior hcommand' hlane hlt => ?_, hinv.increasing⟩
  · have hrank : d.messageId = d'.messageId :=
      hinv.orderly.rank_eq hd hd' ⟨hcommand, hheld⟩ ⟨hcommand', hheld'⟩ hlane
    exact Rows.eq_of_key hinv.keys hd hd' (Prod.ext hrank (congrArg Prod.fst hlane))
  · have hsettled := hinv.orderly d hd ⟨hcommand, hheld⟩ prior hprior hlane hlt hcommand'
    revert hsettled
    cases prior.state <;> simp [DeliveryState.unsettled]

/-- Two commands to one Worker, the first of which is claimed and reserved. -/
def twoCommands : List Event :=
  let first : Delivery := Delivery.queuedFor 100 0 (7, none, some 3)
  [.send none [(7, none, some 3)], .send none [(7, none, some 3)],
    .dispatch (.claim "a" 60 ⟨fun _ => true, id⟩),
    .dispatch (.reserve
      ⟨"a", { first with state := .leased, leaseUntil := some 160, ownerToken := "a" }, .claimed⟩
      ⟨fun _ => true, true, true, false⟩)]

/-- The first of two commands is dispatched, and the second waits. -/
theorem commands_in_order_two : ∃ L, (system.restrict Undisturbed).Reachable L ∧
    L.entered = [((7, some 3), 0)] ∧ L.deliveries.map Delivery.state = [.dispatched, .queued] ∧
    Discipline.Increasing L.entered := by
  have hopening : (system.restrict Undisturbed).Reachable ⟨⟨100, [], [], []⟩, [], [], []⟩ :=
    .of_init ⟨rfl, rfl, rfl, rfl, rfl, rfl⟩
  have hrun := hopening.replay_restrict twoCommands
    (fun e he s => by
      simp only [twoCommands, List.mem_cons, List.not_mem_nil, or_false] at he
      rcases he with rfl | rfl | rfl | rfl <;> trivial) rfl
  exact ⟨_, hrun, rfl, rfl, (commands_in_order hrun).2.2⟩

end CommandLanes
