import Mathlib.Data.Prod.Lex
import Mathlib.Algebra.Group.Nat.Defs
import OpenCAO.Models
import OpenCAO.Rows

/-!
# Deliveries and the statements of the dispatcher

A row of `message_deliveries` is one message on its way to one
recipient. It carries a *generation*, which counts how often the row was
put back into the queue, and the token of the dispatcher that holds it.

A dispatcher works on a **captured** row: the copy it read when it
claimed the delivery. Every statement it later issues is conditioned on
the row still being the captured one – same message and recipient, same
generation, a given state, and the dispatcher's own token. That
condition is `fenced`, and each statement of `runtime.py` is an update
under it; they differ in the state they expect and in what they write.
The one statement that is not fenced is the bulk reset of expired
leases with which `claimDelivery` begins.
-/

/-- **A row of `message_deliveries`.** -/
structure Delivery where
  /-- The message. -/
  messageId : MessageId
  /-- Its recipient. -/
  recipientId : PrincipalId
  /-- The conversation the delivery is bound to, for a CAO recipient. -/
  recipientAttachmentId : Option AttachmentId
  /-- Where the delivery stands. -/
  state : DeliveryState
  /-- How often the row was put back into the queue, counted from one. -/
  generation : ℕ
  /-- Dispatch attempts spent. -/
  attempts : ℕ
  /-- The delivery is not claimed before this instant. -/
  nextAttemptAt : Instant
  /-- The runtime the delivery is pinned to. -/
  runtimeSessionId : Option RuntimeId
  /-- When the lease of the holder ends. -/
  leaseUntil : Option Instant
  /-- The token of the dispatcher that holds the row, empty for none. -/
  ownerToken : String
  /-- The closed code of the last failure. -/
  lastError : String
  /-- Whether the row may be re-armed once dead. -/
  reactivationPolicy : DeliveryReactivationPolicy
  deriving DecidableEq, Repr

namespace Delivery

/-- The primary key of the table. -/
def key (d : Delivery) : MessageId × PrincipalId := (d.messageId, d.recipientId)

/-- Where the row goes: the conversation it is bound to and the runtime it
is pinned to. -/
def route (d : Delivery) : Option AttachmentId × Option RuntimeId :=
  (d.recipientAttachmentId, d.runtimeSessionId)

/-- What a hand-off of the row is identified by: message, recipient and
generation. -/
def handoff (d : Delivery) : (MessageId × PrincipalId) × ℕ := (d.key, d.generation)

/-- **The fence**: the row is still the captured one, in the expected
state and held under the given token. -/
def fenced (captured : Delivery) (ownerToken : String) (expected : DeliveryState)
    (d : Delivery) : Bool :=
  d.key = captured.key && d.generation = captured.generation && d.state = expected
    && d.ownerToken = ownerToken

theorem fenced_iff {captured : Delivery} {owner : String} {expected : DeliveryState}
    {d : Delivery} :
    fenced captured owner expected d = true ↔
      d.key = captured.key ∧ d.generation = captured.generation ∧ d.state = expected
        ∧ d.ownerToken = owner := by
  simp [fenced, and_assoc]

/-- The row back in the queue under its next generation. -/
def requeue (nextAttemptAt : Instant) (d : Delivery) : Delivery :=
  { d with
    state := .queued, generation := d.generation + 1, nextAttemptAt := nextAttemptAt,
    leaseUntil := none, ownerToken := "" }

/-- The backoff after a number of attempts, `min(300, 2 ** min(attempts, 8))`
seconds. -/
def backoff (attempts : ℕ) : ℕ := min 300 (2 ^ min attempts 8)

/-! ## The transactions of the dispatcher

Each takes the rows and gives the rows; those whose caller looks at an
answer give the answer too. What a transaction reads outside this table
is an argument. -/

/-- What the selecting query of `_claim_delivery` reads in the other
tables. -/
structure ClaimQuery where
  /-- The conditions on the message, its attempt and Work, the runtime
  and the recipient's lane. -/
  dispatchable : Delivery → Bool
  /-- The sequence number of the message, by which rows are ordered. -/
  sequence : MessageId → ℕ

/-- The reset of expired leases at the head of `_claim_delivery`. -/
def resetExpiredLeases (now : Instant) (rows : List Delivery) : List Delivery :=
  Rows.update (fun d => d.state = .leased && d.leaseUntil.any (· < now)) (requeue now) rows

/-- The row `_claim_delivery` selects: the first in sequence among the
due rows of the queue that the query admits. -/
def selectQueued (now : Instant) (q : ClaimQuery) (rows : List Delivery) : Option Delivery :=
  (rows.filter fun d => d.state = .queued && d.nextAttemptAt ≤ now && q.dispatchable d).minOn?
    fun d => q.sequence d.messageId

/-- The row is still the selected one, in the queue. -/
def stillQueued (row d : Delivery) : Bool :=
  d.key = row.key && d.generation = row.generation && d.state = .queued

/-- The row leased to a dispatcher. -/
def lease (leaseUntil : Instant) (ownerToken : String) (d : Delivery) : Delivery :=
  { d with state := .leased, leaseUntil := some leaseUntil, ownerToken := ownerToken }

/-- **`_claim_delivery`**: reset the expired leases, then lease the
selected row and give it as captured. -/
def claimDelivery (now : Instant) (leaseSeconds : ℕ) (ownerToken : String) (q : ClaimQuery)
    (rows : List Delivery) : List Delivery × Option Delivery :=
  let rows := resetExpiredLeases now rows
  match selectQueued now q rows with
  | none => (rows, none)
  | some row =>
    if Rows.rowcount (stillQueued row) rows ≠ 1 then (rows, none)
    else
      let rows := Rows.update (stillQueued row) (lease (now + leaseSeconds) ownerToken) rows
      (rows, rows.find? fun d => d.key = row.key)

/-- `_park_cao_catalog_delivery_tx`: a delivery bound to a conversation
that is not ready for automatic wakes goes back to the queue. The answer
is whether the delivery is parked. -/
def parkCaoCatalogDelivery (wakeReady : AttachmentId → Bool) (captured : Delivery)
    (ownerToken : String) (rows : List Delivery) : List Delivery × Bool :=
  match captured.recipientAttachmentId with
  | none => (rows, false)
  | some attachment =>
    if wakeReady attachment then (rows, false)
    else
      (Rows.update (fun d => fenced captured ownerToken .leased d
          && d.recipientAttachmentId = some attachment)
        (fun d => requeue d.nextAttemptAt d) rows, true)

/-- `_finish_delivery`: spend one attempt; give up when told to or when
the attempts are used up, else back to the queue after the backoff. -/
def finishDelivery (now : Instant) (maxDispatchAttempts : ℕ) (captured : Delivery)
    (ownerToken : String) (errorCode : String) (dead : Bool) (rows : List Delivery) :
    List Delivery :=
  Rows.update (fenced captured ownerToken .leased) (fun d =>
    let attempts := d.attempts + 1
    let isDead := dead || maxDispatchAttempts ≤ attempts
    { d with
      state := if isDead then .dead else .queued,
      generation := d.generation + (if isDead then 0 else 1),
      attempts := attempts, nextAttemptAt := now + backoff attempts, leaseUntil := none,
      ownerToken := "", lastError := errorCode,
      reactivationPolicy := if isDead && !dead then .retryable else .terminal }) rows

/-- The common statement of the two defer operations. -/
def deferDelivery (lastError : String) (captured : Delivery) (ownerToken : String)
    (nextAttemptAt : Instant) (rows : List Delivery) : List Delivery :=
  Rows.update (fenced captured ownerToken .leased)
    (fun d => { requeue nextAttemptAt d with lastError := lastError }) rows

/-- `_defer_provider_rate_limited_delivery`. -/
def deferProviderRateLimitedDelivery :
    Delivery → String → Instant → List Delivery → List Delivery :=
  deferDelivery "runtime_provider_rate_limited"

/-- `_defer_pending_launch_ticket_delivery`. -/
def deferPendingLaunchTicketDelivery :
    Delivery → String → Instant → List Delivery → List Delivery :=
  deferDelivery "managed_mcp_launch_ticket_pending"

/-- `_block_owner_private_delivery`: a placement denial is terminal, in
whichever of the two states it is noticed. -/
def blockOwnerPrivateDelivery (expected : DeliveryState) (code : String) (captured : Delivery)
    (ownerToken : String) (rows : List Delivery) : List Delivery :=
  Rows.update (fenced captured ownerToken expected) (fun d =>
    { d with
      state := .dead, attempts := d.attempts + 1, leaseUntil := none, ownerToken := "",
      lastError := if code.startsWith "owner_private_policy_" then code
        else "owner_private_policy_unavailable",
      reactivationPolicy := .terminal }) rows

/-- What the reservation of `_process_delivery` finds in the other
tables. -/
structure ReservationAnswers where
  /-- Whether a conversation is ready for automatic wakes. -/
  wakeReady : AttachmentId → Bool
  /-- Whether the launch is still current: runtime, enrollment and
  ticket, or attachment, and the provider probe. -/
  launchIsCurrent : Bool
  /-- Whether the launch needs no runtime row of its own: a managed
  Worker, or a managed conversation woken through its ticket. -/
  ticketLaunch : Bool
  /-- Whether the update that marks the runtime busy touched its row. -/
  runtimeMarkedBusy : Bool

/-- The **reservation** of `_process_delivery`: `leased` to `dispatched`,
undone in the same transaction when the runtime could not be marked
busy. The answer is whether the hand-off is reserved. -/
def reserveDelivery (answers : ReservationAnswers) (captured : Delivery) (ownerToken : String)
    (rows : List Delivery) : List Delivery × Bool :=
  let (rows, parked) := parkCaoCatalogDelivery answers.wakeReady captured ownerToken rows
  if parked || !answers.launchIsCurrent then (rows, false)
  else if Rows.rowcount (fenced captured ownerToken .leased) rows ≠ 1 then (rows, false)
  else
    let started := Rows.update (fenced captured ownerToken .leased)
      (fun d => { d with state := .dispatched }) rows
    if answers.ticketLaunch || answers.runtimeMarkedBusy then (started, true)
    else (Rows.update (fenced captured ownerToken .dispatched)
      (fun d => { d with state := .leased }) started, false)

/-- The confirmation of a hand-off; the three branches of
`_process_delivery` issue the same statement. -/
def confirmDelivered (captured : Delivery) (ownerToken : String) (rows : List Delivery) :
    List Delivery :=
  Rows.update (fenced captured ownerToken .dispatched)
    (fun d => { d with state := .delivered, leaseUntil := none, ownerToken := "" }) rows

/-- `_mark_delivery_unknown`: the row stays `dispatched`, held by
nobody. -/
def markDeliveryUnknown (captured : Delivery) (ownerToken : String) (errorCode : String)
    (rows : List Delivery) : List Delivery :=
  Rows.update (fenced captured ownerToken .dispatched) (fun d =>
    { d with
      leaseUntil := none, ownerToken := "", attempts := d.attempts + 1,
      lastError := errorCode }) rows

/-- `_mark_delivery_not_submitted`: proven not to have reached its
target, the delivery is closed. -/
def markDeliveryNotSubmitted (captured : Delivery) (ownerToken : String)
    (rows : List Delivery) : List Delivery :=
  Rows.update (fenced captured ownerToken .dispatched) (fun d =>
    { d with
      state := .dead, leaseUntil := none, ownerToken := "", attempts := d.attempts + 1,
      lastError := "runtime_dispatch_pre_submit_failed", reactivationPolicy := .terminal }) rows

/-- The common statement of the two retries of a hand-off proven not to
have started. -/
def retryUnstarted (now : Instant) (lastError : String) (captured : Delivery)
    (ownerToken : String) (rows : List Delivery) : List Delivery :=
  Rows.update (fenced captured ownerToken .dispatched) (fun d =>
    { requeue (now + backoff (d.attempts + 1)) d with
      attempts := d.attempts + 1, lastError := lastError }) rows

/-- `_retry_unstarted_cao_delivery`: only when the launch ticket was
revoked and never consumed. -/
def retryUnstartedCaoDelivery (now : Instant) (ticketUnconsumed : Bool) (errorCode : String)
    (captured : Delivery) (ownerToken : String) (rows : List Delivery) : List Delivery :=
  if ticketUnconsumed then retryUnstarted now errorCode captured ownerToken rows else rows

/-- `_retry_unstarted_desktop_cao_delivery`: only while the attachment of
the row's runtime is live under the captured attachment generation. -/
def retryUnstartedDesktopCaoDelivery (now : Instant) (runtimeId : RuntimeId)
    (attachmentLive : RuntimeId → Bool) (captured : Delivery) (ownerToken : String)
    (rows : List Delivery) : List Delivery :=
  if rows.any (fun d => fenced captured ownerToken .dispatched d
      && d.runtimeSessionId = some runtimeId && attachmentLive runtimeId) then
    retryUnstarted now "desktop_wake_pre_start_unavailable" captured ownerToken rows
  else rows

/-! ## What a transaction does to a row

Within one generation a row only moves forward – from the queue to the
lease to the hand-off and beyond – and whenever it moves back it enters a
new generation. So the pair of the generation and of the distance
covered in it never decreases lexicographically. That one order carries
the guarantees of the dispatcher. -/

end Delivery

/-- How far a state lies from the queue: nothing, a lease, or a hand-off
and whatever follows it. -/
def DeliveryState.distance : DeliveryState → ℕ
  | queued => 0
  | leased => 1
  | dispatched | delivered | acknowledged | handled | dead => 2

namespace Delivery

/-- **The position of a row**: its generation, then the distance covered
in it. -/
def position (d : Delivery) : ℕ ×ₗ ℕ := toLex (d.generation, d.state.distance)

/-- **A row advances to another** when it is the row of the same delivery
on the same route and its position does not decrease. -/
structure Advances (d d' : Delivery) : Prop where
  /-- The same delivery. -/
  key : d.key = d'.key
  /-- The same route. -/
  route : d.route = d'.route
  /-- Not moved back. -/
  position : d.position ≤ d'.position

theorem Advances.refl (d : Delivery) : d.Advances d := ⟨rfl, rfl, le_refl _⟩

theorem Advances.trans {a b c : Delivery} (hab : a.Advances b) (hbc : b.Advances c) :
    a.Advances c :=
  ⟨hab.key.trans hbc.key, hab.route.trans hbc.route, hab.position.trans hbc.position⟩

theorem position_le_iff {d d' : Delivery} :
    d.position ≤ d'.position ↔ d.generation < d'.generation ∨
      d.generation = d'.generation ∧ d.state.distance ≤ d'.state.distance :=
  Prod.Lex.toLex_le_toLex

/-- The generation of an advancing row never decreases. -/
theorem Advances.generation_le {d d' : Delivery} (h : d.Advances d') :
    d.generation ≤ d'.generation := by
  rcases position_le_iff.mp h.position with hlt | ⟨heq, -⟩
  · exact hlt.le
  · exact heq.le

/-- A row that returns to the queue enters a new generation. -/
theorem Advances.generation_lt {d d' : Delivery} (h : d.Advances d') (hd : d.state ≠ .queued)
    (hd' : d'.state = .queued) : d.generation < d'.generation := by
  rcases position_le_iff.mp h.position with hlt | ⟨-, hle⟩
  · exact hlt
  · have hpos : 0 < d.state.distance := by
      cases hs : d.state <;> simp_all [DeliveryState.distance]
    rw [hd'] at hle
    exact absurd hle (Nat.not_le.mpr hpos)

/-- Going back to the queue is an advance, whatever the row was. -/
theorem advances_of_generation_lt {d d' : Delivery} (hkey : d.key = d'.key)
    (hroute : d.route = d'.route) (h : d.generation < d'.generation) : d.Advances d' :=
  ⟨hkey, hroute, position_le_iff.mpr (.inl h)⟩

/-- Within a generation an advance is a forward move. -/
theorem advances_of_distance_le {d d' : Delivery} (hkey : d.key = d'.key)
    (hroute : d.route = d'.route) (hgen : d.generation = d'.generation)
    (h : d.state.distance ≤ d'.state.distance) : d.Advances d' :=
  ⟨hkey, hroute, position_le_iff.mpr (.inr ⟨hgen, h⟩)⟩

@[simp] theorem requeue_key (t : Instant) (d : Delivery) : (requeue t d).key = d.key := rfl

@[simp] theorem lease_key (t : Instant) (owner : String) (d : Delivery) :
    (lease t owner d).key = d.key := rfl

theorem advances_requeue (t : Instant) (d : Delivery) : d.Advances (requeue t d) :=
  advances_of_generation_lt rfl rfl (Nat.lt_succ_self _)

/-- A fenced update whose row function advances the rows it is applied to
advances every row. -/
theorem advances_update {p : Delivery → Bool} {f : Delivery → Delivery}
    (h : ∀ d, p d = true → d.Advances (f d)) (rows : List Delivery) :
    List.Forall₂ Advances rows (Rows.update p f rows) :=
  Rows.evolve_update Advances.refl h rows

theorem advances_trans {rows₁ rows₂ rows₃ : List Delivery}
    (h₁ : List.Forall₂ Advances rows₁ rows₂) (h₂ : List.Forall₂ Advances rows₂ rows₃) :
    List.Forall₂ Advances rows₁ rows₃ :=
  Rows.evolve_trans (R := Advances) (fun _ _ _ => Advances.trans) h₁ h₂

theorem advances_rows_refl (rows : List Delivery) : List.Forall₂ Advances rows rows :=
  List.forall₂_same.mpr fun d _ => Advances.refl d

/-! ### Fenced steps

Everything a job does to the table is an update under its fence that
advances the rows it touches. `FencedStep` says so once; that a stale
job changes nothing, that the rows of other deliveries and of other
generations are left alone, and that every row advances are its three
consequences. -/

/-- **A fenced step** of a job: an in-place update of rows that are still
the captured one under the job's token, each of which advances. -/
def FencedStep (captured : Delivery) (owner : String) (rows rows' : List Delivery) : Prop :=
  ∃ (p : Delivery → Bool) (f : Delivery → Delivery), rows' = Rows.update p f rows ∧
    ∀ d, p d = true → d.key = captured.key ∧ d.generation = captured.generation ∧
      d.ownerToken = owner ∧ d.Advances (f d)

namespace FencedStep

variable {captured : Delivery} {owner : String} {rows rows' : List Delivery}

/-- Changing nothing is a fenced step. -/
theorem refl (rows : List Delivery) : FencedStep captured owner rows rows :=
  ⟨fun _ => false, id, (Rows.update_eq_self fun _ _ => rfl).symm, fun _ h => by cases h⟩

/-- An update under the fence is a fenced step when it advances the rows
it touches. -/
theorem of_update (expected : DeliveryState) {p : Delivery → Bool} {f : Delivery → Delivery}
    (hp : ∀ d, p d = true → fenced captured owner expected d = true)
    (hf : ∀ d : Delivery, d.state = expected → d.Advances (f d)) :
    FencedStep captured owner rows (Rows.update p f rows) := by
  refine ⟨p, f, rfl, fun d hd => ?_⟩
  obtain ⟨hkey, hgen, hstate, howner⟩ := fenced_iff.mp (hp d hd)
  exact ⟨hkey, hgen, howner, hf d hstate⟩

theorem advances (h : FencedStep captured owner rows rows') :
    List.Forall₂ Advances rows rows' := by
  obtain ⟨p, f, rfl, hpf⟩ := h
  exact advances_update (fun d hd => (hpf d hd).2.2.2) rows

/-- **A stale job changes nothing**: when no row has the captured key,
generation and token, the table is left as it is. -/
theorem eq_of_stale (h : FencedStep captured owner rows rows')
    (hstale : ∀ d ∈ rows, d.key = captured.key →
      d.generation ≠ captured.generation ∨ d.ownerToken ≠ owner) : rows' = rows := by
  obtain ⟨p, f, rfl, hpf⟩ := h
  refine Rows.update_eq_self fun d hd => ?_
  by_contra hp
  obtain ⟨hkey, hgen, howner, -⟩ := hpf d (by simpa using hp)
  rcases hstale d hd hkey with hne | hne
  · exact hne hgen
  · exact hne howner

/-- A row of another delivery or generation is left alone. -/
theorem mem_of_ne (h : FencedStep captured owner rows rows') {d : Delivery} (hd : d ∈ rows)
    (hne : d.handoff ≠ captured.handoff) : d ∈ rows' := by
  obtain ⟨p, f, rfl, hpf⟩ := h
  refine Rows.mem_update_of_not hd ?_
  by_contra hp
  obtain ⟨hkey, hgen, -⟩ := hpf d (by simpa using hp)
  exact hne (Prod.ext hkey hgen)

end FencedStep

/-! ### Statement by statement -/

section Statements

variable {now : Instant} {captured : Delivery} {owner : String} {rows : List Delivery}

theorem advances_resetExpiredLeases :
    List.Forall₂ Advances rows (resetExpiredLeases now rows) :=
  advances_update (fun d _ => advances_requeue now d) rows

theorem parkCaoCatalogDelivery_fenced {wakeReady : AttachmentId → Bool} :
    FencedStep captured owner rows (parkCaoCatalogDelivery wakeReady captured owner rows).1 := by
  unfold parkCaoCatalogDelivery
  split
  · exact .refl rows
  · split
    · exact .refl rows
    · refine .of_update .leased (fun d hd => ?_) fun d _ => advances_requeue _ d
      exact (Bool.and_eq_true _ _ ▸ hd).1

theorem finishDelivery_fenced {maxDispatchAttempts : ℕ} {errorCode : String} {dead : Bool} :
    FencedStep captured owner rows
      (finishDelivery now maxDispatchAttempts captured owner errorCode dead rows) := by
  refine .of_update .leased (fun _ hd => hd) fun d hstate => ?_
  by_cases hdead : (dead || decide (maxDispatchAttempts ≤ d.attempts + 1)) = true
  · exact advances_of_distance_le rfl rfl (by simp [hdead])
      (by simp [hdead, hstate, DeliveryState.distance])
  · exact advances_of_generation_lt rfl rfl (by simp [hdead])

theorem deferDelivery_fenced {lastError : String} {nextAttemptAt : Instant} :
    FencedStep captured owner rows
      (deferDelivery lastError captured owner nextAttemptAt rows) := by
  refine .of_update .leased (fun _ hd => hd) fun d _ => ?_
  exact advances_of_generation_lt rfl rfl (Nat.lt_succ_self _)

theorem blockOwnerPrivateDelivery_fenced {expected : DeliveryState} {code : String} :
    FencedStep captured owner rows
      (blockOwnerPrivateDelivery expected code captured owner rows) := by
  refine .of_update expected (fun _ hd => hd) fun d _ => ?_
  refine advances_of_distance_le rfl rfl rfl ?_
  cases d.state <;> simp [DeliveryState.distance]

theorem confirmDelivered_fenced :
    FencedStep captured owner rows (confirmDelivered captured owner rows) := by
  refine .of_update .dispatched (fun _ hd => hd) fun d hstate => ?_
  exact advances_of_distance_le rfl rfl rfl (by simp [hstate, DeliveryState.distance])

theorem markDeliveryUnknown_fenced {errorCode : String} :
    FencedStep captured owner rows (markDeliveryUnknown captured owner errorCode rows) := by
  refine .of_update .dispatched (fun _ hd => hd) fun d _ => ?_
  exact advances_of_distance_le rfl rfl rfl le_rfl

theorem markDeliveryNotSubmitted_fenced :
    FencedStep captured owner rows (markDeliveryNotSubmitted captured owner rows) := by
  refine .of_update .dispatched (fun _ hd => hd) fun d hstate => ?_
  exact advances_of_distance_le rfl rfl rfl (by simp [hstate, DeliveryState.distance])

theorem retryUnstarted_fenced {lastError : String} :
    FencedStep captured owner rows (retryUnstarted now lastError captured owner rows) := by
  refine .of_update .dispatched (fun _ hd => hd) fun d _ => ?_
  exact advances_of_generation_lt rfl rfl (Nat.lt_succ_self _)

theorem retryUnstartedCaoDelivery_fenced {ticketUnconsumed : Bool} {errorCode : String} :
    FencedStep captured owner rows
      (retryUnstartedCaoDelivery now ticketUnconsumed errorCode captured owner rows) := by
  unfold retryUnstartedCaoDelivery
  split
  · exact retryUnstarted_fenced
  · exact .refl rows

theorem retryUnstartedDesktopCaoDelivery_fenced {runtimeId : RuntimeId}
    {attachmentLive : RuntimeId → Bool} :
    FencedStep captured owner rows
      (retryUnstartedDesktopCaoDelivery now runtimeId attachmentLive captured owner rows) := by
  unfold retryUnstartedDesktopCaoDelivery
  split
  · exact retryUnstarted_fenced
  · exact .refl rows

/-! The reservation is the one transaction that moves a row back within
its generation: it undoes its own hand-off. Undoing it restores the
table it found. -/

/-- **Undoing a reservation restores the rows.** No row is both leased
and dispatched, so the statement that undoes finds just the row the
first one moved. -/
theorem undo_reservation (hkey : (rows.map key).Nodup)
    (hfound : Rows.rowcount (fenced captured owner .leased) rows ≠ 0) :
    Rows.update (fenced captured owner .dispatched) (fun d => { d with state := .leased })
      (Rows.update (fenced captured owner .leased) (fun d => { d with state := .dispatched })
        rows) = rows := by
  obtain ⟨a, ha, hfence⟩ : ∃ a ∈ rows, fenced captured owner .leased a = true := by
    rw [Rows.rowcount, ne_eq, List.countP_eq_zero] at hfound
    push Not at hfound
    exact hfound
  have hkeyA : a.key = captured.key := (fenced_iff.mp hfence).1
  unfold Rows.update
  rw [List.map_map]
  calc rows.map _ = rows.map id := List.map_congr_left fun d hd => ?_
    _ = rows := List.map_id rows
  by_cases hl : fenced captured owner .leased d = true
  · have hs : d.state = .leased := (fenced_iff.mp hl).2.2.1
    have hd' : fenced captured owner .dispatched { d with state := .dispatched } = true := by
      obtain ⟨h₁, h₂, -, h₄⟩ := fenced_iff.mp hl
      exact fenced_iff.mpr ⟨h₁, h₂, rfl, h₄⟩
    simp only [Function.comp_apply, hl, if_true, hd', id_eq]
    cases d
    simp_all
  · have hno : ¬ fenced captured owner .dispatched d = true := by
      intro hdisp
      obtain ⟨hk, -, hs, -⟩ := fenced_iff.mp hdisp
      have : d = a := Rows.eq_of_key hkey hd ha (hk.trans hkeyA.symm)
      rw [this, (fenced_iff.mp hfence).2.2.1] at hs
      cases hs
    simp [hl, hno]

/-- The rows after a reservation are those the parking leaves, or those
with the fenced lease moved to the hand-off. -/
theorem reserveDelivery_cases (answers : ReservationAnswers) (captured : Delivery)
    (owner : String) (hkey : (rows.map key).Nodup) :
    (reserveDelivery answers captured owner rows
        = ((parkCaoCatalogDelivery answers.wakeReady captured owner rows).1, false)) ∨
      (Rows.rowcount (fenced captured owner .leased) rows = 1 ∧
        reserveDelivery answers captured owner rows
          = (Rows.update (fenced captured owner .leased)
              (fun d => { d with state := .dispatched }) rows, true)) := by
  have hnot : (parkCaoCatalogDelivery answers.wakeReady captured owner rows).2 = false →
      (parkCaoCatalogDelivery answers.wakeReady captured owner rows).1 = rows := by
    unfold parkCaoCatalogDelivery
    split
    · simp
    · split <;> simp
  unfold reserveDelivery
  dsimp only
  split
  · exact .inl rfl
  · next hparked =>
    have hrows := hnot (by simp_all)
    rw [hrows]
    split
    · exact .inl rfl
    · next hcount =>
      split
      · exact .inr ⟨by simpa using hcount, rfl⟩
      · exact .inl (by rw [undo_reservation hkey (by simp_all)])

theorem reserveDelivery_fenced {answers : ReservationAnswers} (hkey : (rows.map key).Nodup) :
    FencedStep captured owner rows (reserveDelivery answers captured owner rows).1 := by
  rcases reserveDelivery_cases answers captured owner hkey with h | ⟨-, h⟩
  · rw [h]
    exact parkCaoCatalogDelivery_fenced
  · rw [h]
    refine .of_update .leased (fun _ hd => hd) fun d hstate => ?_
    exact advances_of_distance_le rfl rfl rfl (by simp [hstate, DeliveryState.distance])

/-! ### The claim -/

theorem keys_resetExpiredLeases (hkey : (rows.map key).Nodup) :
    ((resetExpiredLeases now rows).map key).Nodup := by
  have : (resetExpiredLeases now rows).map key = rows.map key :=
    Rows.map_update (fun d _ => requeue_key now d) rows
  rw [this]
  exact hkey

/-- **What a claim does**: it resets the expired leases; then either it
takes nothing, or it leases the row it selected and captures it. -/
theorem claimDelivery_selects (now : Instant) (leaseSeconds : ℕ) (owner : String)
    (q : ClaimQuery) (hkey : (rows.map key).Nodup) :
    claimDelivery now leaseSeconds owner q rows = (resetExpiredLeases now rows, none) ∨
      ∃ row, selectQueued now q (resetExpiredLeases now rows) = some row ∧
        row ∈ resetExpiredLeases now rows ∧ row.state = .queued ∧ q.dispatchable row = true ∧
        claimDelivery now leaseSeconds owner q rows
          = (Rows.update (stillQueued row) (lease (now + leaseSeconds) owner)
              (resetExpiredLeases now rows), some (lease (now + leaseSeconds) owner row)) := by
  unfold claimDelivery
  dsimp only
  split
  · exact .inl rfl
  · next row hrow =>
    have hmem := List.mem_filter.mp (List.minOn?_mem hrow)
    obtain ⟨⟨hqueued, -⟩, hdispatchable⟩ :
        (row.state = .queued ∧ row.nextAttemptAt ≤ now) ∧ q.dispatchable row = true := by
      simpa only [Bool.and_eq_true, decide_eq_true_eq] using hmem.2
    split
    · exact .inl rfl
    · refine .inr ⟨row, hrow, hmem.1, hqueued, hdispatchable, Prod.ext rfl ?_⟩
      have hleased : lease (now + leaseSeconds) owner row ∈ Rows.update (stillQueued row)
          (lease (now + leaseSeconds) owner) (resetExpiredLeases now rows) :=
        Rows.mem_update_of hmem.1 (by simp [stillQueued, hqueued])
      refine Rows.find?_key ?_ hleased
      have hkeys : (Rows.update (stillQueued row) (lease (now + leaseSeconds) owner)
          (resetExpiredLeases now rows)).map key = (resetExpiredLeases now rows).map key :=
        Rows.map_update (fun d _ => lease_key _ _ d) _
      rw [hkeys]
      exact keys_resetExpiredLeases hkey

/-- What a claim does, whichever row it selected. -/
theorem claimDelivery_cases (now : Instant) (leaseSeconds : ℕ) (owner : String)
    (q : ClaimQuery) (hkey : (rows.map key).Nodup) :
    claimDelivery now leaseSeconds owner q rows = (resetExpiredLeases now rows, none) ∨
      ∃ row ∈ resetExpiredLeases now rows, row.state = .queued ∧ q.dispatchable row = true ∧
        claimDelivery now leaseSeconds owner q rows
          = (Rows.update (stillQueued row) (lease (now + leaseSeconds) owner)
              (resetExpiredLeases now rows), some (lease (now + leaseSeconds) owner row)) := by
  rcases claimDelivery_selects now leaseSeconds owner q hkey with h | ⟨row, -, hrow⟩
  · exact .inl h
  · exact .inr ⟨row, hrow⟩

theorem advances_claimDelivery {leaseSeconds : ℕ} {q : ClaimQuery}
    (hkey : (rows.map key).Nodup) :
    List.Forall₂ Advances rows (claimDelivery now leaseSeconds owner q rows).1 := by
  rcases claimDelivery_cases now leaseSeconds owner q hkey with h | ⟨row, -, -, -, h⟩
  · rw [h]
    exact advances_resetExpiredLeases
  · rw [h]
    refine advances_trans advances_resetExpiredLeases (advances_update (fun d hd => ?_) _)
    have hstate : d.state = .queued := by simp_all [stillQueued]
    exact advances_of_distance_le rfl rfl rfl (by simp [hstate, DeliveryState.distance])

/-- A claim leaves every row alone that is neither queued nor leased. -/
theorem mem_claimDelivery {leaseSeconds : ℕ} {q : ClaimQuery} (hkey : (rows.map key).Nodup)
    {d : Delivery} (hd : d ∈ rows) (hqueued : d.state ≠ .queued) (hleased : d.state ≠ .leased) :
    d ∈ (claimDelivery now leaseSeconds owner q rows).1 := by
  have hreset : d ∈ resetExpiredLeases now rows :=
    Rows.mem_update_of_not hd (by simp [hleased])
  rcases claimDelivery_cases now leaseSeconds owner q hkey with h | ⟨row, -, -, -, h⟩
  · rw [h]
    exact hreset
  · rw [h]
    exact Rows.mem_update_of_not hreset (by simp [stillQueued, hqueued])

end Statements

end Delivery
