import OpenCAO.Dispatcher

/-!
# Wake routes of CAO conversations

A conversation of the CAO is an *attachment*: a durable row that names a
native thread. The runtime session it points to is only the current way
to wake that thread and may be replaced. A delivery to the CAO is bound
to one attachment for good, and pinned to a runtime through which it is
to be dispatched; that a wake stays in its conversation means that the
runtime a delivery is pinned to is, or was, the wake runtime of its own
attachment.

Five statements of `service.py` and `runtime.py` write the runtime of a
delivery. Creation, the replacement of a route and the re-arming of
supervision select by attachment. The heartbeat of a runtime re-arms by
*recipient*: it takes every dead retryable delivery of the principal,
and pins it to the runtime that beat.

The list `wakeRuntimes` is history, not a table: it records every
runtime an attachment ever pointed to.
-/

/-- **A row of `runtime_sessions`.** -/
structure RuntimeSession where
  /-- The primary key. -/
  id : RuntimeId
  /-- Whose runtime it is. -/
  principalId : PrincipalId
  /-- Whether the adapter is the app server of the host. -/
  codexAppServer : Bool
  /-- The thread it runs. -/
  nativeSessionId : NativeThreadId
  /-- Its state. -/
  state : RuntimeState
  /-- The end of its lease. -/
  leaseExpiresAt : Instant
  deriving DecidableEq, Repr

/-- **A row of `cao_session_attachments`.** -/
structure CaoSessionAttachment where
  /-- The primary key. -/
  id : AttachmentId
  /-- The CAO principal the conversation belongs to. -/
  principalId : PrincipalId
  /-- The current wake runtime. -/
  runtimeSessionId : RuntimeId
  /-- The native thread of the conversation. -/
  nativeThreadId : NativeThreadId
  /-- The state of the attachment. -/
  state : AttachmentState
  /-- The end of its lease. -/
  leaseExpiresAt : Instant
  deriving DecidableEq, Repr

/-- **The state of the wake routes**: the dispatching system with the
tables the routes are read from. -/
structure WakeRouting where
  /-- The deliveries, the clock and the jobs of the dispatchers. -/
  dispatching : Dispatching
  /-- The rows of `runtime_sessions`. -/
  runtimes : List RuntimeSession
  /-- The rows of `cao_session_attachments`. -/
  attachments : List CaoSessionAttachment
  /-- Every pair of an attachment and a runtime it pointed to. -/
  wakeRuntimes : List (AttachmentId × RuntimeId)

namespace WakeRouting

/-- The clock. -/
def now (s : WakeRouting) : Instant := s.dispatching.now

/-- The rows of `message_deliveries`. -/
def deliveries (s : WakeRouting) : List Delivery := s.dispatching.deliveries

/-- The state with other deliveries. -/
def withDeliveries (s : WakeRouting) (rows : List Delivery) : WakeRouting :=
  { s with dispatching := { s.dispatching with deliveries := rows } }

/-- The attachment of a given id. -/
def attachment? (s : WakeRouting) (id : AttachmentId) : Option CaoSessionAttachment :=
  s.attachments.find? fun a => a.id = id

/-- The runtime of a given id. -/
def runtime? (s : WakeRouting) (id : RuntimeId) : Option RuntimeSession :=
  s.runtimes.find? fun r => r.id = id

/-- The first branch of `_resolve_runtime` for a recipient that is not a
Worker: the pinned runtime, if it is one of the recipient's and has not
ended. The second branch serves deliveries that are not pinned. -/
def resolveRuntime (s : WakeRouting) (d : Delivery) : Option RuntimeSession :=
  d.runtimeSessionId.bind fun id =>
    (s.runtimes.find? fun r => r.id = id && r.principalId = d.recipientId).filter
      fun r => !r.state.ended

/-! ## Message creation -/

/-- Whom a new delivery goes to. -/
inductive Recipient where
  /-- The supervisor of the Work of the message, whose attachment is
  given; a message without a Work has none. -/
  | cao (supervisorAttachmentId : Option AttachmentId)
  /-- Anyone else; the runtime is the one `_message` finds. -/
  | other (runtimeSessionId : Option RuntimeId)

/-- The wake runtime `_message` pins a delivery to: that of the
attachment while attachment and runtime are live. -/
def wakeRuntime (s : WakeRouting) (recipientId : PrincipalId) (attachmentId : AttachmentId) :
    Option RuntimeId :=
  (s.attachment? attachmentId).bind fun a =>
    if a.principalId = recipientId ∧ a.state = .active ∧ s.now < a.leaseExpiresAt then
      ((s.runtime? a.runtimeSessionId).filter fun r =>
        r.state.connectable && s.now < r.leaseExpiresAt).map (·.id)
    else none

/-- The row `_message` inserts for one recipient. -/
def newDelivery (s : WakeRouting) (messageId : MessageId) (recipientId : PrincipalId)
    (recipient : Recipient) : Delivery where
  messageId := messageId
  recipientId := recipientId
  recipientAttachmentId := match recipient with
    | .cao attachmentId => attachmentId
    | .other _ => none
  state := .queued
  generation := 1
  attempts := 0
  nextAttemptAt := s.now
  runtimeSessionId := match recipient with
    | .cao attachmentId => attachmentId.bind (s.wakeRuntime recipientId)
    | .other runtimeSessionId => runtimeSessionId
  leaseUntil := none
  ownerToken := ""
  lastError := ""
  reactivationPolicy := .terminal

/-- The insertion of a delivery; the message is new, and the trigger of
the table refuses an attachment of another principal. -/
def createDelivery (s : WakeRouting) (messageId : MessageId) (recipientId : PrincipalId)
    (recipient : Recipient) : Option WakeRouting :=
  let d := s.newDelivery messageId recipientId recipient
  if d.key ∉ s.deliveries.map Delivery.key ∧
      d.recipientAttachmentId.all (fun id =>
        s.attachments.any fun a => a.id = id && a.principalId = recipientId) then
    some (s.withDeliveries (d :: s.deliveries))
  else none

/-! ## Re-arming -/

/-- A dead row back in the queue, pinned to a runtime. -/
def rearm (now : Instant) (runtimeId : RuntimeId) (d : Delivery) : Delivery :=
  { d with
    state := .queued, generation := d.generation + 1, attempts := 0, nextAttemptAt := now,
    runtimeSessionId := some runtimeId, leaseUntil := none, ownerToken := "", lastError := "",
    reactivationPolicy := .terminal }

/-- The rows the heartbeat re-arms: the dead retryable deliveries of the
principal which its query admits. No condition on the attachment. -/
def heartbeatSelects (principalId : PrincipalId) (admits : Delivery → Bool) (d : Delivery) :
    Bool :=
  d.recipientId = principalId && d.state = .dead && d.reactivationPolicy = .retryable
    && admits d

/-- `_reactivate_deliveries_tx`. -/
def reactivateDeliveries (s : WakeRouting) (principalId : PrincipalId) (runtimeId : RuntimeId)
    (admits : Delivery → Bool) : WakeRouting :=
  s.withDeliveries
    (Rows.update (heartbeatSelects principalId admits) (rearm s.now runtimeId) s.deliveries)

/-- `_reactivate_cao_supervision_deliveries_tx`: the dead retryable
deliveries bound to the attachment which its queries select. -/
def reactivateCaoSupervisionDeliveries (s : WakeRouting) (attachmentId : AttachmentId)
    (runtimeId : RuntimeId) (selects : Delivery → Bool) : WakeRouting :=
  s.withDeliveries
    (Rows.update (fun d => d.recipientAttachmentId = some attachmentId && d.state = .dead
        && d.reactivationPolicy = .retryable && selects d)
      (rearm s.now runtimeId) s.deliveries)

/-! ## Heartbeats, attachments and wake routes -/

/-- `heartbeat_runtime`, once its caller is admitted: renew a runtime that
has not ended, then re-arm the deliveries of its principal. -/
def heartbeatRuntime (s : WakeRouting) (runtimeId : RuntimeId) (state : RuntimeState)
    (leaseSeconds : ℕ) (admits : Delivery → Bool) : Option WakeRouting :=
  (s.runtime? runtimeId).map fun runtime =>
    let s := { s with
      runtimes := Rows.update (fun r => r.id = runtimeId && !r.state.ended)
        (fun r => { r with
          state := if r.state = RuntimeState.busy then .busy else state,
          leaseExpiresAt := s.now + leaseSeconds }) s.runtimes }
    s.reactivateDeliveries runtime.principalId runtimeId admits

/-- The queued deliveries of an attachment follow its wake runtime. -/
def rebindQueued (s : WakeRouting) (a : CaoSessionAttachment) (runtimeId : RuntimeId) :
    WakeRouting :=
  s.withDeliveries
    (Rows.update (fun d => d.recipientId = a.principalId && d.recipientAttachmentId = some a.id
        && d.state = .queued && d.runtimeSessionId ≠ some runtimeId)
      (fun d => { d with
        runtimeSessionId := some runtimeId, generation := d.generation + 1, attempts := 0,
        nextAttemptAt := s.now, leaseUntil := none, ownerToken := "", lastError := "" })
      s.deliveries)

/-- A new wake runtime for an attachment. -/
def replaceRuntime (s : WakeRouting) (a : CaoSessionAttachment) (newId : RuntimeId) :
    WakeRouting :=
  { s with
    runtimes := ⟨newId, a.principalId, true, a.nativeThreadId, .ready, a.leaseExpiresAt⟩
      :: s.runtimes,
    attachments := Rows.update (fun b => b.id = a.id)
      (fun b => { b with runtimeSessionId := newId }) s.attachments,
    wakeRuntimes := (a.id, newId) :: s.wakeRuntimes }

/-- The runtime of an attachment is the one its identity asks for. -/
def identityHolds (a : CaoSessionAttachment) (r : RuntimeSession) : Bool :=
  r.principalId = a.principalId && r.codexAppServer && r.nativeSessionId = a.nativeThreadId

/-- **`_reconcile_cao_wake_route_tx`**: for a live attachment whose
identity holds, replace a wake runtime that is not available, let the
queued deliveries follow, and re-arm supervision after a replacement. -/
def reconcileCaoWakeRoute (s : WakeRouting) (attachmentId : AttachmentId) (newId : RuntimeId)
    (selects : Delivery → Bool) : WakeRouting :=
  match s.attachment? attachmentId with
  | none => s
  | some a =>
    if a.state = .active ∧ s.now < a.leaseExpiresAt then
      match s.runtime? a.runtimeSessionId with
      | none => s
      | some r =>
        if !identityHolds a r then s
        else if r.state.connectable && s.now < r.leaseExpiresAt then s.rebindQueued a r.id
        else ((s.replaceRuntime a newId).rebindQueued a newId).reactivateCaoSupervisionDeliveries
          a.id newId selects
    else s

/-- A conversation attaches for the first time. -/
def openAttachment (s : WakeRouting) (attachmentId : AttachmentId) (principalId : PrincipalId)
    (nativeThreadId : NativeThreadId) (leaseSeconds : ℕ) (newId : RuntimeId) : WakeRouting :=
  { s with
    runtimes := ⟨newId, principalId, true, nativeThreadId, .ready, s.now + leaseSeconds⟩
      :: s.runtimes,
    attachments := ⟨attachmentId, principalId, newId, nativeThreadId, .active,
      s.now + leaseSeconds⟩ :: s.attachments,
    wakeRuntimes := (attachmentId, newId) :: s.wakeRuntimes }

/-- A revoked conversation is opened again, on a new runtime. -/
def reopenAttachment (s : WakeRouting) (a : CaoSessionAttachment) (leaseSeconds : ℕ)
    (newId : RuntimeId) : WakeRouting :=
  let lease := s.now + leaseSeconds
  let s := s.replaceRuntime { a with leaseExpiresAt := lease } newId
  { s with
    attachments := Rows.update (fun b => b.id = a.id)
      (fun b => { b with state := .active, leaseExpiresAt := lease }) s.attachments }

/-! ## The system -/

/-- The events of the system. -/
inductive Event where
  /-- `_message` creates a delivery. -/
  | message (messageId : MessageId) (recipientId : PrincipalId) (recipient : Recipient)
  /-- `heartbeat_runtime` by an admitted caller. -/
  | heartbeat (runtimeId : RuntimeId) (state : RuntimeState) (leaseSeconds : ℕ)
      (admits : Delivery → Bool)
  /-- `_reconcile_cao_wake_route_tx`. -/
  | reconcileRoute (attachmentId : AttachmentId) (newId : RuntimeId)
      (selects : Delivery → Bool)
  /-- The re-arming of supervision when a connection opens. -/
  | connectionOpened (attachmentId : AttachmentId) (selects : Delivery → Bool)
  /-- A conversation attaches for the first time. -/
  | attach (attachmentId : AttachmentId) (principalId : PrincipalId)
      (nativeThreadId : NativeThreadId) (leaseSeconds : ℕ) (newId : RuntimeId)
  /-- A revoked conversation is opened again. -/
  | reopen (attachmentId : AttachmentId) (leaseSeconds : ℕ) (newId : RuntimeId)
  /-- An attachment is renewed, expires, fails or is revoked. -/
  | setAttachment (attachmentId : AttachmentId) (state : AttachmentState)
      (leaseExpiresAt : Instant)
  /-- A runtime changes its state or its lease. -/
  | setRuntime (runtimeId : RuntimeId) (state : RuntimeState) (leaseExpiresAt : Instant)
  /-- A step of the dispatching system. -/
  | dispatch (event : Dispatching.Event)

/-- The claim asks of a delivery to the CAO that it is pinned. -/
def pinnedClaim : Dispatching.Event → Dispatching.Event
  | .claim owner leaseSeconds query =>
    .claim owner leaseSeconds { query with
      dispatchable := fun d => query.dispatchable d
        && !(d.recipientAttachmentId.isSome && d.runtimeSessionId.isNone) }
  | event => event

/-- **One step.** New runtimes and attachments have new names. -/
def step (s : WakeRouting) : Event → Option WakeRouting
  | .message messageId recipientId recipient => s.createDelivery messageId recipientId recipient
  | .heartbeat runtimeId state leaseSeconds admits =>
    s.heartbeatRuntime runtimeId state leaseSeconds admits
  | .reconcileRoute attachmentId newId selects =>
    if newId ∉ s.runtimes.map (·.id) then
      some (s.reconcileCaoWakeRoute attachmentId newId selects)
    else none
  | .connectionOpened attachmentId selects =>
    (s.attachment? attachmentId).map fun a =>
      s.reactivateCaoSupervisionDeliveries a.id a.runtimeSessionId selects
  | .attach attachmentId principalId nativeThreadId leaseSeconds newId =>
    if newId ∉ s.runtimes.map (·.id) ∧ attachmentId ∉ s.attachments.map (·.id) then
      some (s.openAttachment attachmentId principalId nativeThreadId leaseSeconds newId)
    else none
  | .reopen attachmentId leaseSeconds newId =>
    (s.attachment? attachmentId).bind fun a =>
      if newId ∉ s.runtimes.map (·.id) ∧ a.state = .revoked then
        some (s.reopenAttachment a leaseSeconds newId)
      else none
  | .setAttachment attachmentId state leaseExpiresAt =>
    some { s with
      attachments := Rows.update (fun a => a.id = attachmentId)
        (fun a => { a with state := state, leaseExpiresAt := leaseExpiresAt }) s.attachments }
  | .setRuntime runtimeId state leaseExpiresAt =>
    some { s with
      runtimes := Rows.update (fun r => r.id = runtimeId)
        (fun r => { r with state := state, leaseExpiresAt := leaseExpiresAt }) s.runtimes }
  | .dispatch event =>
    (s.dispatching.step (pinnedClaim event)).map fun d => { s with dispatching := d }

/-- The initial states: nothing attached, nothing to deliver. -/
def Initial (s : WakeRouting) : Prop :=
  s.deliveries = [] ∧ s.dispatching.jobs = [] ∧ s.dispatching.handoffs = [] ∧
    s.attachments = [] ∧ s.runtimes = [] ∧ s.wakeRuntimes = []

/-- **The system of wake routes.** -/
def system : TransitionSystem WakeRouting Event := .ofFunction Initial step

/-! ## The binding

A delivery is *bound* when the runtime it is pinned to, if any, is one
its own attachment pointed to at some time. Only the two columns of the
route matter, so whatever leaves the route of every row alone keeps
every row bound. -/

/-- **A delivery is bound** to the wake runtimes of its attachment. -/
def Bound (wakeRuntimes : List (AttachmentId × RuntimeId)) (d : Delivery) : Prop :=
  ∀ a, d.recipientAttachmentId = some a → ∀ r, d.runtimeSessionId = some r →
    (a, r) ∈ wakeRuntimes

theorem Bound.of_route {w : List (AttachmentId × RuntimeId)} {d d' : Delivery}
    (h : Bound w d) (hroute : d.route = d'.route) : Bound w d' := by
  obtain ⟨hattachment, hruntime⟩ := Prod.ext_iff.mp hroute
  intro a ha r hr
  exact h a (hattachment.trans ha) r (hruntime.trans hr)

theorem Bound.mono {w w' : List (AttachmentId × RuntimeId)} {d : Delivery} (h : Bound w d)
    (hsub : ∀ p ∈ w, p ∈ w') : Bound w' d :=
  fun a ha r hr => hsub _ (h a ha r hr)

/-- A row pinned to a wake runtime of its own attachment is bound. -/
theorem bound_of_mem {w : List (AttachmentId × RuntimeId)} {d : Delivery} {a : AttachmentId}
    {r : RuntimeId} (ha : ∀ b, d.recipientAttachmentId = some b → b = a)
    (hr : d.runtimeSessionId = some r) (hmem : (a, r) ∈ w) : Bound w d := by
  intro b hb r' hr'
  obtain rfl := ha b hb
  obtain rfl := Option.some.inj (hr.symm.trans hr')
  exact hmem

/-- **The invariant of the wake routes.** -/
structure Inv (s : WakeRouting) : Prop where
  /-- The primary key of the deliveries. -/
  keys : (s.deliveries.map Delivery.key).Nodup
  /-- The primary key of the attachments. -/
  attachmentIds : (s.attachments.map (·.id)).Nodup
  /-- The primary key of the runtimes. -/
  runtimeIds : (s.runtimes.map (·.id)).Nodup
  /-- The current wake runtime is one of the history. -/
  current : ∀ a ∈ s.attachments, (a.id, a.runtimeSessionId) ∈ s.wakeRuntimes
  /-- A wake runtime runs the native thread of its attachment. -/
  thread : ∀ p ∈ s.wakeRuntimes, ∃ a ∈ s.attachments, a.id = p.1 ∧
    ∃ r ∈ s.runtimes, r.id = p.2 ∧ r.nativeSessionId = a.nativeThreadId
  /-- Every delivery is bound. -/
  bound : ∀ d ∈ s.deliveries, Bound s.wakeRuntimes d
  /-- Every captured delivery is bound, and pinned if it is a wake. -/
  captured : ∀ j ∈ s.dispatching.jobs, Bound s.wakeRuntimes j.delivery ∧
    (j.delivery.recipientAttachmentId.isSome → j.delivery.runtimeSessionId.isSome)

theorem Inv.of_initial {s : WakeRouting} (h : Initial s) : Inv s := by
  obtain ⟨hd, hj, -, ha, hr, hw⟩ := h
  constructor <;> simp_all

section Preservation

variable {s : WakeRouting}

/-- Deliveries may change as long as they keep their keys and stay
bound. -/
theorem Inv.withDeliveries (hs : Inv s) {rows : List Delivery}
    (hkeys : (rows.map Delivery.key).Nodup) (hbound : ∀ d ∈ rows, Bound s.wakeRuntimes d) :
    Inv (s.withDeliveries rows) :=
  { hs with keys := hkeys, bound := hbound }

/-- **An in-place update of deliveries** that keeps keys and binds what it
touches keeps the invariant. -/
theorem Inv.update (hs : Inv s) {p : Delivery → Bool} {f : Delivery → Delivery}
    (hkey : ∀ d, (f d).key = d.key)
    (hf : ∀ d ∈ s.deliveries, p d = true → Bound s.wakeRuntimes (f d)) :
    Inv (s.withDeliveries (Rows.update p f s.deliveries)) := by
  refine hs.withDeliveries ?_ fun d hd => ?_
  · rw [Rows.map_update fun d _ => hkey d]
    exact hs.keys
  · obtain ⟨d₀, hd₀, rfl⟩ := Rows.mem_update.mp hd
    by_cases hp : p d₀ = true
    · simpa [hp] using hf d₀ hd₀ hp
    · simpa [hp] using hs.bound d₀ hd₀

theorem Inv.createDelivery (hs : Inv s) {s' : WakeRouting} {messageId : MessageId}
    {recipientId : PrincipalId} {recipient : Recipient}
    (h : s.createDelivery messageId recipientId recipient = some s') : Inv s' := by
  obtain ⟨⟨hfresh, -⟩, rfl⟩ := TransitionSystem.of_guarded h
  refine hs.withDeliveries (List.nodup_cons.mpr ⟨hfresh, hs.keys⟩)
    (List.forall_mem_cons.mpr ⟨?_, hs.bound⟩)
  intro a ha r hr
  cases recipient with
  | other runtime => cases ha
  | cao attachmentId =>
    obtain rfl : attachmentId = some a := ha
    -- the runtime is read off the very attachment the row is bound to
    have hr : s.wakeRuntime recipientId a = some r := hr
    obtain ⟨b, hb, hr⟩ := Option.bind_eq_some_iff.mp hr
    obtain ⟨-, hr⟩ := Option.ite_none_right_eq_some.mp hr
    obtain ⟨rt, hrt, rfl⟩ := Option.map_eq_some_iff.mp hr
    have hid : b.id = a := by simpa using List.find?_some hb
    have hrid : rt.id = b.runtimeSessionId := by
      simpa using List.find?_some (Option.filter_eq_some_iff.mp hrt).1
    have hcurrent := hs.current b (List.mem_of_find?_eq_some hb)
    rwa [hid, ← hrid] at hcurrent

/-- Re-arming what is bound to an attachment, on a runtime of that
attachment. -/
theorem Inv.reactivateCaoSupervisionDeliveries (hs : Inv s) {attachmentId : AttachmentId}
    {runtimeId : RuntimeId} (hmem : (attachmentId, runtimeId) ∈ s.wakeRuntimes)
    (selects : Delivery → Bool) :
    Inv (s.reactivateCaoSupervisionDeliveries attachmentId runtimeId selects) := by
  refine hs.update (fun _ => rfl) fun d _ hd => ?_
  have hattachment : d.recipientAttachmentId = some attachmentId := by simp_all
  exact bound_of_mem (fun b hb => Option.some.inj (hb.symm.trans hattachment)) rfl hmem

theorem Inv.rebindQueued (hs : Inv s) {a : CaoSessionAttachment} {runtimeId : RuntimeId}
    (hmem : (a.id, runtimeId) ∈ s.wakeRuntimes) : Inv (s.rebindQueued a runtimeId) := by
  refine hs.update (fun _ => rfl) fun d _ hd => ?_
  have hattachment : d.recipientAttachmentId = some a.id := by simp_all
  exact bound_of_mem (fun b hb => Option.some.inj (hb.symm.trans hattachment)) rfl hmem

/-- A fact about the wake runtimes survives a new runtime, as long as the
attachments keep their names and threads. -/
theorem Inv.thread_of_keep (hs : Inv s) {attachments : List CaoSessionAttachment}
    {runtimes : List RuntimeSession}
    (hattachments : ∀ a ∈ s.attachments, ∃ b ∈ attachments,
      b.id = a.id ∧ b.nativeThreadId = a.nativeThreadId)
    (hruntimes : ∀ r ∈ s.runtimes, ∃ t ∈ runtimes,
      t.id = r.id ∧ t.nativeSessionId = r.nativeSessionId) :
    ∀ p ∈ s.wakeRuntimes, ∃ a ∈ attachments, a.id = p.1 ∧
      ∃ r ∈ runtimes, r.id = p.2 ∧ r.nativeSessionId = a.nativeThreadId := by
  intro p hp
  obtain ⟨a, ha, hid, r, hr, hrid, hthread⟩ := hs.thread p hp
  obtain ⟨b, hb, hbid, hbthread⟩ := hattachments a ha
  obtain ⟨t, ht, htid, htthread⟩ := hruntimes r hr
  exact ⟨b, hb, hbid.trans hid, t, ht, htid.trans hrid, by rw [htthread, hbthread, hthread]⟩

/-- An update of attachments that keeps names, threads and wake
runtimes, and one of runtimes that keeps names and threads. -/
theorem Inv.updateTables (hs : Inv s) {p : CaoSessionAttachment → Bool}
    {f : CaoSessionAttachment → CaoSessionAttachment} {q : RuntimeSession → Bool}
    {g : RuntimeSession → RuntimeSession}
    (hf : ∀ a, (f a).id = a.id ∧ (f a).nativeThreadId = a.nativeThreadId ∧
      (f a).runtimeSessionId = a.runtimeSessionId)
    (hg : ∀ r, (g r).id = r.id ∧ (g r).nativeSessionId = r.nativeSessionId) :
    Inv { s with
      attachments := Rows.update p f s.attachments, runtimes := Rows.update q g s.runtimes } where
  keys := hs.keys
  attachmentIds := by
    rw [Rows.map_update fun a _ => (hf a).1]
    exact hs.attachmentIds
  runtimeIds := by
    rw [Rows.map_update fun r _ => (hg r).1]
    exact hs.runtimeIds
  current a ha := by
    obtain ⟨a₀, ha₀, rfl⟩ := Rows.mem_update.mp ha
    split
    · rw [(hf a₀).1, (hf a₀).2.2]
      exact hs.current a₀ ha₀
    · exact hs.current a₀ ha₀
  thread := by
    refine hs.thread_of_keep (fun a ha => ?_) fun r hr => ?_
    · refine ⟨_, Rows.mem_update.mpr ⟨a, ha, rfl⟩, ?_⟩
      split
      · exact ⟨(hf a).1, (hf a).2.1⟩
      · exact ⟨rfl, rfl⟩
    · refine ⟨_, Rows.mem_update.mpr ⟨r, hr, rfl⟩, ?_⟩
      split
      · exact hg r
      · exact ⟨rfl, rfl⟩
  bound := hs.bound
  captured := hs.captured

/-- **Replacing the wake runtime** of an attachment keeps the invariant:
the history only grows. -/
theorem Inv.replaceRuntime (hs : Inv s) {a : CaoSessionAttachment} {newId : RuntimeId}
    (ha : ∃ b ∈ s.attachments, b.id = a.id ∧ b.nativeThreadId = a.nativeThreadId)
    (hnew : newId ∉ s.runtimes.map (·.id)) : Inv (s.replaceRuntime a newId) where
  keys := hs.keys
  attachmentIds := by
    have hids : (s.replaceRuntime a newId).attachments.map (·.id) = s.attachments.map (·.id) :=
      Rows.map_update (p := fun b : CaoSessionAttachment => b.id = a.id)
        (f := fun b : CaoSessionAttachment => { b with runtimeSessionId := newId })
        (g := fun b => b.id) (fun _ _ => rfl) s.attachments
    rw [hids]
    exact hs.attachmentIds
  runtimeIds := List.nodup_cons.mpr ⟨hnew, hs.runtimeIds⟩
  current b hb := by
    obtain ⟨b₀, hb₀, rfl⟩ := Rows.mem_update.mp hb
    by_cases hid : b₀.id = a.id
    · simp [hid, WakeRouting.replaceRuntime]
    · have hcurrent := hs.current b₀ hb₀
      exact List.mem_cons_of_mem _ (by simpa [hid] using hcurrent)
  thread := by
    have hattachments : ∀ b ∈ s.attachments, ∃ c ∈ (s.replaceRuntime a newId).attachments,
        c.id = b.id ∧ c.nativeThreadId = b.nativeThreadId := by
      intro b hb
      refine ⟨_, Rows.mem_update.mpr ⟨b, hb, rfl⟩, ?_⟩
      split <;> exact ⟨rfl, rfl⟩
    refine List.forall_mem_cons.mpr ⟨?_, hs.thread_of_keep hattachments fun r hr =>
      ⟨r, List.mem_cons_of_mem _ hr, rfl, rfl⟩⟩
    obtain ⟨b, hb, hid, hthread⟩ := ha
    obtain ⟨c, hc, hcid, hcthread⟩ := hattachments b hb
    exact ⟨c, hc, hcid.trans hid, _, List.mem_cons_self, rfl, (hcthread.trans hthread).symm⟩
  bound d hd := (hs.bound d hd).mono fun _ h => List.mem_cons_of_mem _ h
  captured j hj := ⟨(hs.captured j hj).1.mono fun _ h => List.mem_cons_of_mem _ h,
    (hs.captured j hj).2⟩

theorem Inv.reconcileCaoWakeRoute (hs : Inv s) {attachmentId : AttachmentId} {newId : RuntimeId}
    (hnew : newId ∉ s.runtimes.map (·.id)) (selects : Delivery → Bool) :
    Inv (s.reconcileCaoWakeRoute attachmentId newId selects) := by
  unfold WakeRouting.reconcileCaoWakeRoute
  split
  · exact hs
  · next a hfind =>
    have ha : a ∈ s.attachments := List.mem_of_find?_eq_some hfind
    split
    · split
      · exact hs
      · next r hruntime =>
        have hid : r.id = a.runtimeSessionId := by simpa using List.find?_some hruntime
        split
        · exact hs
        · split
          · exact hs.rebindQueued (hid ▸ hs.current a ha)
          · have hreplaced := hs.replaceRuntime ⟨a, ha, rfl, rfl⟩ hnew
            exact (hreplaced.rebindQueued List.mem_cons_self).reactivateCaoSupervisionDeliveries
              List.mem_cons_self selects
    · exact hs

theorem Inv.openAttachment (hs : Inv s) {attachmentId : AttachmentId}
    {principalId : PrincipalId} {nativeThreadId : NativeThreadId} {leaseSeconds : ℕ}
    {newId : RuntimeId} (hnew : newId ∉ s.runtimes.map (·.id))
    (hattachment : attachmentId ∉ s.attachments.map (·.id)) :
    Inv (s.openAttachment attachmentId principalId nativeThreadId leaseSeconds newId) where
  keys := hs.keys
  attachmentIds := List.nodup_cons.mpr ⟨hattachment, hs.attachmentIds⟩
  runtimeIds := List.nodup_cons.mpr ⟨hnew, hs.runtimeIds⟩
  current := List.forall_mem_cons.mpr ⟨List.mem_cons_self,
    fun a ha => List.mem_cons_of_mem _ (hs.current a ha)⟩
  thread := List.forall_mem_cons.mpr
    ⟨⟨_, List.mem_cons_self, rfl, _, List.mem_cons_self, rfl, rfl⟩,
      hs.thread_of_keep (fun a ha => ⟨a, List.mem_cons_of_mem _ ha, rfl, rfl⟩)
        fun r hr => ⟨r, List.mem_cons_of_mem _ hr, rfl, rfl⟩⟩
  bound d hd := (hs.bound d hd).mono fun _ h => List.mem_cons_of_mem _ h
  captured j hj := ⟨(hs.captured j hj).1.mono fun _ h => List.mem_cons_of_mem _ h,
    (hs.captured j hj).2⟩

/-- A conversation is opened again on a runtime of its own thread. -/
theorem Inv.reopenAttachment (hs : Inv s) {a : CaoSessionAttachment} (ha : a ∈ s.attachments)
    {leaseSeconds : ℕ} {newId : RuntimeId} (hnew : newId ∉ s.runtimes.map (·.id)) :
    Inv (s.reopenAttachment a leaseSeconds newId) := by
  have hreplaced := hs.replaceRuntime (a := { a with leaseExpiresAt := s.now + leaseSeconds })
    ⟨a, ha, rfl, rfl⟩ hnew
  have hupdated := hreplaced.updateTables (p := fun b => b.id = a.id)
    (f := fun b => { b with state := .active, leaseExpiresAt := s.now + leaseSeconds })
    (q := fun _ => false) (g := id) (fun _ => ⟨rfl, rfl, rfl⟩) fun _ => ⟨rfl, rfl⟩
  rwa [Rows.update_eq_self fun _ _ => rfl] at hupdated

theorem Inv.updateAttachments (hs : Inv s) {p : CaoSessionAttachment → Bool}
    {f : CaoSessionAttachment → CaoSessionAttachment}
    (hf : ∀ a, (f a).id = a.id ∧ (f a).nativeThreadId = a.nativeThreadId ∧
      (f a).runtimeSessionId = a.runtimeSessionId) :
    Inv { s with attachments := Rows.update p f s.attachments } := by
  have h := hs.updateTables (p := p) (f := f) (q := fun _ => false) (g := id) hf
    fun _ => ⟨rfl, rfl⟩
  rwa [Rows.update_eq_self fun _ _ => rfl] at h

theorem Inv.updateRuntimes (hs : Inv s) {q : RuntimeSession → Bool}
    {g : RuntimeSession → RuntimeSession}
    (hg : ∀ r, (g r).id = r.id ∧ (g r).nativeSessionId = r.nativeSessionId) :
    Inv { s with runtimes := Rows.update q g s.runtimes } := by
  have h := hs.updateTables (p := fun _ => false) (f := id) (q := q) (g := g)
    (fun _ => ⟨rfl, rfl, rfl⟩) hg
  rwa [Rows.update_eq_self fun _ _ => rfl] at h

/-- **A heartbeat that stays with the attachments of its runtime** keeps
the invariant. -/
theorem Inv.heartbeatRuntime (hs : Inv s) {s' : WakeRouting} {runtimeId : RuntimeId}
    {state : RuntimeState} {leaseSeconds : ℕ} {admits : Delivery → Bool}
    (h : s.heartbeatRuntime runtimeId state leaseSeconds admits = some s')
    (hstays : ∀ r, s.runtime? runtimeId = some r → ∀ d ∈ s.deliveries,
      heartbeatSelects r.principalId admits d = true →
        ∀ a, d.recipientAttachmentId = some a → (a, runtimeId) ∈ s.wakeRuntimes) :
    Inv s' := by
  obtain ⟨runtime, hruntime, rfl⟩ := Option.map_eq_some_iff.mp h
  have hrenewed := hs.updateRuntimes (q := fun r => r.id = runtimeId && !r.state.ended)
    (g := fun r => { r with
      state := if r.state = RuntimeState.busy then .busy else state,
      leaseExpiresAt := s.now + leaseSeconds }) fun _ => ⟨rfl, rfl⟩
  refine hrenewed.update (fun _ => rfl) fun d hd hselect a ha r hr => ?_
  obtain rfl : runtimeId = r := Option.some.inj hr
  exact hstays runtime hruntime d hd hselect a ha

/-- What the pinned claim takes is pinned if it is bound. -/
theorem pinned_of_dispatchable {e : Dispatching.Event} {owner : String} {leaseSeconds : ℕ}
    {q : Delivery.ClaimQuery} (he : pinnedClaim e = .claim owner leaseSeconds q) {d : Delivery}
    (hd : q.dispatchable d = true) (ha : d.recipientAttachmentId.isSome) :
    d.runtimeSessionId.isSome := by
  cases e with
  | claim owner' leaseSeconds' query =>
    obtain ⟨-, -, rfl⟩ := Dispatching.Event.claim.inj he
    have hpin : query.dispatchable d = true ∧
        (!(d.recipientAttachmentId.isSome && d.runtimeSessionId.isNone)) = true :=
      Bool.and_eq_true _ _ ▸ hd
    simpa [ha, Option.isSome_iff_ne_none] using hpin.2
  | _ => cases he

/-- **A step of the dispatchers keeps the invariant**, because a row that
advances keeps its route. -/
theorem Inv.dispatch (hs : Inv s) {e : Dispatching.Event} {d : Dispatching}
    (h : s.dispatching.step (pinnedClaim e) = some d) : Inv { s with dispatching := d } where
  keys := by
    have hadv := Dispatching.advances_of_step hs.keys _ h
    show (d.deliveries.map Delivery.key).Nodup
    rw [Rows.map_eq_of_evolve (fun _ _ hrow => hrow.key) hadv]
    exact hs.keys
  attachmentIds := hs.attachmentIds
  runtimeIds := hs.runtimeIds
  current := hs.current
  thread := hs.thread
  bound row hrow := by
    obtain ⟨row₀, hrow₀, hadv⟩ :=
      Rows.exists_left (Dispatching.advances_of_step hs.keys _ h) hrow
    exact (hs.bound row₀ hrow₀).of_route hadv.route
  captured j hj := by
    rcases Dispatching.captured_of_step hs.keys _ h j hj with
      ⟨i, hi, hij⟩ | ⟨owner, leaseSeconds, q, he, row, hrow, hdispatchable, hcapture⟩
    · rw [← hij]
      exact hs.captured i hi
    · obtain ⟨row₀, hrow₀, hadv⟩ := Rows.exists_left Delivery.advances_resetExpiredLeases hrow
      rw [hcapture]
      refine ⟨((hs.bound row₀ hrow₀).of_route hadv.route).of_route rfl, fun ha => ?_⟩
      exact pinned_of_dispatchable (d := row) he hdispatchable ha

end Preservation

/-! ## Conversations stay apart -/

/-- **The condition on a heartbeat**: every delivery it re-arms and that
is bound to an attachment is bound to one whose wake runtime the beating
runtime is or was. The other steps are not restricted. -/
def HeartbeatStays (s : WakeRouting) : Event → Prop
  | .heartbeat runtimeId _ _ admits => ∀ r, s.runtime? runtimeId = some r → ∀ d ∈ s.deliveries,
      heartbeatSelects r.principalId admits d = true →
        ∀ a, d.recipientAttachmentId = some a → (a, runtimeId) ∈ s.wakeRuntimes
  | _ => True

theorem Inv.step (hs : Inv s) {s' : WakeRouting} (e : Event) (hstays : s.HeartbeatStays e)
    (h : WakeRouting.step s e = some s') : Inv s' := by
  cases e with
  | message messageId recipientId recipient => exact hs.createDelivery h
  | heartbeat runtimeId state leaseSeconds admits => exact hs.heartbeatRuntime h hstays
  | reconcileRoute attachmentId newId selects =>
    obtain ⟨hnew, rfl⟩ := TransitionSystem.of_guarded h
    exact hs.reconcileCaoWakeRoute hnew selects
  | connectionOpened attachmentId selects =>
    obtain ⟨a, ha, rfl⟩ := Option.map_eq_some_iff.mp h
    exact hs.reactivateCaoSupervisionDeliveries (hs.current a (List.mem_of_find?_eq_some ha)) _
  | attach attachmentId principalId nativeThreadId leaseSeconds newId =>
    obtain ⟨⟨hnew, hattachment⟩, rfl⟩ := TransitionSystem.of_guarded h
    exact hs.openAttachment hnew hattachment
  | reopen attachmentId leaseSeconds newId =>
    obtain ⟨a, ha, h⟩ := Option.bind_eq_some_iff.mp h
    obtain ⟨⟨hnew, -⟩, rfl⟩ := TransitionSystem.of_guarded h
    exact hs.reopenAttachment (List.mem_of_find?_eq_some ha) hnew
  | setAttachment attachmentId state leaseExpiresAt =>
    obtain rfl := Option.some.inj h
    exact hs.updateAttachments fun _ => ⟨rfl, rfl, rfl⟩
  | setRuntime runtimeId state leaseExpiresAt =>
    obtain rfl := Option.some.inj h
    exact hs.updateRuntimes fun _ => ⟨rfl, rfl⟩
  | dispatch event =>
    obtain ⟨d, hd, rfl⟩ := Option.map_eq_some_iff.mp h
    exact hs.dispatch hd

theorem inv_of_reachable (hs : (system.restrict HeartbeatStays).Reachable s) : Inv s := by
  refine hs.invariant (I := Inv) (fun _ h => Inv.of_initial h) ?_
  intro s e s' _ hinv hstep
  exact hinv.step e hstep.1 hstep.2

/-- A bound delivery resolves to a runtime of its conversation's native
thread. -/
theorem Inv.native_of_resolve (hs : Inv s) {d : Delivery} (hd : Bound s.wakeRuntimes d)
    {a : CaoSessionAttachment} (ha : a ∈ s.attachments)
    (hattachment : d.recipientAttachmentId = some a.id) {r : RuntimeSession}
    (hr : s.resolveRuntime d = some r) : r.nativeSessionId = a.nativeThreadId := by
  obtain ⟨id, hid, hr⟩ := Option.bind_eq_some_iff.mp hr
  have hfound := (Option.filter_eq_some_iff.mp hr).1
  have hrid : r.id = id := by
    have := List.find?_some hfound
    simp only [Bool.and_eq_true, decide_eq_true_eq] at this
    exact this.1
  obtain ⟨b, hb, hbid, t, ht, htid, hthread⟩ := hs.thread _ (hd a.id hattachment id hid)
  rw [Rows.eq_of_key hs.runtimeIds (List.mem_of_find?_eq_some hfound) ht (hrid.trans htid.symm),
    hthread, Rows.eq_of_key hs.attachmentIds hb ha hbid]

/-- **A wake stays in its conversation.** In every run whose heartbeats
meet `HeartbeatStays`: a live delivery bound to an attachment is pinned
to nothing or to a runtime that is or was the wake runtime of that very
attachment; and what a dispatcher captured for an attachment is pinned,
and resolves to a runtime of the attachment's native thread only. -/
theorem wake_stays_in_conversation (hs : (system.restrict HeartbeatStays).Reachable s) :
    (∀ d ∈ s.deliveries, d.state = .queued ∨ d.state = .leased ∨ d.state = .dispatched →
      ∀ a, d.recipientAttachmentId = some a →
        ∀ r, d.runtimeSessionId = some r → (a, r) ∈ s.wakeRuntimes) ∧
    (∀ j ∈ s.dispatching.jobs, ∀ a ∈ s.attachments, j.delivery.recipientAttachmentId = some a.id →
      j.delivery.runtimeSessionId.isSome ∧
        ∀ r, s.resolveRuntime j.delivery = some r → r.nativeSessionId = a.nativeThreadId) := by
  have hinv := inv_of_reachable hs
  refine ⟨fun d hd _ => hinv.bound d hd, fun j hj a ha hattachment => ?_⟩
  obtain ⟨hbound, hpinned⟩ := hinv.captured j hj
  refine ⟨hpinned (by rw [hattachment]; rfl), fun r hr => ?_⟩
  exact hinv.native_of_resolve hbound ha hattachment hr

/-- Nothing attached, nothing to deliver. -/
def empty : WakeRouting where
  dispatching := ⟨100, [], [], []⟩
  runtimes := []
  attachments := []
  wakeRuntimes := []

theorem empty_initial : Initial empty := ⟨rfl, rfl, rfl, rfl, rfl, rfl⟩

/-- Conversation `1` of the CAO `7` attached on runtime `10`, with its
wake captured by a dispatcher. -/
def captured : WakeRouting where
  dispatching :=
    let wake : Delivery :=
      ⟨30, 7, some 1, .leased, 1, 0, 100, some 10, some 160, "dispatcher-a", "", .terminal⟩
    ⟨100, [wake], [⟨"dispatcher-a", wake, .claimed⟩], []⟩
  runtimes := [⟨10, 7, true, 500, .ready, 160⟩]
  attachments := [⟨1, 7, 10, 500, .active, 160⟩]
  wakeRuntimes := [(1, 10)]

/-- `captured` is reached by attaching, sending and claiming. -/
theorem captured_reachable : (system.restrict HeartbeatStays).Reachable captured := by
  have hstart : (system.restrict HeartbeatStays).Reachable empty := .of_init empty_initial
  have hattached := hstart.next (e := Event.attach 1 7 500 60 10) ⟨trivial, rfl⟩
  have hsent := hattached.next (e := Event.message 30 7 (.cao (some 1))) ⟨trivial, rfl⟩
  exact hsent.next (e := Event.dispatch (.claim "dispatcher-a" 60 ⟨fun _ => true, id⟩))
    ⟨trivial, rfl⟩

/-- The captured wake resolves to the thread of its conversation. -/
theorem wake_stays_in_only_conversation :
    (captured.dispatching.jobs.all fun j =>
      (captured.resolveRuntime j.delivery).all fun r => r.nativeSessionId = 500) = true := by
  rw [List.all_eq_true]
  intro j hj
  obtain rfl := List.mem_singleton.mp hj
  rw [Option.all_eq_true]
  intro r hr
  have hstays := (wake_stays_in_conversation captured_reachable).2 _ List.mem_cons_self
    ⟨1, 7, 10, 500, .active, 160⟩ List.mem_cons_self rfl
  simpa using hstays.2 r hr

/-- Two conversations `1` and `2` of the CAO `7` are attached on runtimes
`10` and `20`. A wake for the first is claimed, its dispatch fails for
good but retryably, and then the runtime of the second beats. -/
def twoConversations : List Event :=
  [.attach 1 7 500 60 10, .attach 2 7 600 60 20, .message 30 7 (.cao (some 1)),
   .dispatch (.claim "dispatcher-a" 60 ⟨fun _ => true, id⟩),
   .dispatch (.preLaunch
     ⟨"dispatcher-a", ⟨30, 7, some 1, .leased, 1, 0, 100, some 10, some 160, "dispatcher-a", "",
       .terminal⟩, .claimed⟩ (.finish 1 "runtime_unavailable" false)),
   .heartbeat 20 .ready 60 fun _ => true]

/-- **A heartbeat of another conversation takes the wake over**: the wake
of the first conversation is queued again, pinned to the runtime of the
second. -/
theorem wake_leaves_conversation :
    ¬ ∀ s, system.Reachable s → ∀ d ∈ s.deliveries,
      d.state = .queued ∨ d.state = .leased ∨ d.state = .dispatched →
        ∀ a, d.recipientAttachmentId = some a →
          ∀ r, d.runtimeSessionId = some r → (a, r) ∈ s.wakeRuntimes := by
  intro h
  have hstart : system.Reachable empty := .of_init empty_initial
  have hrun := TransitionSystem.Reachable.replay twoConversations hstart rfl
  have hmem := h _ hrun _ List.mem_cons_self (.inl rfl) 1 rfl 20 rfl
  revert hmem
  decide

end WakeRouting
