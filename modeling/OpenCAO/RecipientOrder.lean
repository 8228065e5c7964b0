import OpenCAO.CommandLanes

/-!
# The order the read model verifies

The read model verifies what it shows. One of its checks is
`delivery.recipient_order_bypassed`: a leased delivery is reported when an
earlier delivery of its lane is unsettled. The lanes are those of the
dispatcher: a Worker and a runtime, or a CAO and a conversation.

The dispatcher looks at the same earlier deliveries and passes some of them
over. In the lane of a Worker it does not wait for a queued command of a paused
Work. In the lane of a conversation it waits for the transport only: what was
delivered or acknowledged does not hold the next wake back, nor does a hand-off
whose lease has ended and that no runtime executes. A delivery that is leased
over one of these is in order and is reported. It is the same with a delivery
that was dead when a later one was leased, and is re-armed afterwards.

Without these the rows of a lane are orderly in the sense of the general
discipline, with *leased* for held, and the check reports nothing.
-/

/-- **The lanes with what the check and the claim read elsewhere.** -/
structure CheckedLanes where
  /-- The deliveries, their messages and the paused Works. -/
  lanes : CommandLanes
  /-- The principals of the role `cao`. -/
  caos : List PrincipalId
  /-- The runtimes that are busy. -/
  busyRuntimes : List RuntimeId

namespace CheckedLanes

open Delivery

variable (C : CheckedLanes)

/-- The clock. -/
def now : Instant := C.lanes.dispatching.now

/-- The rows of `message_deliveries`. -/
def deliveries : List Delivery := C.lanes.deliveries

/-- The state with other deliveries. -/
def withDeliveries (rows : List Delivery) : CheckedLanes :=
  { C with lanes := C.lanes.withDeliveries rows }

/-! ## The check -/

/-- **`delivery.recipient_order_bypassed`**, for one delivery. -/
def RecipientOrderBypassed (later : Delivery) : Prop :=
  later.state = .leased ∧ ∃ earlier ∈ C.deliveries,
    earlier.recipientId = later.recipientId ∧ earlier.messageId < later.messageId ∧
      earlier.state.unsettled = true ∧
      ((later.recipientId ∈ C.caos ∧
          earlier.recipientAttachmentId = later.recipientAttachmentId) ∨
        (later.recipientId ∉ C.caos ∧ earlier.runtimeSessionId = later.runtimeSessionId))

instance (d : Delivery) : Decidable (C.RecipientOrderBypassed d) := by
  unfold RecipientOrderBypassed
  infer_instance

/-! ## The claim -/

/-- The hand-offs through the runtime of a delivery to its conversation. -/
def dispatchedLike (prior : Delivery) : List Delivery :=
  C.deliveries.filter fun d => d.runtimeSessionId = prior.runtimeSessionId &&
    d.recipientId = prior.recipientId && d.recipientAttachmentId = prior.recipientAttachmentId &&
    d.state = .dispatched && d.ownerToken ≠ ""

/-- The runtime of a delivery executes it: it is busy, and its newest hand-off is of the
same owner. -/
def Executing (prior : Delivery) : Prop :=
  (∃ r ∈ C.busyRuntimes, prior.runtimeSessionId = some r) ∧
    ∃ newest ∈ (C.dispatchedLike prior).maxOn? messageId, prior.ownerToken = newest.ownerToken

instance (prior : Delivery) : Decidable (C.Executing prior) := by
  unfold Executing
  infer_instance

/-- The transport of a hand-off goes on. -/
def InTransit (prior : Delivery) : Prop :=
  prior.state = .dispatched ∧ prior.ownerToken ≠ "" ∧
    ((∃ t ∈ prior.leaseUntil, C.now < t) ∨ C.Executing prior)

instance (prior : Delivery) : Decidable (C.InTransit prior) := by
  unfold InTransit
  infer_instance

/-- **`cao_notification_dispatch_head_sql`.** -/
def CaoNotificationDispatchHead (d : Delivery) : Prop :=
  d.recipientAttachmentId ≠ none ∧ ∀ prior ∈ C.deliveries,
    prior.recipientId = d.recipientId → prior.recipientAttachmentId = d.recipientAttachmentId →
      prior.messageId < d.messageId →
        ¬ (prior.state = .queued ∨ prior.state = .leased ∨ C.InTransit prior)

instance (d : Delivery) : Decidable (C.CaoNotificationDispatchHead d) := by
  unfold CaoNotificationDispatchHead
  infer_instance

/-- The predicate of the lane, by the role of the recipient. -/
def DispatchHead (d : Delivery) : Prop :=
  (d.recipientId ∉ C.caos → C.lanes.LaneHead d) ∧
    (d.recipientId ∈ C.caos → C.CaoNotificationDispatchHead d)

instance (d : Delivery) : Decidable (C.DispatchHead d) := by
  unfold DispatchHead
  infer_instance

/-- The state after the expired leases were reset. -/
def afterReset : CheckedLanes := C.withDeliveries (resetExpiredLeases C.now C.deliveries)

/-- A claim asks for the head of the lane. -/
def claimQuery (query : ClaimQuery) : ClaimQuery :=
  { query with dispatchable := fun d => decide (C.afterReset.DispatchHead d) && query.dispatchable d }

/-- The events of the lanes, as the claim asks for the lane of the recipient. -/
def observed : CommandLanes.Event → CommandLanes.Event
  | .dispatch (.claim owner leaseSeconds query) =>
    .dispatch (.claim owner leaseSeconds (C.claimQuery query))
  | e => e

/-! ## The system -/

/-- **The events.** -/
inductive Event where
  /-- Messages, dispatchers, recipients, pauses and re-arming. -/
  | lanes (e : CommandLanes.Event)
  /-- Runtimes become busy or idle. -/
  | runtimes (busy : List RuntimeId)

/-- Only a delivery to a CAO is bound to a conversation. -/
def Admits : CommandLanes.Event → Prop
  | .send _ recipients => ∀ r ∈ recipients, r.2.1 ≠ none → r.1 ∈ C.caos
  | _ => True

instance (e : CommandLanes.Event) : Decidable (C.Admits e) := by
  unfold Admits
  split <;> infer_instance

/-- **One step.** -/
def step : Event → Option CheckedLanes
  | .lanes e =>
    if C.Admits e then (C.lanes.step (C.observed e)).map fun L => { C with lanes := L } else none
  | .runtimes busy => some { C with busyRuntimes := busy }

/-- **The system.** -/
def system : TransitionSystem CheckedLanes Event := .ofFunction (fun C => C.lanes.Initial) step

/-! ## What the two predicates differ in -/

/-- **The discipline that is verified.** -/
def verified (caos : List PrincipalId) :
    Discipline Delivery (PrincipalId × (Option AttachmentId ⊕ Option RuntimeId)) where
  lane d := (d.recipientId,
    if d.recipientId ∈ caos then .inl d.recipientAttachmentId else .inr d.runtimeSessionId)
  rank := messageId
  Held d := d.state = .leased
  Settled d := d.state.unsettled = false
  not_settled d hheld hsettled := by
    rw [hheld] at hsettled
    cases hsettled

/-- The lane of a delivery. -/
def lane (d : Delivery) : PrincipalId × (Option AttachmentId ⊕ Option RuntimeId) :=
  (verified C.caos).lane d

/-- An earlier delivery of the lane that the check counts and the claim passes over. -/
def PassedOver (prior d : Delivery) : Prop :=
  C.lane prior = C.lane d ∧ prior.messageId < d.messageId ∧
    if d.recipientId ∈ C.caos then
      prior.state = .delivered ∨ prior.state = .acknowledged ∨
        (prior.state = .dispatched ∧ ¬ C.InTransit prior)
    else prior.state = .queued ∧ prior.ownerToken = "" ∧ C.lanes.Paused prior

instance (prior d : Delivery) : Decidable (C.PassedOver prior d) := by
  unfold PassedOver
  infer_instance

/-- The row a claim selects. -/
def selected? (query : ClaimQuery) : Option Delivery :=
  selectQueued C.now (C.lanes.claimQuery (C.claimQuery query)) C.afterReset.deliveries

/-- **Nothing is passed over**: no claim selects a delivery over an earlier one that only
the check counts, and no dead delivery is re-armed below a leased one of its lane. -/
def InOrder : Event → Prop
  | .lanes (.dispatch (.claim _ _ query)) => ∀ d ∈ C.selected? query,
      ∀ prior ∈ C.afterReset.deliveries, ¬ C.afterReset.PassedOver prior d
  | .lanes (.rearm recipientId runtimeId selects) => ∀ d ∈ C.deliveries,
      CommandLanes.rearms recipientId selects d = true → ∀ later ∈ C.deliveries,
        later.state = .leased → C.lane later = C.lane (WakeRouting.rearm C.now runtimeId d) →
          later.messageId ≤ d.messageId
  | _ => True

variable {C} {C' : CheckedLanes}

/-- **The check reports nothing where the rows are orderly.** -/
theorem not_bypassed_iff : (∀ d ∈ C.deliveries, ¬ C.RecipientOrderBypassed d) ↔
    (verified C.caos).Orderly C.deliveries := by
  have hlane : ∀ earlier later : Delivery,
      (verified C.caos).lane earlier = (verified C.caos).lane later ↔
        earlier.recipientId = later.recipientId ∧
          ((later.recipientId ∈ C.caos ∧
              earlier.recipientAttachmentId = later.recipientAttachmentId) ∨
            (later.recipientId ∉ C.caos ∧ earlier.runtimeSessionId = later.runtimeSessionId)) := by
    intro earlier later
    simp only [verified, Prod.mk.injEq, and_congr_right_iff]
    intro hrecipient
    rw [hrecipient]
    by_cases hcao : later.recipientId ∈ C.caos <;> simp [hcao]
  constructor
  · intro h d hd hleased prior hprior hsame hlt
    obtain ⟨hrecipient, hroute⟩ := (hlane prior d).mp hsame
    by_contra hunsettled
    exact h d hd ⟨hleased, prior, hprior, hrecipient, hlt, Bool.not_eq_false _ ▸ hunsettled, hroute⟩
  · rintro h d hd ⟨hleased, prior, hprior, hrecipient, hlt, hunsettled, hroute⟩
    have hsettled := h d hd hleased prior hprior ((hlane prior d).mpr ⟨hrecipient, hroute⟩) hlt
    rw [show prior.state.unsettled = false from hsettled] at hunsettled
    cases hunsettled

/-! ## What a statement does to a row -/

/-- **A row keeps its order**: it keeps its key and its conversation, and moves on in its
lane. -/
structure KeepsOrder (caos : List PrincipalId) (rows : List Delivery) (d d' : Delivery) :
    Prop where
  key : d'.key = d.key
  attachment : d'.recipientAttachmentId = d.recipientAttachmentId
  moves : (verified caos).Moves rows d d'

section Rows

variable {caos : List PrincipalId} {rows : List Delivery} {d d' : Delivery}

theorem KeepsOrder.refl (d : Delivery) : KeepsOrder caos rows d d := ⟨rfl, rfl, .refl d⟩

/-- A row that does not return from being settled, and is leased only if its lane is
settled below it. -/
theorem KeepsOrder.of_runtime (hkey : d'.key = d.key)
    (hattachment : d'.recipientAttachmentId = d.recipientAttachmentId)
    (hruntime : d.recipientId ∉ caos → d'.runtimeSessionId = d.runtimeSessionId)
    (hunsettled : d'.state.unsettled = true → d.state.unsettled = true)
    (hleased : d'.state = .leased → d.state = .leased ∨
      (verified caos).Clear rows ((verified caos).lane d) d.messageId) :
    KeepsOrder caos rows d d' := by
  have hrecipient : d'.recipientId = d.recipientId := congrArg Prod.snd hkey
  refine ⟨hkey, hattachment, fun _ => ?_, fun hsettled => ?_, hleased⟩
  · refine Prod.ext ?_ (congrArg Prod.fst hkey)
    show (d'.recipientId, _) = (d.recipientId, _)
    rw [hrecipient]
    by_cases hcao : d.recipientId ∈ caos
    · rw [if_pos hcao, if_pos hcao, hattachment]
    · rw [if_neg hcao, if_neg hcao, hruntime hcao]
  · show d'.state.unsettled = false
    by_contra hagain
    have := hunsettled (Bool.not_eq_false _ ▸ hagain)
    rw [show d.state.unsettled = false from hsettled] at this
    cases this

/-- A row that stays on its route and is not leased afterwards. -/
theorem KeepsOrder.of_route (hkey : d'.key = d.key) (hroute : d'.route = d.route)
    (hunsettled : d'.state.unsettled = true → d.state.unsettled = true)
    (hleased : d'.state ≠ .leased) : KeepsOrder caos rows d d' :=
  .of_runtime hkey (congrArg Prod.fst hroute) (fun _ => congrArg Prod.snd hroute) hunsettled
    fun h => absurd h hleased

/-- A row a job worked on. -/
theorem KeepsOrder.of_worked (h : Worked d d') : KeepsOrder caos rows d d' := by
  rcases h.work with rfl | ⟨hstate, hleft⟩
  · exact .refl _
  · refine .of_route h.key h.route (fun _ => ?_) fun hleased => ?_
    · rcases hstate with hstate | hstate <;> rw [hstate] <;> rfl
    · rw [hleased] at hleft
      cases hleft

theorem keepsOrder_update {p : Delivery → Bool} {f : Delivery → Delivery}
    (h : ∀ d ∈ rows, p d = true → KeepsOrder caos rows d (f d)) :
    List.Forall₂ (KeepsOrder caos rows) rows (Rows.update p f rows) :=
  Rows.evolve_update_of_mem .refl h

end Rows

/-! ## The invariant -/

/-- **The invariant.** -/
structure Inv (C : CheckedLanes) : Prop where
  /-- The primary key of the table. -/
  keys : (C.deliveries.map Delivery.key).Nodup
  /-- Every delivery is about a message that was stored. -/
  numbered : ∀ d ∈ C.deliveries, d.messageId < C.lanes.messages.length
  /-- Only a delivery to a CAO is bound to a conversation. -/
  attached : ∀ d ∈ C.deliveries, d.recipientAttachmentId ≠ none → d.recipientId ∈ C.caos
  /-- Below a lease its lane is settled. -/
  orderly : (verified C.caos).Orderly C.deliveries

/-- **Rows that keep their order keep the invariant.** -/
theorem Inv.evolve (hC : Inv C) {L : CommandLanes}
    (h : List.Forall₂ (KeepsOrder C.caos C.deliveries) C.deliveries L.deliveries)
    (hmessages : L.messages = C.lanes.messages) : Inv { C with lanes := L } where
  keys := by
    have : L.deliveries.map Delivery.key = C.deliveries.map Delivery.key :=
      Rows.map_eq_of_evolve (fun _ _ hd => hd.key.symm) h
    show (L.deliveries.map Delivery.key).Nodup
    rw [this]
    exact hC.keys
  numbered d' hd' := by
    obtain ⟨d, hd, hkept⟩ := Rows.exists_left h hd'
    have hid : d'.messageId = d.messageId := congrArg Prod.fst hkept.key
    show d'.messageId < L.messages.length
    rw [hid, hmessages]
    exact hC.numbered d hd
  attached d' hd' := by
    obtain ⟨d, hd, hkept⟩ := Rows.exists_left h hd'
    have hrecipient : d'.recipientId = d.recipientId := congrArg Prod.snd hkept.key
    rw [hkept.attachment, hrecipient]
    exact hC.attached d hd
  orderly := hC.orderly.evolve (h.imp fun _ _ hd => hd.moves)

/-- An update of rows, each of which keeps its order. -/
theorem Inv.update (hC : Inv C) {p : Delivery → Bool} {f : Delivery → Delivery}
    (h : ∀ d ∈ C.deliveries, p d = true → KeepsOrder C.caos C.deliveries d (f d)) :
    Inv { C with lanes := C.lanes.withDeliveries (Rows.update p f C.deliveries) } :=
  hC.evolve (keepsOrder_update h) rfl

/-- A row found by its key. -/
theorem Inv.updateRow (hC : Inv C) {id : MessageId} {recipientId : PrincipalId} {d : Delivery}
    (hd : d ∈ C.lanes.delivery? id recipientId) {f : Delivery → Delivery}
    (h : KeepsOrder C.caos C.deliveries d (f d)) :
    Inv { C with lanes := C.lanes.updateRow d f } := by
  refine hC.update fun r hr hkey => ?_
  have hmem : d ∈ C.deliveries := List.mem_of_find?_eq_some hd
  obtain rfl : r = d := Rows.eq_of_key hC.keys hr hmem (of_decide_eq_true hkey)
  exact h

/-- **The head of a lane over which nothing is passed finds the lane settled below it.** -/
theorem Inv.clear_of_head (hC : Inv C) {d : Delivery} (hhead : C.DispatchHead d)
    (hpassed : ∀ prior ∈ C.deliveries, ¬ C.PassedOver prior d) :
    (verified C.caos).Clear C.deliveries (C.lane d) d.messageId := by
  intro prior hprior hlane hlt
  have hrecipient : prior.recipientId = d.recipientId := congrArg Prod.fst hlane
  have hroute := congrArg Prod.snd hlane
  have hnot := hpassed prior hprior
  simp only [PassedOver, not_and] at hnot
  have hnot := hnot hlane hlt
  show prior.state.unsettled = false
  by_contra hunsettled
  have hunsettled : prior.state.unsettled = true := Bool.not_eq_false _ ▸ hunsettled
  simp only [lane, verified, hrecipient] at hroute
  by_cases hcao : d.recipientId ∈ C.caos
  · -- In the lane of a conversation the claim waits for the transport.
    rw [if_pos hcao] at hnot
    rw [if_pos hcao, if_pos hcao] at hroute
    have hwaits := (hhead.2 hcao).2 prior hprior hrecipient (Sum.inl.inj hroute) hlt
    simp only [not_or, not_and, not_not] at hnot hwaits
    cases hstate : prior.state with
    | queued => exact hwaits.1 hstate
    | leased => exact hwaits.2.1 hstate
    | dispatched => exact hwaits.2.2 (hnot.2.2 hstate)
    | delivered => exact hnot.1 hstate
    | acknowledged => exact hnot.2.1 hstate
    | handled | dead =>
      rw [hstate] at hunsettled
      cases hunsettled
  · rw [if_neg hcao] at hnot
    rw [if_neg hcao, if_neg hcao] at hroute
    have hattachment : prior.recipientAttachmentId = none := by
      by_contra hbound
      exact hcao (hrecipient ▸ hC.attached prior hprior hbound)
    refine (hhead.1 hcao).2 prior hprior ⟨hrecipient, hlt, hunsettled, hattachment, hnot,
      Sum.inr.inj hroute⟩

/-! ### The events -/

theorem Inv.acknowledge (hC : Inv C) {id : MessageId} {recipientId : PrincipalId} {closed : Bool}
    {L : CommandLanes} (h : C.lanes.acknowledge id recipientId closed = some L) :
    Inv { C with lanes := L } := by
  obtain ⟨d, hd, h⟩ := Option.bind_eq_some_iff.mp h
  have hkeeps : d.state.unsettled = true →
      KeepsOrder C.caos C.deliveries d (d.settled .acknowledged) := fun hunsettled =>
    .of_route rfl rfl (fun _ => hunsettled) fun h => by cases h
  split at h
  · obtain rfl := Option.some.inj h
    exact hC
  · obtain rfl := Option.some.inj h
    exact hC
  · obtain ⟨-, rfl⟩ := TransitionSystem.of_guarded h
    exact hC.updateRow hd (.of_route rfl rfl (fun h => by cases h) fun h => by cases h)
  all_goals
    rename_i hstate
    obtain ⟨-, rfl⟩ := TransitionSystem.of_guarded h
    refine hC.updateRow hd (hkeeps ?_)
    rw [hstate]
    rfl

theorem Inv.markMessageHandled (hC : Inv C) {id : MessageId} {recipientId : PrincipalId}
    {L : CommandLanes} (h : C.lanes.markMessageHandled id recipientId = some L) :
    Inv { C with lanes := L } := by
  obtain ⟨d, hd, h⟩ := Option.bind_eq_some_iff.mp h
  split at h
  · split at h
    · obtain rfl := Option.some.inj h
      exact hC
    · obtain ⟨-, rfl⟩ := TransitionSystem.of_guarded h
      exact hC.updateRow hd (.of_route rfl rfl (fun h => by cases h) fun h => by cases h)
  · cases h

theorem Inv.resolveDelivery (hC : Inv C) {id : MessageId} {recipientId : PrincipalId}
    {outcome : DeliveryOutcome} {current : Bool} {L : CommandLanes}
    (h : C.lanes.resolveDelivery id recipientId outcome current = some L) :
    Inv { C with lanes := L } := by
  obtain ⟨d, hd, h⟩ := Option.bind_eq_some_iff.mp h
  obtain ⟨hstate, rfl⟩ := TransitionSystem.of_guarded h
  have hunsettled : d.state.unsettled = true := by
    rw [hstate]
    rfl
  refine hC.updateRow hd ?_
  cases outcome with
  | delivered | dead => exact .of_route rfl rfl (fun _ => hunsettled) fun h => by cases h
  | notDelivered =>
    unfold resolved
    split <;> exact .of_route rfl rfl (fun _ => hunsettled) fun h => by cases h

/-- **A new message goes to the end of its lanes.** -/
theorem Inv.send (hC : Inv C) (workItemId : Option WorkId)
    {recipients : List (PrincipalId × Option AttachmentId × Option RuntimeId)}
    (hdistinct : (recipients.map Prod.fst).Nodup)
    (hadmitted : ∀ r ∈ recipients, r.2.1 ≠ none → r.1 ∈ C.caos) :
    Inv { C with lanes := C.lanes.send workItemId recipients } := by
  refine ⟨CommandLanes.keys_send hC.keys hC.numbered workItemId hdistinct,
    CommandLanes.numbered_send hC.numbered workItemId recipients, ?_, ?_⟩
  · intro d hd
    rcases List.mem_append.mp hd with hold | hin
    · exact hC.attached d hold
    · obtain ⟨r, hr, rfl⟩ := List.mem_map.mp hin
      exact hadmitted r hr
  · refine hC.orderly.append (fun d hd hleased => ?_) fun d hd d' hd' => ?_
    · have hstate : d.state = .leased := hleased
      rw [(CommandLanes.of_mem_queuedFor hd).2] at hstate
      cases hstate
    · show d.messageId ≤ d'.messageId
      rw [(CommandLanes.of_mem_queuedFor hd').1]
      exact (hC.numbered d hd).le

/-- **A claim takes the head of a lane**, in two stages: the expired leases are reset,
and then a row is selected. -/
theorem Inv.claim (hC : Inv C) (owner : String) (leaseSeconds : ℕ) (query : ClaimQuery)
    (horder : C.InOrder (.lanes (.dispatch (.claim owner leaseSeconds query)))) {s : Dispatching}
    (h : Dispatching.step C.lanes.dispatching
      (C.lanes.observed (.claim owner leaseSeconds (C.claimQuery query))) = some s) :
    Inv { C with lanes := { C.lanes with dispatching := s } } := by
  obtain rfl := Option.some.inj h
  have hreset : Inv C.afterReset := by
    refine hC.update fun d _ hd => .of_route rfl rfl (fun _ => ?_) fun h => by cases h
    simp only [Bool.and_eq_true, decide_eq_true_eq] at hd
    rw [hd.1]
    rfl
  rcases claimDelivery_selects C.lanes.dispatching.now leaseSeconds owner
    (C.lanes.claimQuery (C.claimQuery query)) hC.keys with hc | ⟨row, hselected, hrow, hqueued, hq, hc⟩
  · refine hreset.evolve (L := { C.lanes with dispatching := _ }) ?_ rfl
    show List.Forall₂ _ _ (claimDelivery _ _ _ _ C.deliveries).1
    rw [hc]
    exact List.forall₂_same.mpr fun d _ => .refl d
  · have hhead : C.afterReset.DispatchHead row := by
      have hquery := (Bool.and_eq_true_iff.mp hq).2
      exact of_decide_eq_true (Bool.and_eq_true_iff.mp hquery).1
    have hclear := hreset.clear_of_head hhead (horder row hselected)
    refine hreset.evolve (L := { C.lanes with dispatching := _ }) ?_ rfl
    show List.Forall₂ _ _ (claimDelivery _ _ _ _ C.deliveries).1
    rw [hc]
    refine keepsOrder_update fun d hd hp => ?_
    simp only [stillQueued, Bool.and_eq_true, decide_eq_true_eq] at hp
    obtain rfl : d = row := Rows.eq_of_key hreset.keys hd hrow hp.1.1
    refine .of_runtime rfl rfl (fun _ => rfl) (fun _ => ?_) fun _ => .inr hclear
    rw [hqueued]
    rfl

theorem Inv.dispatch (hC : Inv C) (e : Dispatching.Event)
    (horder : C.InOrder (.lanes (.dispatch e))) {L : CommandLanes}
    (h : C.lanes.apply (C.observed (.dispatch e)) = some L) : Inv { C with lanes := L } := by
  by_cases hclaim : ∃ owner leaseSeconds query, e = .claim owner leaseSeconds query
  · obtain ⟨owner, leaseSeconds, query, rfl⟩ := hclaim
    have hmap : (Dispatching.step C.lanes.dispatching (C.lanes.observed (.claim owner leaseSeconds
        (C.claimQuery query)))).map (fun d => { C.lanes with dispatching := d }) = some L := h
    obtain ⟨s, hs, rfl⟩ := Option.map_eq_some_iff.mp hmap
    exact hC.claim owner leaseSeconds query horder hs
  · push Not at hclaim
    have hsame : C.observed (.dispatch e) = .dispatch e := by
      cases e with
      | claim owner leaseSeconds query => exact absurd rfl (hclaim owner leaseSeconds query)
      | _ => rfl
    have hsame' : C.lanes.observed e = e := by
      cases e with
      | claim owner leaseSeconds query => exact absurd rfl (hclaim owner leaseSeconds query)
      | _ => rfl
    rw [hsame] at h
    obtain ⟨s, hs, rfl⟩ := Option.map_eq_some_iff.mp h
    rw [hsame'] at hs
    exact hC.evolve ((Dispatching.worked_of_step hC.keys hclaim hs).imp fun _ _ =>
      KeepsOrder.of_worked) rfl

/-- **Re-arming above the leases keeps the order.** -/
theorem Inv.rearm (hC : Inv C) {recipientId : PrincipalId} {runtimeId : RuntimeId}
    {selects : Delivery → Bool} (horder : C.InOrder (.lanes (.rearm recipientId runtimeId selects))) :
    Inv { C with lanes := C.lanes.withDeliveries (Rows.update
      (CommandLanes.rearms recipientId selects) (WakeRouting.rearm C.now runtimeId)
      C.deliveries) } := by
  have hkey : ∀ d, (WakeRouting.rearm C.now runtimeId d).key = d.key := fun _ => rfl
  refine ⟨?_, fun d' hd' => ?_, fun d' hd' => ?_, fun d' hd' hleased prior' hprior' hlane hlt => ?_⟩
  · show ((Rows.update _ _ C.deliveries).map Delivery.key).Nodup
    rw [Rows.map_update fun d _ => hkey d]
    exact hC.keys
  · obtain ⟨d, hd, rfl⟩ := Rows.mem_update.mp hd'
    have hnumbered := hC.numbered d hd
    split <;> exact hnumbered
  · obtain ⟨d, hd, rfl⟩ := Rows.mem_update.mp hd'
    have hattached := hC.attached d hd
    split <;> exact hattached
  · -- What is leased was left alone.
    obtain ⟨d, hd, rfl⟩ := Rows.mem_update.mp hd'
    obtain ⟨prior, hprior, rfl⟩ := Rows.mem_update.mp hprior'
    split at hleased
    · cases hleased
    rename_i hnot
    rw [if_neg hnot] at hlane hlt
    split at hlane
    · rename_i hrearmed
      rw [if_pos hrearmed] at hlt
      have hle := horder prior hprior hrearmed d hd hleased hlane.symm
      exact absurd hlt (not_lt.mpr hle)
    · rename_i hkept
      rw [if_neg hkept] at hlt ⊢
      exact hC.orderly d hd hleased prior hprior hlane hlt

/-- **Every event keeps the invariant** where nothing is passed over. -/
theorem Inv.apply (hC : Inv C) (e : CommandLanes.Event) (horder : C.InOrder (.lanes e))
    (hadmits : C.Admits e) {L : CommandLanes} (h : C.lanes.apply (C.observed e) = some L) :
    Inv { C with lanes := L } := by
  cases e with
  | send workItemId recipients =>
    obtain ⟨hdistinct, rfl⟩ := TransitionSystem.of_guarded h
    exact hC.send workItemId hdistinct hadmits
  | dispatch e => exact hC.dispatch e horder h
  | acknowledge id recipientId closed => exact hC.acknowledge h
  | handle id recipientId => exact hC.markMessageHandled h
  | resolve id recipientId outcome current => exact hC.resolveDelivery h
  | settle selects handled =>
    obtain rfl := Option.some.inj h
    refine hC.update fun d _ hd => .of_route rfl rfl (fun _ => (Bool.and_eq_true_iff.mp hd).1) ?_
    cases handled <;> exact fun h => by cases h
  | incorporate selects =>
    obtain rfl := Option.some.inj h
    exact hC.update fun d _ _ => .of_route rfl rfl (fun h => by cases h) fun h => by cases h
  | rateLimit selects =>
    obtain rfl := Option.some.inj h
    refine hC.update fun d _ hd => .of_route rfl rfl id fun hleased => ?_
    simp only [Bool.and_eq_true, decide_eq_true_eq] at hd
    rw [show d.state = .leased from hleased] at hd
    cases hd.1
  | reroute attachmentId runtimeId =>
    obtain rfl := Option.some.inj h
    refine hC.update fun d hmem hd => ?_
    simp only [Bool.and_eq_true, decide_eq_true_eq] at hd
    -- The lane of a conversation is the same on every runtime.
    refine .of_runtime rfl rfl (fun hworker => absurd (hC.attached d hmem ?_) hworker) id fun h => ?_
    · rw [hd.1]
      exact Option.some_ne_none _
    · rw [show d.state = .leased from h] at hd
      cases hd.2
  | rearm recipientId runtimeId selects =>
    obtain rfl := Option.some.inj h
    exact hC.rearm horder
  | pause id | resume id =>
    obtain rfl := Option.some.inj h
    exact hC.evolve (List.forall₂_same.mpr fun d _ => .refl d) rfl

/-- A step of the lanes was admitted. -/
theorem of_lanes {e : CommandLanes.Event} (h : C.step (.lanes e) = some C') :
    C.Admits e ∧ (C.lanes.step (C.observed e)).map (fun L => { C with lanes := L }) = some C' := by
  by_cases hadmits : C.Admits e
  · exact ⟨hadmits, (if_pos hadmits).symm.trans h⟩
  · exact absurd ((if_neg hadmits).symm.trans h) (fun h => by cases h)

theorem inv_of_reachable (hC : (system.restrict InOrder).Reachable C) : Inv C := by
  refine TransitionSystem.Reachable.invariant (T := system.restrict InOrder) (I := Inv)
    (fun s h => ?_) (fun s e s' _ hs h => ?_) hC
  · have hempty : s.deliveries = [] := h.1
    exact ⟨by simp [hempty], by simp [hempty], by simp [hempty],
      by simp [hempty, Discipline.Orderly]⟩
  · cases e with
    | lanes e =>
      obtain ⟨hadmits, hmap⟩ := of_lanes h.2
      obtain ⟨L, hL, rfl⟩ := Option.map_eq_some_iff.mp hmap
      obtain ⟨t, ht, rfl⟩ := Option.map_eq_some_iff.mp hL
      have hinv := hs.apply e h.1 hadmits ht
      exact ⟨hinv.keys, hinv.numbered, hinv.attached, hinv.orderly⟩
    | runtimes busy =>
      obtain rfl := Option.some.inj h.2
      exact ⟨hs.keys, hs.numbered, hs.attached, hs.orderly⟩

/-- **A reported bypass is a bypass.** In every run in which no claim passes over an
earlier delivery that only the check counts, and none is re-armed below a lease, the check
reports nothing. -/
theorem order_bypasses_real (hC : (system.restrict InOrder).Reachable C) :
    ∀ d ∈ C.deliveries, ¬ C.RecipientOrderBypassed d :=
  not_bypassed_iff.mpr (inv_of_reachable hC).orderly

/-- Two wakes of a conversation, the first of which is read before it is dispatched. -/
def wakes : List Event :=
  [.lanes (.send none [(7, some 1, some 3)]), .lanes (.send none [(7, some 1, some 3)]),
    .lanes (.acknowledge 0 7 false)]

/-- A claim of whatever is due. -/
def claimAny : Event := .lanes (.dispatch (.claim "a" 60 ⟨fun _ => true, id⟩))

/-- Nothing has happened; principal 7 is a CAO. -/
def opening : CheckedLanes := ⟨⟨⟨100, [], [], []⟩, [], [], []⟩, [7], []⟩

/-- **The check reports what the dispatcher leased in order**: the first wake was
acknowledged, so the second is the head of its lane and is leased. -/
theorem order_bypass_reported : ∃ C C', system.Reachable C ∧ C.step claimAny = some C' ∧
    ∃ d ∈ C.afterReset.deliveries, C.afterReset.DispatchHead d ∧
      ∃ d' ∈ C'.deliveries, d'.key = d.key ∧ d'.state = .leased ∧ C'.RecipientOrderBypassed d' := by
  have hopening : system.Reachable opening := .of_init ⟨rfl, rfl, rfl, rfl, rfl, rfl⟩
  refine ⟨_, _, hopening.replay wakes rfl, rfl, ?_⟩
  decide

/-- The first of two wakes is leased, and nothing is reported. -/
theorem order_bypasses_real_wakes : ∃ C, (system.restrict InOrder).Reachable C ∧
    C.deliveries.map Delivery.state = [.leased, .queued] ∧
      ∀ d ∈ C.deliveries, ¬ C.RecipientOrderBypassed d := by
  have hopening : (system.restrict InOrder).Reachable opening :=
    .of_init ⟨rfl, rfl, rfl, rfl, rfl, rfl⟩
  have hfirst := hopening.next (e := wakes.head (by decide)) ⟨trivial, rfl⟩
  have hsecond := hfirst.next (e := wakes.head (by decide)) ⟨trivial, rfl⟩
  have hclaimed := hsecond.next (e := claimAny) ⟨by
    show ∀ d ∈ selected? _ _, ∀ prior ∈ (afterReset _).deliveries, ¬ PassedOver _ prior d
    decide, rfl⟩
  exact ⟨_, hclaimed, rfl, order_bypasses_real hclaimed⟩

end CheckedLanes
