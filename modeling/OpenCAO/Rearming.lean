import OpenCAO.CommandLanes

/-!
# Re-arming

A delivery that used up its attempts is dead, but nobody has read it: it is
*retryable*, and goes back to the queue when its recipient has a runtime
again. A delivery that is closed for any other reason is dead for good. The
difference is one column, which the failure of a dispatch writes and the
re-arming clears; every other statement leaves it, or clears it, whatever the
row was.

The heartbeat of a runtime re-arms what its query selects from the messages, the
Attempts and the epochs of the managed Workers; the supervision of the
conversations re-arms by attachment, and what it reads elsewhere is a
parameter. The tables of the Attempts and the epochs are written by other
transactions, and change as they like.
-/

/-- What is read of a row of `messages`. -/
structure RearmMessage where
  kind : MessageKind
  attemptId : Option RowId
  deriving DecidableEq, Repr

/-- What is read of a row of `attempts`. -/
structure RearmAttempt where
  id : RowId
  workerId : PrincipalId
  runtimeSessionId : Option RuntimeId
  state : AttemptState
  deriving DecidableEq, Repr

/-- **The state of the re-armings.** -/
structure Rearming where
  lanes : CommandLanes
  /-- The messages, in the order of their numbers. -/
  messages : List RearmMessage
  attempts : List RearmAttempt
  /-- The runtimes of the epochs that were retired. -/
  retiredEpochs : List RuntimeId

namespace Delivery

/-- A row that is closed for good. -/
def closed (handled : Bool) (d : Delivery) : Delivery :=
  { settled (if handled then .handled else .dead) d with reactivationPolicy := .terminal }

/-- A rate limit of the provider is noted on a row its recipient has. -/
def noted (d : Delivery) : Delivery :=
  { d with leaseUntil := none, ownerToken := "", lastError := "runtime_provider_rate_limited" }

end Delivery

namespace Rearming

open Delivery

variable (s : Rearming)

/-- The rows of `message_deliveries`. -/
def deliveries : List Delivery := s.lanes.deliveries

/-- The state with other deliveries. -/
def withDeliveries (rows : List Delivery) : Rearming :=
  { s with lanes := s.lanes.withDeliveries rows }

def message? (d : Delivery) : Option RearmMessage := s.messages[d.messageId]?

/-- The Attempt of the message. -/
def attempt? (d : Delivery) : Option RearmAttempt :=
  ((s.message? d).bind RearmMessage.attemptId).bind fun id => s.attempts.find? fun a => a.id = id

/-- **The runtime of the delivery, or of its Attempt, belongs to an epoch that was
retired.** -/
def Retired (d : Delivery) : Prop :=
  ∃ r ∈ s.retiredEpochs, d.runtimeSessionId = some r ∨
    ∃ a ∈ s.attempt? d, a.runtimeSessionId = some r

instance (d : Delivery) : Decidable (s.Retired d) := by
  unfold Retired
  infer_instance

/-- **The Attempt of the message still asks for it**: it has none, it is to be canceled, it
is another's, or it has not ended. -/
def Wanted (d : Delivery) : Prop :=
  ∃ m ∈ s.message? d, m.attemptId = none ∨ m.kind = .cancel ∨
    ∃ a ∈ s.attempt? d, a.workerId ≠ d.recipientId ∨ a.state.terminal = false

instance (d : Delivery) : Decidable (s.Wanted d) := by
  unfold Wanted
  infer_instance

/-- **`_reactivate_deliveries_tx`.** -/
def reactivateDeliveries (principalId : PrincipalId) (runtimeId : RuntimeId) : Rearming :=
  s.withDeliveries (Rows.update
    (CommandLanes.rearms principalId fun d => decide (¬ s.Retired d) && decide (s.Wanted d))
    (WakeRouting.rearm s.lanes.dispatching.now runtimeId) s.deliveries)

/-- The rows of a conversation that its supervision re-arms. -/
def supervises (attachmentId : AttachmentId) (selects : Delivery → Bool) (d : Delivery) : Bool :=
  d.recipientAttachmentId = some attachmentId && d.state = .dead &&
    d.reactivationPolicy = .retryable && selects d

/-- `_reactivate_cao_supervision_deliveries_tx`. -/
def reactivateCaoSupervisionDeliveries (attachmentId : AttachmentId) (runtimeId : RuntimeId)
    (selects : Delivery → Bool) : Rearming :=
  s.withDeliveries (Rows.update (supervises attachmentId selects)
    (WakeRouting.rearm s.lanes.dispatching.now runtimeId) s.deliveries)

/-! ## The system -/

/-- **The events.** -/
inductive Event where
  /-- `_message`. -/
  | send (message : RearmMessage) (workItemId : Option WorkId)
      (recipients : List (PrincipalId × Option AttachmentId × Option RuntimeId))
  /-- A dispatcher, a recipient or a statement that leaves the policy. -/
  | lanes (e : CommandLanes.Event)
  /-- Deliveries are closed for good with what they are about. -/
  | close (selects : Delivery → Bool) (handled : Bool)
  /-- A rate limit of the provider is noticed after the receipt. -/
  | noteRateLimit (selects : Delivery → Bool)
  /-- Other transactions write the Attempts and the epochs. -/
  | others (attempts : List RearmAttempt) (retiredEpochs : List RuntimeId)
  /-- A heartbeat. -/
  | heartbeat (principalId : PrincipalId) (runtimeId : RuntimeId)
  /-- A conversation has a wake runtime again. -/
  | supervision (attachmentId : AttachmentId) (runtimeId : RuntimeId) (selects : Delivery → Bool)

/-- **One step.** Messages are sent with their kind, and re-armed by the queries above. -/
def step : Event → Option Rearming
  | .send message workItemId recipients =>
    (s.lanes.step (.send workItemId recipients)).map fun L =>
      { s with lanes := L, messages := s.messages ++ [message] }
  | .lanes (.send _ _) => none
  | .lanes (.rearm _ _ _) => none
  | .lanes e => (s.lanes.step e).map fun L => { s with lanes := L }
  | .close selects handled =>
    some (s.withDeliveries (Rows.update (fun d => d.state.unsettled && selects d)
      (closed handled) s.deliveries))
  | .noteRateLimit selects =>
    some (s.withDeliveries (Rows.update
      (fun d => (d.state = .acknowledged || d.state = .handled) && selects d) noted s.deliveries))
  | .others attempts retiredEpochs =>
    some { s with attempts := attempts, retiredEpochs := retiredEpochs }
  | .heartbeat principalId runtimeId => some (s.reactivateDeliveries principalId runtimeId)
  | .supervision attachmentId runtimeId selects =>
    some (s.reactivateCaoSupervisionDeliveries attachmentId runtimeId selects)

/-- Nothing has happened. -/
def Initial : Prop := s.lanes.Initial ∧ s.messages = []

/-- **The system of the re-armings.** -/
def system : TransitionSystem Rearming Event := .ofFunction Initial step

end Rearming

/-! ## What a statement does to a row -/

namespace Delivery

variable {d d' : Delivery}

/-- **A row is not re-armed**: a dead row stays or is handled, a handled one stays
handled, and the policy is kept as far as the row does not die. -/
structure Fares (d d' : Delivery) : Prop where
  key : d'.key = d.key
  dead : d.state = .dead → d' = d ∨ d' = incorporated d
  handled : d.state = .handled →
    d'.state = .handled ∧ d'.reactivationPolicy = d.reactivationPolicy
  policy : KeepsPolicy d d'

theorem Fares.refl (d : Delivery) : Fares d d := ⟨rfl, fun _ => .inl rfl, fun h => ⟨h, rfl⟩, .inl rfl⟩

theorem fares_rows (rows : List Delivery) : List.Forall₂ Fares rows rows :=
  List.forall₂_same.mpr fun d _ => .refl d

/-- A row that is neither dead nor handled may become anything. -/
theorem Fares.of_unsettled (hkey : d'.key = d.key) (hunsettled : d.state.unsettled = true)
    (hpolicy : KeepsPolicy d d') : Fares d d' := by
  refine ⟨hkey, fun hdead => ?_, fun hhandled => ?_, hpolicy⟩
  · rw [hdead] at hunsettled
    cases hunsettled
  · rw [hhandled] at hunsettled
    cases hunsettled

theorem Fares.of_tried (h : Tried d d') : Fares d d' := by
  rcases h.worked.work with rfl | ⟨hstate, -⟩
  · exact .refl _
  · refine .of_unsettled h.worked.key ?_ h.policy
    rcases hstate with hstate | hstate <;> rw [hstate] <;> rfl

theorem Fares.of_reclaimed (h : Reclaimed d d') : Fares d d' := by
  rcases h with rfl | ⟨hkey, hold, -, hpolicy⟩
  · exact .refl _
  · refine .of_unsettled hkey ?_ (.inl hpolicy)
    cases hstate : d.state <;> rw [hstate] at hold <;> first | rfl | cases hold

theorem Fares.of_incorporated (hdead : d.state = .dead) : Fares d (incorporated d) := by
  refine ⟨rfl, fun _ => .inr rfl, fun hhandled => ?_, .inl rfl⟩
  rw [hdead] at hhandled
  cases hhandled

theorem fares_update {rows : List Delivery} {p : Delivery → Bool} {f : Delivery → Delivery}
    (h : ∀ d ∈ rows, p d = true → Fares d (f d)) :
    List.Forall₂ Fares rows (Rows.update p f rows) :=
  Rows.evolve_update_of_mem .refl h

end Delivery

namespace CommandLanes

open Delivery

variable {L L' : CommandLanes}

/-- The update of a row that was found. -/
theorem fares_updateRow (hkeys : (L.deliveries.map Delivery.key).Nodup) {id : MessageId}
    {recipientId : PrincipalId} {d : Delivery} (hd : d ∈ L.delivery? id recipientId)
    {f : Delivery → Delivery} (h : Fares d (f d)) :
    List.Forall₂ Fares L.deliveries (L.updateRow d f).deliveries := by
  refine fares_update fun r hr hkey => ?_
  have hmem : d ∈ L.deliveries := List.mem_of_find?_eq_some hd
  obtain rfl : r = d := Rows.eq_of_key hkeys hr hmem (of_decide_eq_true hkey)
  exact h

theorem fares_of_acknowledge (hkeys : (L.deliveries.map Delivery.key).Nodup) {id : MessageId}
    {recipientId : PrincipalId} {closed : Bool}
    (h : L.acknowledge id recipientId closed = some L') :
    List.Forall₂ Fares L.deliveries L'.deliveries ∧ L'.messages = L.messages := by
  obtain ⟨d, hd, h⟩ := Option.bind_eq_some_iff.mp h
  cases hstate : d.state with
  | acknowledged | handled =>
    rw [hstate] at h
    obtain rfl := Option.some.inj h
    exact ⟨fares_rows _, rfl⟩
  | dead =>
    rw [hstate] at h
    obtain ⟨-, rfl⟩ := TransitionSystem.of_guarded h
    exact ⟨fares_updateRow hkeys hd (.of_incorporated hstate), rfl⟩
  | queued | leased | dispatched | delivered =>
    rw [hstate] at h
    obtain ⟨-, rfl⟩ := TransitionSystem.of_guarded h
    refine ⟨fares_updateRow hkeys hd (.of_unsettled rfl ?_ (.inl rfl)), rfl⟩
    rw [hstate]
    rfl

theorem fares_of_handle (hkeys : (L.deliveries.map Delivery.key).Nodup) {id : MessageId}
    {recipientId : PrincipalId} (h : L.markMessageHandled id recipientId = some L') :
    List.Forall₂ Fares L.deliveries L'.deliveries ∧ L'.messages = L.messages := by
  obtain ⟨d, hd, h⟩ := Option.bind_eq_some_iff.mp h
  split at h
  · split at h
    · obtain rfl := Option.some.inj h
      exact ⟨fares_rows _, rfl⟩
    · obtain ⟨hstate, rfl⟩ := TransitionSystem.of_guarded h
      refine ⟨fares_updateRow hkeys hd (.of_unsettled rfl ?_ (.inl rfl)), rfl⟩
      rw [hstate]
      rfl
  · cases h

theorem fares_of_resolve (hkeys : (L.deliveries.map Delivery.key).Nodup) {id : MessageId}
    {recipientId : PrincipalId} {outcome : DeliveryOutcome} {current : Bool}
    (h : L.resolveDelivery id recipientId outcome current = some L') :
    List.Forall₂ Fares L.deliveries L'.deliveries ∧ L'.messages = L.messages := by
  obtain ⟨d, hd, h⟩ := Option.bind_eq_some_iff.mp h
  obtain ⟨hstate, rfl⟩ := TransitionSystem.of_guarded h
  have hunsettled : d.state.unsettled = true := by
    rw [hstate]
    rfl
  refine ⟨fares_updateRow hkeys hd ?_, rfl⟩
  cases outcome with
  | delivered | dead => exact .of_unsettled rfl hunsettled (.inl rfl)
  | notDelivered =>
    unfold resolved
    split <;> exact .of_unsettled rfl hunsettled (.inl rfl)

theorem fares_of_dispatch (hkeys : (L.deliveries.map Delivery.key).Nodup)
    {e : Dispatching.Event} {t : Dispatching}
    (h : Dispatching.step L.dispatching (L.observed e) = some t) :
    List.Forall₂ Fares L.deliveries t.deliveries := by
  by_cases hclaim : ∃ owner leaseSeconds query, e = .claim owner leaseSeconds query
  · obtain ⟨owner, leaseSeconds, query, rfl⟩ := hclaim
    obtain rfl := Option.some.inj h
    exact (reclaimed_of_claim _ leaseSeconds owner (L.claimQuery query) hkeys).imp fun _ _ =>
      Fares.of_reclaimed
  · push Not at hclaim
    have hsame : L.observed e = e := by
      cases e with
      | claim owner leaseSeconds query => exact absurd rfl (hclaim owner leaseSeconds query)
      | tick | crash | preLaunch | reserve | enter | skip | settle | leave => rfl
    rw [hsame] at h
    exact (Dispatching.tried_of_step hkeys hclaim h).imp fun _ _ => Fares.of_tried

/-- **Only a re-arming re-arms.** -/
theorem fares_of_apply (hkeys : (L.deliveries.map Delivery.key).Nodup) {e : Event}
    (hsend : ∀ workItemId recipients, e ≠ .send workItemId recipients)
    (hrearm : ∀ recipientId runtimeId selects, e ≠ .rearm recipientId runtimeId selects)
    (h : L.apply e = some L') :
    List.Forall₂ Fares L.deliveries L'.deliveries ∧ L'.messages = L.messages := by
  cases e with
  | send workItemId recipients => exact absurd rfl (hsend workItemId recipients)
  | rearm recipientId runtimeId selects => exact absurd rfl (hrearm recipientId runtimeId selects)
  | dispatch e =>
    obtain ⟨t, ht, rfl⟩ := Option.map_eq_some_iff.mp h
    exact ⟨fares_of_dispatch hkeys ht, rfl⟩
  | acknowledge id recipientId closed => exact fares_of_acknowledge hkeys h
  | handle id recipientId => exact fares_of_handle hkeys h
  | resolve id recipientId outcome current => exact fares_of_resolve hkeys h
  | settle selects handled =>
    obtain rfl := Option.some.inj h
    exact ⟨fares_update fun d _ hd => .of_unsettled rfl (Bool.and_eq_true_iff.mp hd).1 (.inl rfl), rfl⟩
  | incorporate selects =>
    obtain rfl := Option.some.inj h
    refine ⟨fares_update fun d _ hd => .of_incorporated ?_, rfl⟩
    exact of_decide_eq_true (Bool.and_eq_true_iff.mp hd).1
  | rateLimit selects =>
    obtain rfl := Option.some.inj h
    refine ⟨fares_update fun d _ hd => .of_unsettled rfl ?_ (.inl rfl), rfl⟩
    rw [of_decide_eq_true (Bool.and_eq_true_iff.mp hd).1]
    rfl
  | reroute attachmentId runtimeId =>
    obtain rfl := Option.some.inj h
    refine ⟨fares_update fun d _ hd => .of_unsettled rfl ?_ (.inl rfl), rfl⟩
    rw [of_decide_eq_true (Bool.and_eq_true_iff.mp hd).2]
    rfl
  | pause id | resume id =>
    obtain rfl := Option.some.inj h
    exact ⟨fares_rows _, rfl⟩

end CommandLanes

namespace Rearming

open Delivery

variable {s s' : Rearming} {e : Event} {d d' : Delivery}

/-! ## Steps -/

/-- **What a re-arming asks of a row.** -/
def Event.Rearms (s : Rearming) (d : Delivery) : Event → Prop
  | .heartbeat principalId _ => d.recipientId = principalId ∧ ¬ s.Retired d ∧ s.Wanted d
  | .supervision attachmentId _ _ => d.recipientAttachmentId = some attachmentId
  | _ => False

/-- **What one step does to a row.** -/
def Moved (s : Rearming) (e : Event) (d d' : Delivery) : Prop :=
  Fares d d' ∨ (d.state = .dead ∧ d.reactivationPolicy = .retryable ∧ e.Rearms s d ∧
    ∃ now runtimeId, d' = WakeRouting.rearm now runtimeId d)

theorem Moved.key (h : Moved s e d d') : d'.key = d.key := by
  rcases h with hfares | ⟨-, -, -, now, runtimeId, rfl⟩
  · exact hfares.key
  · rfl

/-- **The invariant**: the deliveries have their primary key and are about messages that
were stored, and what may be re-armed is dead, or was and is handled. -/
structure Inv (s : Rearming) : Prop where
  keys : (s.deliveries.map Delivery.key).Nodup
  numbered : ∀ d ∈ s.deliveries, d.messageId < s.lanes.messages.length
  retryable : ∀ d ∈ s.deliveries, d.reactivationPolicy = .retryable →
    d.state = .dead ∨ d.state = .handled

/-- A row that fares on keeps the invariant. -/
theorem retryable_of_moved (hd : d.reactivationPolicy = .retryable → d.state = .dead ∨ d.state = .handled)
    (h : Moved s e d d') (hretryable : d'.reactivationPolicy = .retryable) :
    d'.state = .dead ∨ d'.state = .handled := by
  rcases h with hfares | ⟨-, -, -, now, runtimeId, rfl⟩
  · rcases hfares.policy with hsame | hterminal | hdead
    · rcases hd (hsame.symm.trans hretryable) with hdead | hhandled
      · rcases hfares.dead hdead with rfl | rfl
        · exact .inl hdead
        · exact .inr rfl
      · exact .inr (hfares.handled hhandled).1
    · rw [hterminal] at hretryable
      cases hretryable
    · exact .inl hdead
  · cases hretryable

/-- The rows of a state whose other tables do not matter. -/
theorem Inv.moved (hs : Inv s) (hmessages : s'.lanes.messages = s.lanes.messages)
    (hrows : List.Forall₂ (Moved s e) s.deliveries s'.deliveries) : Inv s' where
  keys := by
    have : s'.deliveries.map Delivery.key = s.deliveries.map Delivery.key :=
      Rows.map_eq_of_evolve (fun _ _ hd => hd.key.symm) hrows
    rw [this]
    exact hs.keys
  numbered d' hd' := by
    obtain ⟨d, hd, hmoved⟩ := Rows.exists_left hrows hd'
    have hid : d'.messageId = d.messageId := congrArg Prod.fst hmoved.key
    rw [hid, hmessages]
    exact hs.numbered d hd
  retryable d' hd' := by
    obtain ⟨d, hd, hmoved⟩ := Rows.exists_left hrows hd'
    exact retryable_of_moved (hs.retryable d hd) hmoved

/-- The re-arming of the rows that a query selects. -/
theorem moved_rearm {p : Delivery → Bool} (now : Instant) (runtimeId : RuntimeId)
    (h : ∀ d ∈ s.deliveries, p d = true →
      d.state = .dead ∧ d.reactivationPolicy = .retryable ∧ e.Rearms s d) :
    List.Forall₂ (Moved s e) s.deliveries
      (Rows.update p (WakeRouting.rearm now runtimeId) s.deliveries) := by
  refine Rows.evolve_update_of_mem (fun d => .inl (.refl d)) fun d hd hp => .inr ?_
  obtain ⟨hdead, hretryable, hrearms⟩ := h d hd hp
  exact ⟨hdead, hretryable, hrearms, now, runtimeId, rfl⟩

/-- **One step**: the rows are moved, and new ones are queued and not to be re-armed. -/
theorem moved_of_step (hs : Inv s) (h : s.step e = some s') :
    Inv s' ∧ ∃ rows new, s'.deliveries = rows ++ new ∧
      List.Forall₂ (Moved s e) s.deliveries rows ∧ ∀ d ∈ new, d.state = .queued := by
  have hsame : s'.lanes.messages = s.lanes.messages →
      List.Forall₂ (Moved s e) s.deliveries s'.deliveries →
      Inv s' ∧ ∃ rows new, s'.deliveries = rows ++ new ∧
        List.Forall₂ (Moved s e) s.deliveries rows ∧ ∀ d ∈ new, d.state = .queued :=
    fun hmessages hrows => ⟨hs.moved hmessages hrows, s'.deliveries, [], (List.append_nil _).symm,
      hrows, fun d hd => (by cases hd)⟩
  have hfares : s'.lanes.messages = s.lanes.messages →
      List.Forall₂ Fares s.deliveries s'.deliveries → _ :=
    fun hmessages hrows => hsame hmessages (hrows.imp fun _ _ => .inl)
  cases e with
  | send message workItemId recipients =>
    obtain ⟨L, hL, rfl⟩ := Option.map_eq_some_iff.mp h
    obtain ⟨t, ht, rfl⟩ := Option.map_eq_some_iff.mp hL
    obtain ⟨hdistinct, rfl⟩ := TransitionSystem.of_guarded ht
    refine ⟨⟨CommandLanes.keys_send hs.keys hs.numbered workItemId hdistinct,
      CommandLanes.numbered_send hs.numbered workItemId recipients, ?_⟩, s.deliveries, _, rfl,
      List.forall₂_same.mpr fun d _ => .inl (.refl d),
      fun d hd => (CommandLanes.of_mem_queuedFor hd).2⟩
    intro d hd hretryable
    rcases List.mem_append.mp hd with hold | hin
    · exact hs.retryable d hold hretryable
    · obtain ⟨r, -, rfl⟩ := List.mem_map.mp hin
      cases hretryable
  | lanes e =>
    have hlanes : (∀ workItemId recipients, e ≠ .send workItemId recipients) ∧
        (∀ recipientId runtimeId selects, e ≠ .rearm recipientId runtimeId selects) ∧
        (s.lanes.step e).map (fun L => { s with lanes := L }) = some s' := by
      cases e with
      | send | rearm => cases h
      | dispatch | acknowledge | handle | resolve | settle | incorporate | rateLimit | reroute
      | pause | resume =>
        refine ⟨?_, ?_, h⟩
        · intro _ _ heq
          cases heq
        · intro _ _ _ heq
          cases heq
    obtain ⟨hsend, hrearm, hmap⟩ := hlanes
    obtain ⟨L, hL, rfl⟩ := Option.map_eq_some_iff.mp hmap
    obtain ⟨t, ht, rfl⟩ := Option.map_eq_some_iff.mp hL
    obtain ⟨hrows, hmessages⟩ := CommandLanes.fares_of_apply hs.keys hsend hrearm ht
    exact hfares hmessages hrows
  | close selects handled =>
    obtain rfl := Option.some.inj h
    exact hfares rfl (fares_update fun d _ hd =>
      .of_unsettled rfl (Bool.and_eq_true_iff.mp hd).1 (.inr (.inl rfl)))
  | noteRateLimit selects =>
    obtain rfl := Option.some.inj h
    refine hfares rfl (fares_update fun d _ hd => ⟨rfl, fun hdead => ?_, fun h => ⟨h, rfl⟩, .inl rfl⟩)
    rw [hdead] at hd
    cases hd
  | others attempts retiredEpochs =>
    obtain rfl := Option.some.inj h
    exact hfares rfl (fares_rows _)
  | heartbeat principalId runtimeId =>
    obtain rfl := Option.some.inj h
    refine hsame rfl (moved_rearm _ runtimeId fun d _ hd => ?_)
    simp only [CommandLanes.rearms, Bool.and_eq_true, decide_eq_true_eq] at hd
    exact ⟨hd.1.1.2, hd.1.2, hd.1.1.1, hd.2.1, hd.2.2⟩
  | supervision attachmentId runtimeId selects =>
    obtain rfl := Option.some.inj h
    refine hsame rfl (moved_rearm _ runtimeId fun d _ hd => ?_)
    simp only [supervises, Bool.and_eq_true, decide_eq_true_eq] at hd
    exact ⟨hd.1.1.2, hd.1.2, hd.1.1.1⟩

theorem inv_of_reachable (hs : system.Reachable s) : Inv s := by
  refine TransitionSystem.Reachable.invariant (T := system) (I := Inv) (fun s h => ?_)
    (fun s e s' _ hs h => (moved_of_step hs h).1) hs
  have hempty : s.deliveries = [] := h.1.1
  exact ⟨by simp [hempty], by simp [hempty], by simp [hempty]⟩

/-- The row under a key is moved by a step. -/
theorem moved_of_key (hs : Inv s) (h : s.step e = some s') (hd : d ∈ s.deliveries)
    (hd' : d' ∈ s'.deliveries) (hkey : d'.key = d.key) : Moved s e d d' := by
  obtain ⟨hs', rows, new, hrows, hmoved, -⟩ := moved_of_step hs h
  obtain ⟨d'', hd'', hmove⟩ := Rows.exists_right hmoved hd
  have hmem : d'' ∈ s'.deliveries := hrows ▸ List.mem_append_left new hd''
  obtain rfl : d'' = d' := Rows.eq_of_key hs'.keys hmem hd' (hmove.key.trans hkey.symm)
  exact hmove

/-! ## Runs -/

/-- **A step re-arms a row**: it was dead, and is queued. -/
def Rearmed (s s' : Rearming) (d d' : Delivery) : Prop :=
  d ∈ s.deliveries ∧ d' ∈ s'.deliveries ∧ d'.key = d.key ∧ d.state = .dead ∧ d'.state = .queued

/-- **A row dies in a step, and may be re-armed.** -/
def Died (s s' : Rearming) (d : Delivery) : Prop :=
  d ∈ s'.deliveries ∧ d.state = .dead ∧ d.reactivationPolicy = .retryable ∧
    ∃ r ∈ s.deliveries, r.key = d.key ∧ r.state ≠ .dead

/-- A row that is re-armed. -/
theorem of_rearmed (hs : Inv s) (h : s.step e = some s') (hrearmed : Rearmed s s' d d') :
    d.reactivationPolicy = .retryable ∧ d.generation < d'.generation ∧ e.Rearms s d := by
  obtain ⟨hd, hd', hkey, hdead, hqueued⟩ := hrearmed
  rcases moved_of_key hs h hd hd' hkey with hfares | ⟨-, hretryable, hrearms, now, runtimeId, rfl⟩
  · rcases hfares.dead hdead with rfl | rfl
    · rw [hdead] at hqueued
      cases hqueued
    · cases hqueued
  · exact ⟨hretryable, Nat.lt_succ_self _, hrearms⟩

/-- **What is dead died**: a run that enters with the row in another form, or without it,
has a step in which it died, in the form it has now. -/
theorem died_of_runs (hs : system.Reachable s) (hruns : system.Runs s s') (hold : d ∉ s.deliveries)
    (hd : d ∈ s'.deliveries) (hdead : d.state = .dead)
    (hretryable : d.reactivationPolicy = .retryable) :
    ∃ u e v, system.Runs s u ∧ u.step e = some v ∧ Died u v d ∧ system.Runs v s' := by
  obtain ⟨u, e, v, hpre, hu, hstep, hv, hpost⟩ := hruns.begins (P := fun s => d ∈ s.deliveries) hold hd
  refine ⟨u, e, v, hpre, hstep, ⟨hv, hdead, hretryable, ?_⟩, hpost⟩
  have hinv := inv_of_reachable (hs.runs hpre)
  obtain ⟨-, rows, new, hrows, hmoved, hnew⟩ := moved_of_step hinv hstep
  rw [hrows] at hv
  rcases List.mem_append.mp hv with hin | hin
  · obtain ⟨r, hr, hmove⟩ := Rows.exists_left hmoved hin
    refine ⟨r, hr, hmove.key.symm, fun hrdead => ?_⟩
    rcases hmove with hfares | ⟨-, -, -, now, runtimeId, rfl⟩
    · rcases hfares.dead hrdead with rfl | rfl
      · exact hu hr
      · cases hdead
    · cases hdead
  · have hqueued := hnew d hin
    rw [hdead] at hqueued
    cases hqueued

/-- **What is dead for good is not re-armed**, whatever follows. -/
theorem closed_of_runs (hs : system.Reachable s) (hruns : system.Runs s s') (hd : d ∈ s.deliveries)
    (hdead : d.state = .dead) (hterminal : d.reactivationPolicy = .terminal) :
    ∃ d' ∈ s'.deliveries, d'.key = d.key ∧ (d' = d ∨ d'.state = .handled) := by
  -- a row that is dead for good, or handled, stays so
  have hstays : ∀ d ∈ s.deliveries, (d.state = .dead ∧ d.reactivationPolicy = .terminal) ∨
      d.state = .handled → ∃ d' ∈ s'.deliveries, d'.key = d.key ∧ (d' = d ∨ d'.state = .handled) := by
    refine TransitionSystem.Runs.lift (T := system) (R := fun s s' => ∀ d ∈ s.deliveries,
      (d.state = .dead ∧ d.reactivationPolicy = .terminal) ∨ d.state = .handled →
        ∃ d' ∈ s'.deliveries, d'.key = d.key ∧ (d' = d ∨ d'.state = .handled))
      (fun s d hd _ => ⟨d, hd, rfl, .inl rfl⟩) (fun h h' d hd hclosed => ?_) ?_ hs hruns
    · obtain ⟨d₁, hd₁, hkey, hsame⟩ := h d hd hclosed
      rcases hsame with rfl | hhandled
      · exact h' d₁ hd₁ hclosed
      · obtain ⟨d₂, hd₂, hkey', hsame'⟩ := h' d₁ hd₁ (.inr hhandled)
        refine ⟨d₂, hd₂, hkey'.trans hkey, .inr ?_⟩
        rcases hsame' with rfl | hhandled'
        · exact hhandled
        · exact hhandled'
    · intro s e s' hreach hstep d hd hclosed
      obtain ⟨-, rows, new, hrows, hmoved, -⟩ := moved_of_step (inv_of_reachable hreach) hstep
      obtain ⟨d', hd', hmove⟩ := Rows.exists_right hmoved hd
      refine ⟨d', hrows ▸ List.mem_append_left new hd', hmove.key, ?_⟩
      rcases hmove with hfares | ⟨hdead, hretryable, -, -, -, -⟩
      · rcases hclosed with ⟨hdead, -⟩ | hhandled
        · rcases hfares.dead hdead with rfl | rfl
          · exact .inl rfl
          · exact .inr rfl
        · exact .inr (hfares.handled hhandled).1
      · rcases hclosed with ⟨-, hterminal⟩ | hhandled
        · rw [hretryable] at hterminal
          cases hterminal
        · rw [hdead] at hhandled
          cases hhandled
  exact hstays d hd (.inl ⟨hdead, hterminal⟩)

/-- Nothing has happened; the Attempt of Work 0 was canceled. -/
def beginning : Rearming :=
  { lanes := ⟨⟨100, [], [], []⟩, [], [], []⟩
    messages := []
    attempts := [⟨⟨0, 0⟩, 8, some 3, .canceled⟩]
    retiredEpochs := [] }

/-- Its Worker is told, and the only attempt to dispatch this fails. -/
def failedCancel : List Event :=
  [.send ⟨.cancel, some ⟨0, 0⟩⟩ (some 0) [(8, none, some 3)],
    .lanes (.dispatch (.claim "a" 60 ⟨fun _ => true, fun id => id⟩)),
    .lanes (.dispatch (.preLaunch
      ⟨"a", ⟨0, 8, none, .leased, 1, 0, 100, some 3, some 160, "a", "", .terminal⟩, .claimed⟩
      (.finish 1 "runtime" false)))]

theorem reachable_beginning : system.Reachable beginning :=
  .of_init ⟨⟨rfl, rfl, rfl, rfl, rfl, rfl⟩, rfl⟩

end Rearming
