import OpenCAO.LaunchEpochs
import OpenCAO.WorkerThreads

/-!
# Routes that have been left

Whatever is done about launches, the runtime of a managed Worker that is over stays over, and so
does an enrollment: `Onward`. A runtime that is not managed is set to whatever its adapter
reports, so that nothing of the kind is true of it. The operations on threads write the same
tables with statements of their own, and these keep the invariant of the launches as well:
a route that is left has no authority and gets none.
-/

namespace Launches

variable {σ : Settings} {a b s t : Store}

/-- The runtime is one of a managed Worker. -/
def Managed (s : Store) (runtimeId : String) : Prop :=
  ∃ e ∈ s.enrollments.rows, e.runtime = runtimeId ∧ e.managed = true

/-- **What is over stays over.** -/
structure Onward (a b : Store) : Prop where
  runtimes : ∀ r ∈ a.runtimes.rows, ∃ r' ∈ b.runtimes.rows, r'.id = r.id ∧
    (Managed a r.id → r.state.Over → r'.state.Over)
  enrollments : ∀ e ∈ a.enrollments.rows, ∃ e' ∈ b.enrollments.rows, e'.id = e.id ∧
    e'.runtime = e.runtime ∧ e'.managed = e.managed ∧ (e.state.Terminal → e'.state.Terminal)

theorem Onward.refl (a : Store) : Onward a a :=
  ⟨fun r hr => ⟨r, hr, rfl, fun _ h => h⟩, fun e he => ⟨e, he, rfl, rfl, rfl, fun h => h⟩⟩

/-- A managed runtime stays one. -/
theorem Onward.managed (h : Onward a b) {runtimeId : String} (hmanaged : Managed a runtimeId) :
    Managed b runtimeId := by
  obtain ⟨e, he, hruntime, hmanaged⟩ := hmanaged
  obtain ⟨e', he', -, hruntime', hmanaged', -⟩ := h.enrollments e he
  exact ⟨e', he', hruntime'.trans hruntime, hmanaged'.trans hmanaged⟩

theorem Onward.trans {c : Store} (hab : Onward a b) (hbc : Onward b c) : Onward a c := by
  refine ⟨fun r hr => ?_, fun e he => ?_⟩
  · obtain ⟨r', hr', hid, hover⟩ := hab.runtimes r hr
    obtain ⟨r'', hr'', hid', hover'⟩ := hbc.runtimes r' hr'
    exact ⟨r'', hr'', hid'.trans hid, fun hmanaged h =>
      hover' (hid ▸ hab.managed hmanaged) (hover hmanaged h)⟩
  · obtain ⟨e', he', hid, hruntime, hmanaged, hover⟩ := hab.enrollments e he
    obtain ⟨e'', he'', hid', hruntime', hmanaged', hover'⟩ := hbc.enrollments e' he'
    exact ⟨e'', he'', hid'.trans hid, hruntime'.trans hruntime, hmanaged'.trans hmanaged,
      fun h => hover' (hover h)⟩

/-! ## Statements -/

/-- An update of a runtime that is over leaves it over. -/
structure Runtime.Remains (r r' : Runtime) : Prop where
  id : r'.id = r.id
  ended : r.state.Over → r'.state.Over

/-- An update of an enrollment leaves it where it is. -/
structure Enrollment.Remains (e e' : Enrollment) : Prop where
  id : e'.id = e.id
  runtime : e'.runtime = e.runtime
  managed : e'.managed = e.managed
  ended : e.state.Terminal → e'.state.Terminal

theorem Enrollment.Remains.refl (e : Enrollment) : Enrollment.Remains e e :=
  ⟨rfl, rfl, rfl, fun h => h⟩

theorem onward_runtimes {f : Runtime → Runtime} (hf : ∀ r, Runtime.Remains r (f r))
    {runtimes : UniqueRows Runtime Runtime.Clash} (h : runtimes.rows = s.runtimes.rows.map f) :
    Onward s { s with runtimes := runtimes } := by
  refine ⟨fun r hr => ⟨f r, ?_, (hf r).id, fun _ => (hf r).ended⟩, (Onward.refl s).enrollments⟩
  show _ ∈ runtimes.rows
  rw [h]
  exact List.mem_map_of_mem hr

theorem onward_enrollments {f : Enrollment → Enrollment}
    (hf : ∀ e ∈ s.enrollments.rows, Enrollment.Remains e (f e))
    {enrollments : UniqueRows Enrollment Enrollment.Clash}
    (h : enrollments.rows = s.enrollments.rows.map f) :
    Onward s { s with enrollments := enrollments } := by
  refine ⟨(Onward.refl s).runtimes, fun e he => ⟨f e, ?_, (hf e he).id, (hf e he).runtime,
    (hf e he).managed, (hf e he).ended⟩⟩
  show _ ∈ enrollments.rows
  rw [h]
  exact List.mem_map_of_mem he

theorem updateRuntimes_onward {f : Runtime → Runtime} (hf : ∀ r, Runtime.Remains r (f r)) :
    Tx.Makes Onward s (updateRuntimes f) :=
  .single ((updateRuntimes_ensures f).mono fun _ _ ⟨_, hrows, h⟩ =>
    h ▸ onward_runtimes hf hrows)

theorem updateEnrollments_onward {f : Enrollment → Enrollment}
    (hf : ∀ e ∈ s.enrollments.rows, Enrollment.Remains e (f e)) :
    Tx.Makes Onward s (updateEnrollments f) :=
  .single ((updateEnrollments_ensures f).mono fun _ _ ⟨_, hrows, h⟩ =>
    h ▸ onward_enrollments hf hrows)

/-- Tickets and credentials are not looked at. -/
theorem onward_of_eq (hruntimes : t.runtimes = s.runtimes)
    (henrollments : t.enrollments = s.enrollments) : Onward s t := by
  refine ⟨?_, ?_⟩
  · rw [hruntimes]
    exact (Onward.refl s).runtimes
  · rw [henrollments]
    exact (Onward.refl s).enrollments

theorem insertTicket_onward (u : Ticket) : Tx.Makes Onward s (insertTicket u) :=
  .single ((insertTicket_ensures u).mono fun _ _ ⟨_, _, h⟩ => h ▸ onward_of_eq rfl rfl)

theorem updateTickets_onward (f : Ticket → Ticket) :
    Tx.Makes Onward s (updateTickets f) :=
  .single ((updateTickets_ensures f).mono fun _ _ ⟨_, _, h⟩ => h ▸ onward_of_eq rfl rfl)

theorem updateCredentials_onward (f : Credential → Credential) :
    Tx.Makes Onward s (updateCredentials f) :=
  .single ((updateCredentials_ensures f).mono fun _ _ ⟨_, _, h⟩ =>
    h ▸ onward_of_eq rfl rfl)

theorem insertRuntime_onward (r : Runtime) : Tx.Makes Onward s (insertRuntime r) := by
  refine .single ((insertRuntime_ensures r).mono fun _ _ ⟨runtimes, hinsert, h⟩ => ?_)
  rw [h]
  exact ⟨fun r' hr' => ⟨r', UniqueRows.mem_insert_of_mem hinsert hr', rfl, fun _ h => h⟩,
    (Onward.refl s).enrollments⟩

theorem insertEnrollment_onward (e : Enrollment) :
    Tx.Makes Onward s (insertEnrollment e) := by
  refine .single ((insertEnrollment_ensures e).mono
    fun _ _ ⟨enrollments, hinsert, h⟩ => ?_)
  rw [h]
  exact ⟨(Onward.refl s).runtimes, fun e' he' => ⟨e', UniqueRows.mem_insert_of_mem hinsert he',
    rfl, rfl, rfl, fun h => h⟩⟩

/-! ## The operations on launches -/

theorem setState_remains (id : String) {state : RuntimeState}
    (hstate : state.Over) (r : Runtime) :
    Runtime.Remains r (Runtime.setState id state r) := by
  unfold Runtime.setState
  split
  · exact ⟨rfl, fun _ => hstate⟩
  · exact ⟨rfl, fun h => h⟩

/-- An update of runtimes that are not over. -/
theorem remains_of_alive {p : Prop} [Decidable p] {r r' : Runtime} (hid : r'.id = r.id)
    (hp : p → ¬ r.state.Over) :
    Runtime.Remains r (if p then r' else r) := by
  split
  case isTrue h => exact ⟨hid, fun hover => absurd hover (hp h)⟩
  case isFalse => exact ⟨rfl, fun h => h⟩

theorem ended_remains (id : String) {state : EnrollmentState} (hstate : state.Terminal)
    (e : Enrollment) : Enrollment.Remains e (Enrollment.ended id state e) := by
  unfold Enrollment.ended
  split
  · exact ⟨rfl, rfl, rfl, fun _ => hstate⟩
  · exact .refl e

theorem enroll_onward (c : EnrollCall) : Tx.Makes Onward s (enroll σ c) := by
  unfold enroll
  exact .bind (insertRuntime_onward _) fun _ t _ => insertEnrollment_onward _

theorem launchable_alive {r : RuntimeState} (h : r.Launchable) :
    ¬ r.Over := by
  rcases h with rfl | rfl | rfl <;> decide

theorem issue_onward (c : IssueCall) :
    Tx.Makes Onward s (issueRuntimeLaunchTicket σ c) := by
  unfold issueRuntimeLaunchTicket
  refine .get (.need fun e _ => .need fun r _ => .require fun _ => .require fun _ => ?_)
  refine .require fun _ => .require fun _ => .require fun _ => .require fun _ => ?_
  refine .require fun _ => .bind (insertTicket_onward _) fun _ t _ => updateRuntimes_onward ?_
  exact fun r => remains_of_alive rfl fun h => launchable_alive h.2

theorem revoke_onward (id : String) :
    Tx.Makes Onward s (revokeRuntimeLaunchTicket id) := by
  unfold revokeRuntimeLaunchTicket
  refine .get (.bind (updateTickets_onward _) fun _ t _ => ?_)
  split
  · exact Tx.makes_pure _
  · split
    · exact Tx.makes_pure _
    · refine updateRuntimes_onward fun r => remains_of_alive rfl fun h => ?_
      rw [h.2.1]
      decide

theorem exchange_onward (c : ExchangeCall) :
    Tx.Makes Onward s (exchangeRuntimeLaunchTicket σ c) := by
  unfold exchangeRuntimeLaunchTicket
  refine .need fun id _ => .get (.need fun u _ => .need fun e he => .need fun r _ => ?_)
  refine .require fun h => ?_
  obtain ⟨-, -, -, -, -, hstate, -⟩ := h
  have he := (of_enrollment? he).1
  -- until the enrollment begins, the enrollments are those that were read
  refine .bind_of (P := fun _ t => t.enrollments = s.enrollments)
    ((updateCredentials_ensures _).mono fun _ t ⟨_, _, ht⟩ =>
      ⟨.single (ht ▸ onward_of_eq rfl rfl), ht ▸ rfl⟩) fun _ s₁ h₁ => ?_
  refine .bind_of (P := fun _ t => t.enrollments = s.enrollments)
    ((insertCredential_ensures _).mono fun _ t ⟨_, _, ht⟩ =>
      ⟨.single (ht ▸ onward_of_eq rfl rfl), ht ▸ h₁⟩) fun _ s₂ h₂ => ?_
  refine .bind_of (P := fun _ t => t.enrollments = s.enrollments)
    ((updateTickets_ensures _).mono fun _ t ⟨_, _, ht⟩ =>
      ⟨.single (ht ▸ onward_of_eq rfl rfl), ht ▸ h₂⟩) fun _ s₃ h₃ => ?_
  refine .bind (updateEnrollments_onward fun e' he' => ?_) fun _ _ _ => Tx.makes_pure _
  unfold Enrollment.begin
  split
  case isTrue hid =>
    rw [h₃] at he'
    obtain rfl := enrollment_eq he' he hid
    exact ⟨rfl, rfl, rfl, fun h => absurd h hstate⟩
  case isFalse => exact .refl e'

theorem discover_onward (c : DiscoveryCall) :
    Tx.Makes Onward s (recordMcpToolDiscovery σ c) := by
  unfold recordMcpToolDiscovery
  refine .when fun _ => .require fun _ => .reads (requireWorkerRuntimeActor_reads _ _ _) ?_
  refine fun e _ => updateEnrollments_onward fun e' _ => ?_
  split
  · exact ⟨rfl, rfl, rfl, fun h => h⟩
  · exact .refl e'

theorem heartbeatRow_remains (id : String) (state : RuntimeState) (lease : ℕ) (r : Runtime) :
    Runtime.Remains r (Runtime.heartbeat id state lease r) := by
  unfold Runtime.heartbeat
  refine remains_of_alive rfl fun h hover => h.2 ?_
  rcases hover with hover | hover | hover <;> rw [hover] <;> decide

theorem heartbeat_onward (c : HeartbeatCall) :
    Tx.Makes Onward s (heartbeatRuntime σ c) := by
  unfold heartbeatRuntime
  refine .get (.need fun r _ => .require fun _ => .require fun _ => .ite (fun _ => ?_) fun _ => ?_)
  · refine .reads (requireWorkerRuntimeActor_reads _ _ _) fun e he => ?_
    refine .need fun generation _ => .need fun sequence _ => .require fun _ => .require fun _ => ?_
    refine .require fun _ => .ite (fun _ => Tx.makes_pure _) fun _ => .require fun _ => ?_
    refine .bind ?_ fun _ t _ => updateRuntimes_onward (heartbeatRow_remains _ _ _)
    unfold advanceHeartbeat
    refine .bind (updateEnrollments_onward fun e' he' => ?_) fun _ t _ =>
      updateCredentials_onward _
    split
    case isTrue h =>
      obtain rfl := enrollment_eq he' he.mem h.1
      exact ⟨rfl, rfl, rfl, fun h => absurd h he.alive⟩
    case isFalse => exact .refl e'
  · exact updateRuntimes_onward (heartbeatRow_remains _ _ _)

theorem endEnrollment_onward (id : String) {state : EnrollmentState} (hstate : state.Terminal)
    (credential : CredentialState) (ticket : TicketState) :
    Tx.Makes Onward s (endEnrollment id state credential ticket) := by
  unfold endEnrollment
  exact .bind (updateEnrollments_onward fun e _ => ended_remains id hstate e) fun _ t _ =>
    .bind (updateCredentials_onward _) fun _ t _ => updateTickets_onward _

theorem fail_onward (id : String) : Tx.Makes Onward s (failRuntimeEnrollment id) := by
  unfold failRuntimeEnrollment
  refine .get ?_
  split
  · exact Tx.makes_pure _
  · refine .when fun _ => .bind (endEnrollment_onward _ (by decide) _ _) fun _ t _ => ?_
    exact updateRuntimes_onward (setState_remains _ (by decide))

theorem stop_onward (id : String) : Tx.Makes Onward s (stopRuntime id) := by
  unfold stopRuntime
  refine .get (.need fun r _ => ?_)
  split
  · exact updateRuntimes_onward (setState_remains _ (by decide))
  · refine .bind (endEnrollment_onward _ (by decide) _ _) fun _ t _ => ?_
    exact updateRuntimes_onward (setState_remains _ (by decide))

theorem expireRuntime_onward (id : String) : Tx.Makes Onward s (expireRuntime id) := by
  unfold expireRuntime
  refine .bind (updateRuntimes_onward (setState_remains _ (by decide))) fun _ t _ => .get ?_
  split
  · exact Tx.makes_pure _
  · exact .when fun _ => endEnrollment_onward _ (by decide) _ _

/-- **No operation on launches brings back what is over.** -/
theorem launch_onward (s : Store) (e : Event) :
    Onward s (step σ s e) := by
  have hcommit : ∀ {α : Type} {m : Tx Store Error α}, Tx.Makes Onward s m →
      Onward s (Tx.commit m s) := fun h =>
    Tx.commit_of_wp (.refl s) (h.relates .refl (fun _ _ _ => .trans) fun _ _ h => h)
  cases e with
  | enroll c => exact hcommit (enroll_onward c)
  | issue c => exact hcommit (issue_onward c)
  | exchange c => exact hcommit (exchange_onward c)
  | revoke id => exact hcommit (revoke_onward id)
  | discover c => exact hcommit (discover_onward c)
  | heartbeat c => exact hcommit (heartbeat_onward c)
  | fail id => exact hcommit (fail_onward id)
  | stop id => exact hcommit (stop_onward id)
  | expire now =>
    refine hcommit ?_
    unfold expireRuntimeLeases
    exact .get (.each fun id _ t => expireRuntime_onward id)

/-! ## The statements of the threads -/

/-- **What leaves the launches in order.** -/
structure Passes (a b : Store) : Prop where
  onward : Onward a b
  inv : Inv a → Inv b

theorem Passes.refl (a : Store) : Passes a a := ⟨.refl a, fun h => h⟩

theorem Passes.trans {c : Store} (hab : Passes a b) (hbc : Passes b c) : Passes a c :=
  ⟨hab.onward.trans hbc.onward, fun h => hbc.inv (hab.inv h)⟩

theorem launch_passes (s : Store) (e : Event) : Passes s (step σ s e) := by
  refine ⟨launch_onward s e, fun hs => ?_⟩
  have hmoves : Relation.ReflTransGen Moves s (step σ s e) := step_moves s e
  generalize step σ s e = t at hmoves ⊢
  induction hmoves with
  | refl => exact hs
  | tail _ hmove ih => exact ih.moves hmove

/-- A change of the runtimes. -/
theorem passes_runtimes {runtimes : UniqueRows Runtime Runtime.Clash}
    (h : Onward s { s with runtimes := runtimes }) : Passes s { s with runtimes := runtimes } :=
  ⟨h, fun hs => hs.moves (moves_runtimes runtimes)⟩

theorem updateRuntimes_passes {f : Runtime → Runtime} (hf : ∀ r : Runtime, r.Remains (f r)) :
    Tx.Ensures s (updateRuntimes f) fun _ t => Passes s t := by
  refine (updateRuntimes_ensures f).mono fun _ t ht => ?_
  obtain ⟨runtimes, hrows, rfl⟩ := ht
  exact passes_runtimes (onward_runtimes hf hrows)

theorem insertRuntime_passes (r : Runtime) :
    Tx.Ensures s (insertRuntime r) fun _ t => Passes s t := by
  refine (insertRuntime_ensures r).mono fun _ t ht => ?_
  obtain ⟨runtimes, hinsert, rfl⟩ := ht
  refine passes_runtimes ⟨fun r' hr' => ?_, (Onward.refl s).enrollments⟩
  exact ⟨r', UniqueRows.mem_insert_of_mem hinsert hr', rfl, fun _ h => h⟩

/-- **A new route** has a runtime and an enrollment that were not there. -/
theorem enroll_ensures (c : EnrollCall) : Tx.Ensures s (enroll σ c) fun _ t =>
    Passes s t ∧ (∃ r ∈ t.runtimes.rows, r.id = c.runtimeId) ∧
      ∃ e ∈ t.enrollments.rows, e.id = c.enrollmentId ∧ e.runtime = c.runtimeId ∧
        e.managed = true ∧
        ∀ e' ∈ s.enrollments.rows, e'.principal = c.principal → e'.state.Terminal := by
  unfold enroll
  refine Tx.Ensures.bind (insertRuntime_ensures _) fun _ t ht => ?_
  obtain ⟨runtimes, hruntime, rfl⟩ := ht
  refine (insertEnrollment_ensures _).mono fun _ t ht => ?_
  obtain ⟨enrollments, henrollment, rfl⟩ := ht
  have halive : ¬ EnrollmentState.awaitingHandshake.Terminal := by decide
  refine ⟨⟨⟨fun r hr => ⟨r, UniqueRows.mem_insert_of_mem hruntime hr, rfl, fun _ h => h⟩,
    fun e he => ⟨e, UniqueRows.mem_insert_of_mem henrollment he, rfl, rfl, rfl, fun h => h⟩⟩,
    fun hs => hs.moves (.enrolled _ halive rfl henrollment rfl rfl)⟩,
    ⟨_, UniqueRows.mem_insert hruntime, rfl⟩, _, UniqueRows.mem_insert henrollment, rfl, rfl, rfl,
    fun e' he' hprincipal => ?_⟩
  -- `worker_enrollments_one_nonterminal_principal`
  by_contra hstate
  exact UniqueRows.not_clash_of_insert henrollment e' he'
    (.inr (.inr ⟨hprincipal, hstate, halive⟩))

theorem Enrollment.revoke_remains (ids : List String) (e : Enrollment) :
    e.Remains (e.revoke ids) := by
  unfold Enrollment.revoke
  split
  · exact ⟨rfl, rfl, rfl, fun _ => .inl rfl⟩
  · exact .refl e

theorem Credential.revoke_follows (ids : List String) (k : Credential) :
    k.Follows (k.revoke ids) := by
  unfold Credential.revoke
  split
  · exact ⟨rfl, rfl, rfl, fun h => CredentialState.noConfusion h⟩
  · exact .refl k

theorem Ticket.revoke_follows (ids : List String) (t : Ticket) : t.Follows (t.revoke ids) := by
  unfold Ticket.revoke
  split
  case isTrue h => exact ⟨rfl, rfl, rfl, .inr ⟨h.2, TicketState.noConfusion⟩⟩
  case isFalse => exact .refl t

/-- **What a revocation leaves**: the routes are spent. -/
theorem revokeRoutes_ensures (enrollmentIds runtimeIds : List String) :
    Tx.Ensures s (revokeRoutes enrollmentIds runtimeIds) fun _ t => Passes s t ∧
      (∀ r ∈ s.runtimes.rows, r.id ∈ runtimeIds →
        ∃ r' ∈ t.runtimes.rows, r'.id = r.id ∧ r'.state.Over) ∧
      ∀ e ∈ s.enrollments.rows, e.id ∈ enrollmentIds →
        ∃ e' ∈ t.enrollments.rows, e.Remains e' ∧ e'.state.Terminal := by
  unfold revokeRoutes
  refine (updateEnrollments_ensures _).bind fun _ s₁ h₁ => ?_
  obtain ⟨enrollments, henrollments, rfl⟩ := h₁
  refine (updateCredentials_ensures _).bind fun _ s₂ h₂ => ?_
  obtain ⟨credentials, hcredentials, rfl⟩ := h₂
  refine (updateTickets_ensures _).bind fun _ s₃ h₃ => ?_
  obtain ⟨tickets, htickets, rfl⟩ := h₃
  refine (updateRuntimes_ensures _).mono fun _ s₄ h₄ => ?_
  obtain ⟨runtimes, hruntimes, rfl⟩ := h₄
  refine ⟨⟨?_, fun hs => ?_⟩, fun r hr hid => ?_, fun e he hid => ?_⟩
  · refine ⟨fun r hr => ?_, fun e he => ?_⟩
    · refine ⟨if r.id ∈ runtimeIds then { r with state := .stopped } else r, ?_, ?_⟩
      · show _ ∈ runtimes.rows
        rw [hruntimes]
        exact List.mem_map_of_mem hr
      · split
        · exact ⟨rfl, fun _ _ => .inr (.inr rfl)⟩
        · exact ⟨rfl, fun _ h => h⟩
    · have hstays := e.revoke_remains enrollmentIds
      refine ⟨e.revoke enrollmentIds, ?_, hstays.id, hstays.runtime, hstays.managed, hstays.ended⟩
      show _ ∈ enrollments.rows
      rw [henrollments]
      exact List.mem_map_of_mem he
  · refine hs.updated (fun e _ => (e.revoke_remains enrollmentIds).id)
      (Ticket.revoke_follows enrollmentIds) (Credential.revoke_follows enrollmentIds) ?_ ?_ ?_
      henrollments htickets hcredentials
    · intro e _
      unfold Enrollment.revoke
      split
      · show e.generation ≤ if e.state = .revoked then e.generation else e.generation + 1
        split
        · exact Nat.le_refl _
        · exact Nat.le_succ _
      · exact Nat.le_refl _
    · intro e _ t _ howner hpending halive
      -- a ticket that is still pending is one of another enrollment
      have hne : e.id ∉ enrollmentIds := fun h => by
        have hrevoked : (t.revoke enrollmentIds).state ≠ .pending := by
          unfold Ticket.revoke
          split
          case isTrue => exact TicketState.noConfusion
          case isFalse hnot => exact fun hpending => hnot ⟨howner ▸ h, hpending⟩
        exact hrevoked hpending
      unfold Enrollment.revoke
      rwa [if_neg hne]
    · intro e _ k _ howner hactive halive
      have hne : e.id ∉ enrollmentIds := fun h => by
        have hrevoked : (k.revoke enrollmentIds).state ≠ .active := by
          unfold Credential.revoke
          split
          case isTrue => exact CredentialState.noConfusion
          case isFalse hnot => exact fun hactive => hnot ⟨howner ▸ h, hactive⟩
        exact hrevoked hactive
      unfold Enrollment.revoke
      rw [if_neg hne]
      exact ⟨halive, rfl⟩
  · refine ⟨{ r with state := .stopped }, ?_, rfl, .inr (.inr rfl)⟩
    show _ ∈ runtimes.rows
    rw [hruntimes]
    exact List.mem_map.mpr ⟨r, hr, if_pos hid⟩
  · refine ⟨e.revoke enrollmentIds, ?_, e.revoke_remains _, ?_⟩
    · show _ ∈ enrollments.rows
      rw [henrollments]
      exact List.mem_map_of_mem he
    · unfold Enrollment.revoke
      rw [if_pos hid]
      exact .inl rfl

/-- The route of a completed turn is spent; its tickets were none that are pending. -/
theorem spendRoute_ensures {enrollmentId runtimeId : String}
    (hnone : ∀ t ∈ s.tickets.rows, t.enrollment = enrollmentId → t.state ≠ .pending) :
    Tx.Ensures s (spendRoute enrollmentId runtimeId) fun _ t => Passes s t ∧
      (∀ r ∈ s.runtimes.rows, r.id = runtimeId →
        ∃ r' ∈ t.runtimes.rows, r'.id = r.id ∧ r'.state.Over) ∧
      ∀ e ∈ s.enrollments.rows, ∃ e' ∈ t.enrollments.rows, e.Remains e' ∧
        e'.principal = e.principal := by
  unfold spendRoute
  refine (updateCredentials_ensures _).bind fun _ s₁ h₁ => ?_
  obtain ⟨credentials, hcredentials, rfl⟩ := h₁
  refine (updateEnrollments_ensures _).bind fun _ s₂ h₂ => ?_
  obtain ⟨enrollments, henrollments, rfl⟩ := h₂
  refine (updateRuntimes_ensures _).mono fun _ s₃ h₃ => ?_
  obtain ⟨runtimes, hruntimes, rfl⟩ := h₃
  have hremains : ∀ e : Enrollment, e.Remains
      (if e.id = enrollmentId ∧ ¬ e.state.Terminal then { e with state := .revoked } else e) :=
    fun e => by
      split
      case isTrue h => exact ⟨rfl, rfl, rfl, fun hover => absurd hover h.2⟩
      case isFalse => exact .refl e
  have hstopped : ∀ r : Runtime, r.Remains
      (if r.id = runtimeId ∧ ¬ r.state.Over then { r with state := .stopped } else r) :=
    fun r => remains_of_alive rfl fun h => h.2
  refine ⟨⟨⟨fun r hr => ?_, fun e he => ?_⟩, fun hs => ?_⟩, fun r hr hid => ?_, fun e he => ?_⟩
  · refine ⟨_, ?_, (hstopped r).id, fun _ => (hstopped r).ended⟩
    show _ ∈ runtimes.rows
    rw [hruntimes]
    exact List.mem_map_of_mem hr
  · refine ⟨_, ?_, (hremains e).id, (hremains e).runtime, (hremains e).managed,
      (hremains e).ended⟩
    show _ ∈ enrollments.rows
    rw [henrollments]
    exact List.mem_map_of_mem he
  · refine hs.updated (fun e _ => (hremains e).id) .refl (Credential.ended_follows (by decide))
      (fun e _ => ?_) (fun e _ t ht howner hpending halive => ?_)
      (fun e _ k _ howner hactive halive => ?_) henrollments (List.map_id _).symm hcredentials
    · split <;> exact Nat.le_refl _
    · rw [if_neg fun h => hnone t ht (howner.symm.trans h.1) hpending]
      exact halive
    · have hne : e.id ≠ enrollmentId := fun h =>
        Credential.ended_not_active (by decide) (howner.symm.trans h) hactive
      rw [if_neg fun h => hne h.1]
      exact ⟨halive, rfl⟩
  · by_cases hover : r.state.Over
    · refine ⟨r, ?_, rfl, hover⟩
      show _ ∈ runtimes.rows
      rw [hruntimes]
      exact List.mem_map.mpr ⟨r, hr, if_neg fun h => h.2 hover⟩
    · refine ⟨{ r with state := .stopped }, ?_, rfl, .inr (.inr rfl)⟩
      show _ ∈ runtimes.rows
      rw [hruntimes]
      exact List.mem_map.mpr ⟨r, hr, if_pos ⟨hid, hover⟩⟩
  · refine ⟨_, ?_, hremains e, ?_⟩
    · show _ ∈ enrollments.rows
      rw [henrollments]
      exact List.mem_map_of_mem he
    · split <;> rfl

end Launches
