import OpenCAO.Epochs
import OpenCAO.Launches

/-!
# The epochs of a launch

Whoever comes with a ticket or a credential, in whatever order and however late, the
epochs of an enrollment follow one another: one ticket waits, one credential is active, it
carries the generation of the enrollment, and generations only rise. What each call can
do to the four tables is said once (`Moves`), and every assertion is proved of the moves.

The two halves of an invariant hold each other up. An enrollment that is over has neither
a pending ticket nor an active credential, because the statements that end it come
together; and a ticket cannot bring it back, because a pending ticket is one of an
enrollment that is not over.
-/

namespace Launches

variable {σ : Settings} {s s' : Store}

/-! ## What the statements leave -/

theorem insertRuntime_ensures (r : Runtime) : Tx.Ensures s (insertRuntime r) fun _ t =>
    ∃ runtimes, s.runtimes.insert r = some runtimes ∧ t = { s with runtimes := runtimes } := by
  unfold insertRuntime
  exact .get (.need fun runtimes h => ⟨runtimes, h, rfl⟩)

theorem insertEnrollment_ensures (e : Enrollment) : Tx.Ensures s (insertEnrollment e) fun _ t =>
    ∃ enrollments, s.enrollments.insert e = some enrollments ∧
      t = { s with enrollments := enrollments } := by
  unfold insertEnrollment
  exact .get (.need fun enrollments h => ⟨enrollments, h, rfl⟩)

theorem insertTicket_ensures (t : Ticket) : Tx.Ensures s (insertTicket t) fun _ s' =>
    ∃ tickets, s.tickets.insert t = some tickets ∧ s' = { s with tickets := tickets } := by
  unfold insertTicket
  exact .get (.need fun tickets h => ⟨tickets, h, rfl⟩)

theorem insertCredential_ensures (k : Credential) : Tx.Ensures s (insertCredential k) fun _ t =>
    ∃ credentials, s.credentials.insert k = some credentials ∧
      t = { s with credentials := credentials } := by
  unfold insertCredential
  exact .get (.need fun credentials h => ⟨credentials, h, rfl⟩)

theorem updateRuntimes_ensures (f : Runtime → Runtime) :
    Tx.Ensures s (updateRuntimes f) fun _ t => ∃ runtimes,
      runtimes.rows = s.runtimes.rows.map f ∧ t = { s with runtimes := runtimes } := by
  unfold updateRuntimes
  exact .get (.need fun runtimes h => ⟨runtimes, UniqueRows.rows_update h, rfl⟩)

theorem updateEnrollments_ensures (f : Enrollment → Enrollment) :
    Tx.Ensures s (updateEnrollments f) fun _ t => ∃ enrollments,
      enrollments.rows = s.enrollments.rows.map f ∧ t = { s with enrollments := enrollments } := by
  unfold updateEnrollments
  exact .get (.need fun enrollments h => ⟨enrollments, UniqueRows.rows_update h, rfl⟩)

theorem updateTickets_ensures (f : Ticket → Ticket) :
    Tx.Ensures s (updateTickets f) fun _ t => ∃ tickets,
      tickets.rows = s.tickets.rows.map f ∧ t = { s with tickets := tickets } := by
  unfold updateTickets
  exact .get (.need fun tickets h => ⟨tickets, UniqueRows.rows_update h, rfl⟩)

theorem updateCredentials_ensures (f : Credential → Credential) :
    Tx.Ensures s (updateCredentials f) fun _ t => ∃ credentials,
      credentials.rows = s.credentials.rows.map f ∧ t = { s with credentials := credentials } := by
  unfold updateCredentials
  exact .get (.need fun credentials h => ⟨credentials, UniqueRows.rows_update h, rfl⟩)

/-! ## Rows -/

/-- The enrollment is in the epoch it was in. -/
structure Enrollment.Stays (e e' : Enrollment) : Prop where
  id : e'.id = e.id
  generation : e'.generation = e.generation
  terminal : e.state.Terminal → e'.state = e.state
  alive : e'.state.Terminal → e.state.Terminal

/-- The ticket is what it was, or no longer pending. -/
structure Ticket.Follows (t t' : Ticket) : Prop where
  id : t'.id = t.id
  enrollment : t'.enrollment = t.enrollment
  generation : t'.generation = t.generation
  state : t'.state = t.state ∨ t.state = .pending ∧ t'.state ≠ .pending

/-- The credential is what it was, or no longer active. -/
structure Credential.Follows (k k' : Credential) : Prop where
  id : k'.id = k.id
  enrollment : k'.enrollment = k.enrollment
  generation : k'.generation = k.generation
  state : k'.state = .active → k.state = .active

theorem Enrollment.Stays.refl (e : Enrollment) : e.Stays e :=
  ⟨rfl, rfl, fun _ => rfl, fun h => h⟩

theorem Ticket.Follows.refl (t : Ticket) : t.Follows t := ⟨rfl, rfl, rfl, .inl rfl⟩

theorem Credential.Follows.refl (k : Credential) : k.Follows k :=
  ⟨rfl, rfl, rfl, fun h => h⟩

theorem Ticket.Follows.pending {t t' : Ticket} (h : t.Follows t') (h' : t'.state = .pending) :
    t.state = .pending := by
  rcases h.state with hsame | ⟨hpending, -⟩
  · exact hsame ▸ h'
  · exact hpending

theorem Ticket.ended_follows {id : String} {state : TicketState} (hstate : state ≠ .pending)
    (t : Ticket) : t.Follows (t.ended id state) := by
  unfold Ticket.ended
  split
  case isTrue h => exact ⟨rfl, rfl, rfl, .inr ⟨h.2, hstate⟩⟩
  case isFalse => exact .refl t

theorem Credential.ended_follows {id : String} {state : CredentialState}
    (hstate : state ≠ .active) (k : Credential) : k.Follows (k.ended id state) := by
  unfold Credential.ended
  split
  case isTrue => exact ⟨rfl, rfl, rfl, fun h => absurd h hstate⟩
  case isFalse => exact .refl k

/-- The tickets of an enrollment that has ended are not pending. -/
theorem Ticket.ended_not_pending {id : String} {state : TicketState} (hstate : state ≠ .pending)
    {t : Ticket} (ht : t.enrollment = id) : (t.ended id state).state ≠ .pending := by
  unfold Ticket.ended
  split
  case isTrue => exact hstate
  case isFalse h => exact fun hpending => h ⟨ht, hpending⟩

theorem Credential.ended_not_active {id : String} {state : CredentialState}
    (hstate : state ≠ .active) {k : Credential} (hk : k.enrollment = id) :
    (k.ended id state).state ≠ .active := by
  unfold Credential.ended
  split
  case isTrue => exact hstate
  case isFalse h => exact fun hactive => h ⟨hk, hactive⟩

/-! ## Moves -/

/-- **What a call can do to the tables.** Runtimes may change in any way. -/
inductive Moves : Store → Store → Prop
  /-- An enrollment begins. -/
  | enrolled {s s' : Store} (e : Enrollment) (hstate : ¬ e.state.Terminal)
      (hgeneration : e.generation = 0)
      (henrollments : s.enrollments.insert e = some s'.enrollments)
      (htickets : s'.tickets = s.tickets) (hcredentials : s'.credentials = s.credentials) :
      Moves s s'
  /-- A ticket for the next epoch is issued. -/
  | issued {s s' : Store} (e : Enrollment) (t : Ticket) (he : e ∈ s.enrollments.rows)
      (hstate : ¬ e.state.Terminal)
      (hnone : ∀ u ∈ s.tickets.rows, u.enrollment = e.id → u.state ≠ .pending)
      (ht : t.enrollment = e.id) (hpending : t.state = .pending)
      (hgeneration : t.generation = e.generation + 1)
      (hinsert : s.tickets.insert t = some s'.tickets)
      (henrollments : s'.enrollments = s.enrollments)
      (hcredentials : s'.credentials = s.credentials) : Moves s s'
  /-- A ticket is exchanged, and its epoch begins. -/
  | exchanged {s s' : Store} (e : Enrollment) (t : Ticket) (k : Credential) (lease : ℕ)
      (he : e ∈ s.enrollments.rows) (ht : t ∈ s.tickets.rows) (howner : t.enrollment = e.id)
      (hpending : t.state = .pending) (hstate : ¬ e.state.Terminal)
      (hgeneration : t.generation = e.generation + 1) (hk : k.enrollment = e.id)
      (hkgeneration : k.generation = t.generation)
      (henrollments : s'.enrollments.rows =
        s.enrollments.rows.map (Enrollment.begin e.id t.generation lease))
      (htickets : s'.tickets.rows = s.tickets.rows.map fun u =>
        if u.id = t.id ∧ u.state = .pending then { u with state := .consumed } else u)
      (hcredentials : s'.credentials.rows =
        s.credentials.rows.map (Credential.ended e.id .revoked) ++ [k]) : Moves s s'
  /-- An enrollment ends. -/
  | ended {s s' : Store} (id : String) (state : EnrollmentState) (credential : CredentialState)
      (ticket : TicketState) (hstate : state.Terminal) (hcredential : credential ≠ .active)
      (hticket : ticket ≠ .pending)
      (henrollments : s'.enrollments.rows = s.enrollments.rows.map (Enrollment.ended id state))
      (hcredentials : s'.credentials.rows =
        s.credentials.rows.map (Credential.ended id credential))
      (htickets : s'.tickets.rows = s.tickets.rows.map (Ticket.ended id ticket)) : Moves s s'
  /-- Everything stays in its epoch. -/
  | quiet {s s' : Store} (fe : Enrollment → Enrollment) (ft : Ticket → Ticket)
      (fk : Credential → Credential) (he : ∀ e ∈ s.enrollments.rows, e.Stays (fe e))
      (ht : ∀ t : Ticket, t.Follows (ft t)) (hk : ∀ k : Credential, k.Follows (fk k))
      (henrollments : s'.enrollments.rows = s.enrollments.rows.map fe)
      (htickets : s'.tickets.rows = s.tickets.rows.map ft)
      (hcredentials : s'.credentials.rows = s.credentials.rows.map fk) : Moves s s'

theorem Moves.refl (s : Store) : Moves s s :=
  .quiet id id id (fun e _ => .refl e) .refl .refl (List.map_id _).symm (List.map_id _).symm
    (List.map_id _).symm

/-- A change of the runtimes. -/
theorem moves_runtimes (runtimes : UniqueRows Runtime Runtime.Clash) :
    Moves s { s with runtimes := runtimes } :=
  .quiet id id id (fun e _ => .refl e) .refl .refl (List.map_id _).symm (List.map_id _).symm
    (List.map_id _).symm

theorem enroll_moves (c : EnrollCall) : Tx.Ensures s (enroll σ c) fun _ t => Moves s t := by
  unfold enroll
  refine (insertRuntime_ensures _).bind fun _ t ht => ?_
  obtain ⟨runtimes, -, rfl⟩ := ht
  refine (insertEnrollment_ensures _).mono fun _ t ht => ?_
  obtain ⟨enrollments, hinsert, rfl⟩ := ht
  exact .enrolled _ (show ¬ EnrollmentState.awaitingHandshake.Terminal by decide) rfl hinsert rfl rfl

theorem of_enrollment? {id : String} {e : Enrollment} (h : s.enrollment? id = some e) :
    e ∈ s.enrollments.rows ∧ e.id = id := by
  obtain ⟨he, hid⟩ := UniqueRows.of_find? h
  exact ⟨he, of_decide_eq_true hid⟩

theorem of_enrollmentOf? {runtimeId : String} {e : Enrollment}
    (h : s.enrollmentOf? runtimeId = some e) : e ∈ s.enrollments.rows ∧ e.runtime = runtimeId := by
  obtain ⟨he, hid⟩ := UniqueRows.of_find? h
  exact ⟨he, of_decide_eq_true hid⟩

theorem of_ticket? {id : String} {t : Ticket} (h : s.ticket? id = some t) :
    t ∈ s.tickets.rows ∧ t.id = id := by
  obtain ⟨ht, hid⟩ := UniqueRows.of_find? h
  exact ⟨ht, of_decide_eq_true hid⟩

theorem enrollment_clash_symm (a b : Enrollment) (h : a.Clash b) : b.Clash a := by
  rcases h with h | h | ⟨h, ha, hb⟩
  · exact .inl h.symm
  · exact .inr (.inl h.symm)
  · exact .inr (.inr ⟨h.symm, hb, ha⟩)

/-- Enrollments of one identifier are one. -/
theorem enrollment_eq {a b : Enrollment} (ha : a ∈ s.enrollments.rows)
    (hb : b ∈ s.enrollments.rows) (h : a.id = b.id) : a = b :=
  s.enrollments.eq_of_clash enrollment_clash_symm ha hb (.inl h)

theorem ticket_eq {a b : Ticket} (ha : a ∈ s.tickets.rows) (hb : b ∈ s.tickets.rows)
    (h : a.id = b.id) : a = b :=
  s.tickets.eq_of_clash (fun _ _ h => h.imp Eq.symm Eq.symm) ha hb (.inl h)

theorem issue_moves (c : IssueCall) :
    Tx.Ensures s (issueRuntimeLaunchTicket σ c) fun _ t => Moves s t := by
  unfold issueRuntimeLaunchTicket
  refine .get (.need fun e he => .need fun r _ => .require fun _ => .require fun _ => ?_)
  refine .require fun _ => .require fun hstate => .require fun _ => .require fun hnone => ?_
  refine .require fun _ => (insertTicket_ensures _).bind fun _ t ht => ?_
  obtain ⟨tickets, hinsert, rfl⟩ := ht
  refine (updateRuntimes_ensures _).mono fun _ u hu => ?_
  obtain ⟨runtimes, -, rfl⟩ := hu
  have he := of_enrollmentOf? (Option.ite_none_right_eq_some.mp he).2
  exact .issued e _ he.1 hstate hnone rfl rfl rfl hinsert rfl rfl

theorem exchange_moves (c : ExchangeCall) :
    Tx.Ensures s (exchangeRuntimeLaunchTicket σ c) fun _ u => Moves s u ∧
      ∃ t ∈ s.tickets.rows, ticketId c.ticket = some t.id ∧ t.state = .pending ∧
        (∃ e ∈ s.enrollments.rows, e.id = t.enrollment ∧ t.generation = e.generation + 1) ∧
        ∃ t' ∈ u.tickets.rows, t'.id = t.id ∧ t'.state = .consumed := by
  unfold exchangeRuntimeLaunchTicket
  refine .need fun id hid => .get (.need fun t ht => .need fun e he => .need fun r _ => ?_)
  refine .require fun h => ?_
  obtain ⟨hpending, -, -, -, -, hstate, hgeneration⟩ := h
  obtain ⟨hmem, rfl⟩ := of_ticket? ht
  obtain ⟨he, howner⟩ := of_enrollment? he
  refine (updateCredentials_ensures _).bind fun _ s₁ h₁ => ?_
  obtain ⟨revoked, hrevoked, rfl⟩ := h₁
  refine (insertCredential_ensures _).bind fun _ s₂ h₂ => ?_
  obtain ⟨credentials, hinsert, rfl⟩ := h₂
  refine (updateTickets_ensures _).bind fun _ s₃ h₃ => ?_
  obtain ⟨tickets, htickets, rfl⟩ := h₃
  refine (updateEnrollments_ensures _).bind fun _ s₄ h₄ => ?_
  obtain ⟨enrollments, henrollments, rfl⟩ := h₄
  have hcredentials := UniqueRows.rows_insert hinsert
  rw [hrevoked] at hcredentials
  refine ⟨.exchanged e t _ _ he hmem howner.symm hpending hstate hgeneration rfl rfl henrollments
    htickets hcredentials, t, hmem, hid, hpending, ⟨e, he, howner, hgeneration⟩,
    { t with state := .consumed }, ?_, rfl, rfl⟩
  show _ ∈ tickets.rows
  rw [htickets]
  exact List.mem_map.mpr ⟨t, hmem, if_pos ⟨rfl, hpending⟩⟩

theorem moves_tickets {ft : Ticket → Ticket} (ht : ∀ t : Ticket, t.Follows (ft t))
    {tickets : UniqueRows Ticket Ticket.Clash} (htickets : tickets.rows = s.tickets.rows.map ft)
    (runtimes : UniqueRows Runtime Runtime.Clash) :
    Moves s { s with tickets := tickets, runtimes := runtimes } :=
  .quiet id ft id (fun e _ => .refl e) ht .refl (List.map_id _).symm htickets (List.map_id _).symm

theorem revoke_moves (id : String) :
    Tx.Ensures s (revokeRuntimeLaunchTicket id) fun _ t => Moves s t := by
  have hfollows : ∀ t : Ticket, t.Follows
      (if t.id = id ∧ t.state = .pending then { t with state := .revoked } else t) := fun t => by
    split
    case isTrue h => exact ⟨rfl, rfl, rfl, .inr ⟨h.2, TicketState.noConfusion⟩⟩
    case isFalse => exact .refl t
  unfold revokeRuntimeLaunchTicket
  refine .get ((updateTickets_ensures _).bind fun _ t ht => ?_)
  obtain ⟨tickets, htickets, rfl⟩ := ht
  split
  · exact moves_tickets hfollows htickets s.runtimes
  · split
    · exact moves_tickets hfollows htickets s.runtimes
    · refine (updateRuntimes_ensures _).mono fun _ u hu => ?_
      obtain ⟨runtimes, -, rfl⟩ := hu
      exact moves_tickets hfollows htickets runtimes

theorem endEnrollment_ensures (id : String) (state : EnrollmentState)
    (credential : CredentialState) (ticket : TicketState) :
    Tx.Ensures s (endEnrollment id state credential ticket) fun _ t =>
      t.enrollments.rows = s.enrollments.rows.map (Enrollment.ended id state) ∧
      t.credentials.rows = s.credentials.rows.map (Credential.ended id credential) ∧
      t.tickets.rows = s.tickets.rows.map (Ticket.ended id ticket) := by
  unfold endEnrollment
  refine (updateEnrollments_ensures _).bind fun _ s₁ h₁ => ?_
  obtain ⟨enrollments, henrollments, rfl⟩ := h₁
  refine (updateCredentials_ensures _).bind fun _ s₂ h₂ => ?_
  obtain ⟨credentials, hcredentials, rfl⟩ := h₂
  refine (updateTickets_ensures _).mono fun _ s₃ h₃ => ?_
  obtain ⟨tickets, htickets, rfl⟩ := h₃
  exact ⟨henrollments, hcredentials, htickets⟩

theorem endEnrollment_moves {id : String} {state : EnrollmentState} {credential : CredentialState}
    {ticket : TicketState} (hstate : state.Terminal) (hcredential : credential ≠ .active)
    (hticket : ticket ≠ .pending) :
    Tx.Ensures s (endEnrollment id state credential ticket) fun _ t => Moves s t :=
  (endEnrollment_ensures id state credential ticket).mono fun _ _ h =>
    .ended id state credential ticket hstate hcredential hticket h.1 h.2.1 h.2.2

theorem updateRuntimes_makes (f : Runtime → Runtime) : Tx.Makes Moves s (updateRuntimes f) :=
  .single ((updateRuntimes_ensures f).mono fun _ _ ⟨runtimes, _, h⟩ => h ▸ moves_runtimes runtimes)

theorem fail_makes (runtimeId : String) : Tx.Makes Moves s (failRuntimeEnrollment runtimeId) := by
  unfold failRuntimeEnrollment
  refine .get ?_
  split
  · exact Tx.makes_pure _
  · refine .when fun _ => .bind (.single ?_) fun _ _ _ => updateRuntimes_makes _
    exact endEnrollment_moves (by decide) (by decide) (by decide)

theorem stop_makes (runtimeId : String) : Tx.Makes Moves s (stopRuntime runtimeId) := by
  unfold stopRuntime
  refine .get (.need fun r _ => ?_)
  split
  · exact updateRuntimes_makes _
  · refine .bind (.single ?_) fun _ _ _ => updateRuntimes_makes _
    exact endEnrollment_moves (by decide) (by decide) (by decide)

theorem expireRuntime_makes (runtimeId : String) : Tx.Makes Moves s (expireRuntime runtimeId) := by
  unfold expireRuntime
  refine .bind (updateRuntimes_makes _) fun _ t _ => .get ?_
  split
  · exact Tx.makes_pure _
  · exact .when fun _ => .single (endEnrollment_moves (by decide) (by decide) (by decide))

theorem expire_makes (now : ℕ) : Tx.Makes Moves s (expireRuntimeLeases now) := by
  unfold expireRuntimeLeases
  exact .get (.each fun id _ t => expireRuntime_makes id)

/-- The enrollment that a Worker acts for. -/
structure ActsFor (s : Store) (actor : Actor) (e : Enrollment) : Prop where
  mem : e ∈ s.enrollments.rows
  id : e.id = actor.enrollmentId
  alive : ¬ e.state.Terminal
  generation : some e.generation = actor.enrollmentGeneration

theorem requireWorkerRuntimeActor_reads (actor : Actor) (expected : Option String) (now : ℕ) :
    Tx.Reads (ActsFor s actor) s (requireWorkerRuntimeActor actor expected now) := by
  unfold requireWorkerRuntimeActor requireRole
  refine Tx.Ensures.require fun _ => .require fun _ => .require fun _ => .get ?_
  refine .need fun e he => .need fun r _ => .need fun k _ => .require fun h => ?_
  obtain ⟨-, -, -, hgeneration, -, hstate, -⟩ := h
  obtain ⟨hmem, hid⟩ := of_enrollment? (Option.filter_eq_some_iff.mp he).1
  exact ⟨rfl, hmem, hid, hstate.1, hgeneration⟩

theorem discover_makes (c : DiscoveryCall) : Tx.Makes Moves s (recordMcpToolDiscovery σ c) := by
  unfold recordMcpToolDiscovery
  refine .when fun _ => .require fun _ => .reads (requireWorkerRuntimeActor_reads _ _ _) ?_
  intro e _
  refine .single ((updateEnrollments_ensures _).mono fun _ t ht => ?_)
  obtain ⟨enrollments, henrollments, rfl⟩ := ht
  refine .quiet _ id id (fun e' _ => ?_) .refl .refl henrollments (List.map_id _).symm
    (List.map_id _).symm
  split
  · exact ⟨rfl, rfl, fun _ => rfl, fun h => h⟩
  · exact .refl e'

/-- The Worker path of a heartbeat, once its checks are passed. -/
theorem advanceHeartbeat_moves {actor : Actor} {e : Enrollment} (he : ActsFor s actor e)
    (sequence lease : ℕ) : Tx.Ensures s (advanceHeartbeat actor e sequence lease) fun _ t =>
      Moves s t ∧ ∃ e' ∈ t.enrollments.rows, e'.id = e.id ∧ e'.generation = e.generation ∧
        e'.heartbeatSequence = sequence := by
  unfold advanceHeartbeat
  refine (updateEnrollments_ensures _).bind fun _ s₁ h₁ => ?_
  obtain ⟨enrollments, henrollments, rfl⟩ := h₁
  refine (updateCredentials_ensures _).mono fun _ s₂ h₂ => ?_
  obtain ⟨credentials, hcredentials, rfl⟩ := h₂
  refine ⟨.quiet _ id _ (fun e' he' => ?_) .refl (fun k => ?_) henrollments (List.map_id _).symm
    hcredentials, { e with state := .ready, heartbeatSequence := sequence,
                           leaseExpiresAt := some lease }, ?_, rfl, rfl, rfl⟩
  · split
    case isTrue h =>
      -- the row is the one of the Worker, which is not over
      obtain rfl := enrollment_eq he' he.mem h.1
      exact ⟨rfl, rfl, fun h => absurd h he.alive, fun h =>
        absurd h (show ¬ EnrollmentState.ready.Terminal by decide)⟩
    case isFalse => exact .refl e'
  · split
    · exact ⟨rfl, rfl, rfl, fun h => h⟩
    · exact .refl k
  · show _ ∈ enrollments.rows
    rw [henrollments]
    exact List.mem_map.mpr ⟨e, he.mem, if_pos ⟨rfl, rfl⟩⟩

/-- **What a heartbeat does**: the Worker path answers a sequence number that is replayed and
changes nothing, or it records the next one. -/
theorem heartbeat_makes (c : HeartbeatCall) : Tx.Ensures s (heartbeatRuntime σ c) fun _ t =>
    Relation.ReflTransGen Moves s t ∧ (c.actor.role = .worker → ∃ e sequence,
      ActsFor s c.actor e ∧ c.sequence = some sequence ∧
      (Replayed sequence e.heartbeatSequence → t = s) ∧
      (¬ Replayed sequence e.heartbeatSequence → sequence = e.heartbeatSequence + 1 ∧
        ∃ e' ∈ t.enrollments.rows, e'.id = e.id ∧ e'.generation = e.generation ∧
          e'.heartbeatSequence = sequence)) := by
  unfold heartbeatRuntime
  refine .get (.need fun r _ => .require fun _ => .require fun _ => ?_)
  refine .ite (fun hworker => ?_) fun hother => ?_
  · refine (requireWorkerRuntimeActor_reads _ _ _).bind fun e he => ?_
    refine .need fun generation _ => .need fun sequence hsequence => .require fun _ => ?_
    refine .require fun _ => .require fun _ => .ite (fun hreplayed => ?_) fun hnext => ?_
    · exact ⟨.refl, fun _ => ⟨e, sequence, he, hsequence, fun _ => rfl,
        fun h => absurd hreplayed h⟩⟩
    · refine .require fun hsucc => (advanceHeartbeat_moves he _ _).bind fun _ t ht => ?_
      refine (updateRuntimes_ensures _).mono fun _ u hu => ?_
      obtain ⟨runtimes, -, rfl⟩ := hu
      exact ⟨.tail (.single ht.1) (moves_runtimes runtimes), fun _ => ⟨e, sequence, he, hsequence,
        fun h => absurd h hnext, fun _ => ⟨hsucc, ht.2⟩⟩⟩
  · exact Tx.Ensures.mono (updateRuntimes_makes _) fun _ t ht =>
      ⟨ht, fun h => absurd h hother⟩

/-- **A step is made of moves.** -/
theorem step_moves (s : Store) (e : Event) : Relation.ReflTransGen Moves s (step σ s e) := by
  have hcommit : ∀ {α : Type} {m : Tx Store Error α}, Tx.Makes Moves s m →
      Relation.ReflTransGen Moves s (Tx.commit m s) := fun h => Tx.commit_of_wp .refl h
  cases e with
  | enroll c => exact hcommit (.single (enroll_moves c))
  | issue c => exact hcommit (.single (issue_moves c))
  | exchange c => exact hcommit (.single ((exchange_moves c).mono fun _ _ h => h.1))
  | revoke id => exact hcommit (.single (revoke_moves id))
  | discover c => exact hcommit (discover_makes c)
  | heartbeat c => exact hcommit ((heartbeat_makes c).mono fun _ _ h => h.1)
  | fail id => exact hcommit (fail_makes id)
  | stop id => exact hcommit (stop_makes id)
  | expire now => exact hcommit (expire_makes now)

/-! ## The invariant -/

theorem Enrollment.ended_id (id : String) (state : EnrollmentState) (e : Enrollment) :
    (e.ended id state).id = e.id := by
  unfold Enrollment.ended
  split <;> rfl

theorem Enrollment.begin_id (id : String) (generation lease : ℕ) (e : Enrollment) :
    (e.begin id generation lease).id = e.id := by
  unfold Enrollment.begin
  split <;> rfl

theorem Enrollment.ended_of_ne {id : String} {state : EnrollmentState} {e : Enrollment}
    (h : e.id ≠ id) : e.ended id state = e := if_neg fun hid => h hid.1

theorem Enrollment.begin_of_ne {id : String} {generation lease : ℕ} {e : Enrollment}
    (h : e.id ≠ id) : e.begin id generation lease = e := if_neg h

/-- **The epochs of a file are in order.** -/
structure Inv (s : Store) : Prop where
  /-- A ticket belongs to an enrollment. -/
  ticketOwned : ∀ t ∈ s.tickets.rows, ∃ e ∈ s.enrollments.rows, e.id = t.enrollment
  /-- A credential belongs to an enrollment that is not behind it. -/
  credentialOwned : ∀ k ∈ s.credentials.rows,
    ∃ e ∈ s.enrollments.rows, e.id = k.enrollment ∧ k.generation ≤ e.generation
  /-- What is over has no pending ticket. -/
  pending : ∀ t ∈ s.tickets.rows, t.state = .pending → ∀ e ∈ s.enrollments.rows,
    e.id = t.enrollment → ¬ e.state.Terminal
  /-- An active credential is one of the current epoch. -/
  active : ∀ k ∈ s.credentials.rows, k.state = .active → ∀ e ∈ s.enrollments.rows,
    e.id = k.enrollment → ¬ e.state.Terminal ∧ k.generation = e.generation
  /-- One ticket waits. -/
  single : Epochs.Single Ticket.enrollment (fun t => t.state = .pending) s.tickets.rows
  /-- Credentials are numbered upwards. -/
  rising : Epochs.Rising Credential.enrollment Credential.generation s.credentials.rows

theorem Inv.empty : Inv .empty :=
  ⟨List.forall_mem_nil _, List.forall_mem_nil _, List.forall_mem_nil _, List.forall_mem_nil _,
    Epochs.single_nil, Epochs.rising_nil⟩

/-- A new enrollment has no rows of others. -/
theorem Inv.enrolled (hs : Inv s) {e : Enrollment} (henrollments : s.enrollments.insert e =
    some s'.enrollments) (htickets : s'.tickets = s.tickets)
    (hcredentials : s'.credentials = s.credentials) : Inv s' := by
  have hrows := UniqueRows.rows_insert henrollments
  have hnew : ∀ b ∈ s.enrollments.rows, b.id ≠ e.id := fun b hb hid =>
    UniqueRows.not_clash_of_insert henrollments b hb (.inl hid)
  have hold : ∀ {e' : Enrollment}, e' ∈ s'.enrollments.rows →
      (∃ b ∈ s.enrollments.rows, b.id = e'.id) → e' ∈ s.enrollments.rows := by
    rintro e' he' ⟨b, hb, hid⟩
    rw [hrows, List.mem_append, List.mem_singleton] at he'
    rcases he' with he' | rfl
    · exact he'
    · exact absurd hid (hnew b hb)
  have hkeep : ∀ b ∈ s.enrollments.rows, b ∈ s'.enrollments.rows := fun b hb =>
    UniqueRows.mem_insert_of_mem henrollments hb
  refine ⟨?_, ?_, ?_, ?_, ?_, ?_⟩
  · rw [htickets]
    intro t ht
    obtain ⟨b, hb, hid⟩ := hs.ticketOwned t ht
    exact ⟨b, hkeep b hb, hid⟩
  · rw [hcredentials]
    intro k hk
    obtain ⟨b, hb, h⟩ := hs.credentialOwned k hk
    exact ⟨b, hkeep b hb, h⟩
  · rw [htickets]
    intro t ht hpending e' he' hid
    obtain ⟨b, hb, hbid⟩ := hs.ticketOwned t ht
    exact hs.pending t ht hpending e' (hold he' ⟨b, hb, hbid.trans hid.symm⟩) hid
  · rw [hcredentials]
    intro k hk hactive e' he' hid
    obtain ⟨b, hb, hbid, -⟩ := hs.credentialOwned k hk
    exact hs.active k hk hactive e' (hold he' ⟨b, hb, hbid.trans hid.symm⟩) hid
  · rw [htickets]
    exact hs.single
  · rw [hcredentials]
    exact hs.rising

theorem Inv.issued (hs : Inv s) {e : Enrollment} {t : Ticket} (he : e ∈ s.enrollments.rows)
    (hstate : ¬ e.state.Terminal)
    (hnone : ∀ u ∈ s.tickets.rows, u.enrollment = e.id → u.state ≠ .pending)
    (ht : t.enrollment = e.id) (hinsert : s.tickets.insert t = some s'.tickets)
    (henrollments : s'.enrollments = s.enrollments)
    (hcredentials : s'.credentials = s.credentials) : Inv s' := by
  have hrows := UniqueRows.rows_insert hinsert
  refine ⟨?_, ?_, ?_, ?_, ?_, ?_⟩
  · rw [hrows, henrollments, List.forall_mem_append, List.forall_mem_singleton]
    exact ⟨hs.ticketOwned, e, he, ht.symm⟩
  · rw [hcredentials, henrollments]
    exact hs.credentialOwned
  · rw [hrows, henrollments, List.forall_mem_append, List.forall_mem_singleton]
    refine ⟨hs.pending, fun _ e' he' hid => ?_⟩
    obtain rfl := enrollment_eq he' he (hid.trans ht)
    exact hstate
  · rw [hcredentials, henrollments]
    exact hs.active
  · rw [hrows]
    exact hs.single.append fun u hu hsame => hnone u hu (hsame.trans ht)
  · rw [hcredentials]
    exact hs.rising

/-- Enrollments move on, and what they move past is taken back. -/
theorem Inv.updated (hs : Inv s) {fe : Enrollment → Enrollment} {ft : Ticket → Ticket}
    {fk : Credential → Credential} (hid : ∀ e ∈ s.enrollments.rows, (fe e).id = e.id)
    (ht : ∀ t : Ticket, t.Follows (ft t)) (hk : ∀ k : Credential, k.Follows (fk k))
    (hle : ∀ e ∈ s.enrollments.rows, e.generation ≤ (fe e).generation)
    (hpending : ∀ e ∈ s.enrollments.rows, ∀ t ∈ s.tickets.rows, e.id = t.enrollment →
      (ft t).state = .pending → ¬ e.state.Terminal → ¬ (fe e).state.Terminal)
    (hactive : ∀ e ∈ s.enrollments.rows, ∀ k ∈ s.credentials.rows, e.id = k.enrollment →
      (fk k).state = .active → ¬ e.state.Terminal →
      ¬ (fe e).state.Terminal ∧ (fe e).generation = e.generation)
    (henrollments : s'.enrollments.rows = s.enrollments.rows.map fe)
    (htickets : s'.tickets.rows = s.tickets.rows.map ft)
    (hcredentials : s'.credentials.rows = s.credentials.rows.map fk) : Inv s' := by
  refine ⟨?_, ?_, ?_, ?_, ?_, ?_⟩
  · rw [htickets, List.forall_mem_map, henrollments]
    intro t hmem
    obtain ⟨e, he, howner⟩ := hs.ticketOwned t hmem
    exact ⟨fe e, List.mem_map_of_mem he, (hid e he).trans (howner.trans (ht t).enrollment.symm)⟩
  · rw [hcredentials, List.forall_mem_map, henrollments]
    intro k hmem
    obtain ⟨e, he, howner, hgeneration⟩ := hs.credentialOwned k hmem
    refine ⟨fe e, List.mem_map_of_mem he, (hid e he).trans (howner.trans
      (hk k).enrollment.symm), ?_⟩
    rw [(hk k).generation]
    exact Nat.le_trans hgeneration (hle e he)
  · rw [htickets, List.forall_mem_map, henrollments]
    intro t hmem hstate
    rw [List.forall_mem_map]
    intro e he howner
    rw [hid e he, (ht t).enrollment] at howner
    exact hpending e he t hmem howner hstate
      (hs.pending t hmem ((ht t).pending hstate) e he howner)
  · rw [hcredentials, List.forall_mem_map, henrollments]
    intro k hmem hstate
    rw [List.forall_mem_map]
    intro e he howner
    rw [hid e he, (hk k).enrollment] at howner
    obtain ⟨halive, hgeneration⟩ := hs.active k hmem ((hk k).state hstate) e he howner
    obtain ⟨halive', hsame⟩ := hactive e he k hmem howner hstate halive
    exact ⟨halive', (hk k).generation.trans (hgeneration.trans hsame.symm)⟩
  · rw [htickets]
    exact hs.single.map (fun t => (ht t).enrollment) fun t => (ht t).pending
  · rw [hcredentials]
    exact hs.rising.map (fun k => (hk k).enrollment) fun k => (hk k).generation

theorem Inv.ended (hs : Inv s) {id : String} {state : EnrollmentState}
    {credential : CredentialState} {ticket : TicketState} (hcredential : credential ≠ .active)
    (hticket : ticket ≠ .pending)
    (henrollments : s'.enrollments.rows = s.enrollments.rows.map (Enrollment.ended id state))
    (hcredentials : s'.credentials.rows = s.credentials.rows.map (Credential.ended id credential))
    (htickets : s'.tickets.rows = s.tickets.rows.map (Ticket.ended id ticket)) : Inv s' := by
  refine hs.updated (fun e _ => Enrollment.ended_id id state e) (Ticket.ended_follows hticket)
    (Credential.ended_follows hcredential) ?_ ?_ ?_ henrollments htickets hcredentials
  · intro e _
    unfold Enrollment.ended
    split
    · exact Nat.le_succ e.generation
    · exact Nat.le_refl e.generation
  · intro e _ t _ howner hstate halive
    -- a ticket that is still pending is one of another enrollment
    have hne : e.id ≠ id := fun h => Ticket.ended_not_pending hticket (howner.symm.trans h) hstate
    rwa [Enrollment.ended_of_ne hne]
  · intro e _ k _ howner hstate halive
    have hne : e.id ≠ id := fun h =>
      Credential.ended_not_active hcredential (howner.symm.trans h) hstate
    rw [Enrollment.ended_of_ne hne]
    exact ⟨halive, rfl⟩

theorem Inv.quiet (hs : Inv s) {fe : Enrollment → Enrollment} {ft : Ticket → Ticket}
    {fk : Credential → Credential} (he : ∀ e ∈ s.enrollments.rows, e.Stays (fe e))
    (ht : ∀ t : Ticket, t.Follows (ft t)) (hk : ∀ k : Credential, k.Follows (fk k))
    (henrollments : s'.enrollments.rows = s.enrollments.rows.map fe)
    (htickets : s'.tickets.rows = s.tickets.rows.map ft)
    (hcredentials : s'.credentials.rows = s.credentials.rows.map fk) : Inv s' :=
  hs.updated (fun e hmem => (he e hmem).id) ht hk (fun e hmem => Nat.le_of_eq (he e hmem).generation.symm)
    (fun e hmem _ _ _ _ halive hover => halive ((he e hmem).alive hover))
    (fun e hmem _ _ _ _ halive => ⟨fun hover => halive ((he e hmem).alive hover),
      (he e hmem).generation⟩) henrollments htickets hcredentials

/-- A credential above those of its enrollment, none of which is active. -/
theorem Inv.credentialed (hs : Inv s) {e : Enrollment} {k : Credential}
    (he : e ∈ s.enrollments.rows) (hstate : ¬ e.state.Terminal) (hk : k.enrollment = e.id)
    (hgeneration : k.generation = e.generation)
    (hbelow : ∀ k' ∈ s.credentials.rows, k'.enrollment = e.id → k'.generation < e.generation)
    (henrollments : s'.enrollments = s.enrollments) (htickets : s'.tickets = s.tickets)
    (hcredentials : s'.credentials.rows = s.credentials.rows ++ [k]) : Inv s' := by
  refine ⟨?_, ?_, ?_, ?_, ?_, ?_⟩
  · rw [htickets, henrollments]
    exact hs.ticketOwned
  · rw [hcredentials, henrollments, List.forall_mem_append, List.forall_mem_singleton]
    exact ⟨hs.credentialOwned, e, he, hk.symm, Nat.le_of_eq hgeneration⟩
  · rw [htickets, henrollments]
    exact hs.pending
  · rw [hcredentials, henrollments, List.forall_mem_append, List.forall_mem_singleton]
    refine ⟨hs.active, fun _ e' he' hid => ?_⟩
    obtain rfl := enrollment_eq he' he (hid.trans hk)
    exact ⟨hstate, hgeneration⟩
  · rw [htickets]
    exact hs.single
  · rw [hcredentials]
    refine hs.rising.append fun k' hk' hsame => ?_
    rw [hgeneration]
    exact hbelow k' hk' (hsame.trans hk)

theorem Credential.ended_clash {id : String} (a b : Credential)
    (h : (a.ended id .revoked).Clash (b.ended id .revoked)) : a.Clash b := by
  have hsame : ∀ k : Credential, (k.ended id .revoked).id = k.id ∧
      (k.ended id .revoked).tokenHash = k.tokenHash := fun k => by
    unfold Credential.ended
    split <;> exact ⟨rfl, rfl⟩
  have hfollows : ∀ k : Credential, k.Follows (k.ended id .revoked) :=
    Credential.ended_follows (by decide)
  rcases h with h | h | ⟨h, ha, hb⟩
  · exact .inl ((hsame a).1.symm.trans (h.trans (hsame b).1))
  · exact .inr (.inl ((hsame a).2.symm.trans (h.trans (hsame b).2)))
  · exact .inr (.inr ⟨(hfollows a).enrollment.symm.trans (h.trans (hfollows b).enrollment),
      (hfollows a).state ha, (hfollows b).state hb⟩)

theorem Ticket.consumed_follows (id : String) (t : Ticket) : t.Follows
    (if t.id = id ∧ t.state = .pending then { t with state := .consumed } else t) := by
  split
  case isTrue h => exact ⟨rfl, rfl, rfl, .inr ⟨h.2, TicketState.noConfusion⟩⟩
  case isFalse => exact .refl t

/-- **An exchange begins an epoch**: the ticket is consumed, the credential before is revoked,
and the new one is above all of its enrollment. -/
theorem Inv.exchanged (hs : Inv s) {e : Enrollment} {t : Ticket} {k : Credential} {lease : ℕ}
    (he : e ∈ s.enrollments.rows) (ht : t ∈ s.tickets.rows) (howner : t.enrollment = e.id)
    (hpending : t.state = .pending) (hgeneration : t.generation = e.generation + 1)
    (hk : k.enrollment = e.id) (hkgeneration : k.generation = t.generation)
    (henrollments : s'.enrollments.rows =
      s.enrollments.rows.map (Enrollment.begin e.id t.generation lease))
    (htickets : s'.tickets.rows = s.tickets.rows.map fun u =>
      if u.id = t.id ∧ u.state = .pending then { u with state := .consumed } else u)
    (hcredentials : s'.credentials.rows =
      s.credentials.rows.map (Credential.ended e.id .revoked) ++ [k]) : Inv s' := by
  have hone : ∀ e' ∈ s.enrollments.rows, e'.id = e.id → e' = e := fun e' he' h =>
    enrollment_eq he' he h
  have hbegun : ∀ e' : Enrollment, ¬ e'.state.Terminal →
      ¬ (e'.begin e.id t.generation lease).state.Terminal := fun e' halive => by
    unfold Enrollment.begin
    split
    · exact (by decide : ¬ EnrollmentState.awaitingHandshake.Terminal)
    · exact halive
  let u : Store :=
    { s' with credentials := s.credentials.map (Credential.ended e.id .revoked)
                Credential.ended_clash }
  have hmid : Inv u := by
    refine hs.updated (fun e' _ => Enrollment.begin_id e.id t.generation lease e')
      (Ticket.consumed_follows t.id) (Credential.ended_follows (by decide)) ?_ ?_ ?_ henrollments
      htickets rfl
    · intro e' he'
      unfold Enrollment.begin
      split
      case isTrue h =>
        show e'.generation ≤ t.generation
        rw [hone e' he' h, hgeneration]
        exact Nat.le_succ e.generation
      case isFalse => exact Nat.le_refl e'.generation
    · exact fun e' _ _ _ _ _ halive => hbegun e' halive
    · intro e' _ k' _ howner' hstate halive
      have hne : e'.id ≠ e.id := fun h =>
        Credential.ended_not_active (by decide) (howner'.symm.trans h) hstate
      rw [Enrollment.begin_of_ne hne]
      exact ⟨halive, rfl⟩
  have hnow : e.begin e.id t.generation lease ∈ u.enrollments.rows := by
    rw [show u.enrollments.rows = _ from henrollments]
    exact List.mem_map_of_mem he
  have hbegin : (e.begin e.id t.generation lease).generation = t.generation := by
    unfold Enrollment.begin
    rw [if_pos rfl]
  refine hmid.credentialed hnow (hbegun e ?_) (hk.trans (Enrollment.begin_id _ _ _ e).symm)
    (hkgeneration.trans hbegin.symm) ?_ rfl rfl hcredentials
  · exact hs.pending t ht hpending e he howner.symm
  · rw [Enrollment.begin_id, hbegin, hgeneration]
    refine List.forall_mem_map.mpr fun k' hk' howner' => ?_
    have hfollows : k'.Follows (k'.ended e.id .revoked) := Credential.ended_follows (by decide) k'
    rw [hfollows.enrollment] at howner'
    obtain ⟨e', he', hid, hle⟩ := hs.credentialOwned k' hk'
    rw [hone e' he' (hid.trans howner')] at hle
    rw [hfollows.generation]
    exact Nat.lt_succ_of_le hle

/-- **Every move keeps the invariant.** -/
theorem Inv.moves (hs : Inv s) (h : Moves s s') : Inv s' := by
  cases h with
  | enrolled e _ _ henrollments htickets hcredentials =>
    exact hs.enrolled henrollments htickets hcredentials
  | issued e t he hstate hnone ht _ _ hinsert henrollments hcredentials =>
    exact hs.issued he hstate hnone ht hinsert henrollments hcredentials
  | exchanged e t k lease he ht howner hpending _ hgeneration hk hkgeneration henrollments
      htickets hcredentials =>
    exact hs.exchanged he ht howner hpending hgeneration hk hkgeneration henrollments htickets
      hcredentials
  | ended id state credential ticket _ hcredential hticket henrollments hcredentials htickets =>
    exact hs.ended hcredential hticket henrollments hcredentials htickets
  | quiet fe ft fk he ht hk henrollments htickets hcredentials =>
    exact hs.quiet he ht hk henrollments htickets hcredentials

/-- **The invariant of every run.** -/
theorem inv_of_reachable (h : (system σ).Reachable s) : Inv s := by
  refine TransitionSystem.Reachable.invariant (T := system σ) (I := Inv) ?_ ?_ h
  · rintro s rfl
    exact .empty
  · intro s e s' _ hs hstep
    have hmoves : Relation.ReflTransGen Moves s (step σ s e) := step_moves s e
    rw [← show s' = step σ s e from hstep] at hmoves
    clear hstep
    induction hmoves with
    | refl => exact hs
    | tail _ hmove ih => exact ih.moves hmove

/-! ## What stays -/

/-- **What a later state keeps**: generations do not fall, an enrollment that is over stays as it
is, a ticket that is not pending stays what it is, and no credential is lost or renumbered. -/
structure Later (s s' : Store) : Prop where
  enrollments : ∀ e ∈ s.enrollments.rows, ∃ e' ∈ s'.enrollments.rows, e'.id = e.id ∧
    e.generation ≤ e'.generation ∧ (e.state.Terminal → e'.state = e.state)
  tickets : ∀ t ∈ s.tickets.rows, t.state ≠ .pending →
    ∃ t' ∈ s'.tickets.rows, t'.id = t.id ∧ t'.state = t.state
  credentials : ∀ k ∈ s.credentials.rows, ∃ k' ∈ s'.credentials.rows, k'.id = k.id ∧
    k'.enrollment = k.enrollment ∧ k'.generation = k.generation

theorem Later.refl (s : Store) : Later s s :=
  ⟨fun e he => ⟨e, he, rfl, Nat.le_refl _, fun _ => rfl⟩, fun t ht _ => ⟨t, ht, rfl, rfl⟩,
    fun k hk => ⟨k, hk, rfl, rfl, rfl⟩⟩

theorem Later.trans {a b c : Store} (hab : Later a b) (hbc : Later b c) : Later a c := by
  refine ⟨fun e he => ?_, fun t ht hover => ?_, fun k hk => ?_⟩
  · obtain ⟨e', he', hid, hle, hsame⟩ := hab.enrollments e he
    obtain ⟨e'', he'', hid', hle', hsame'⟩ := hbc.enrollments e' he'
    refine ⟨e'', he'', hid'.trans hid, Nat.le_trans hle hle', fun hover => ?_⟩
    rw [hsame' (by rwa [hsame hover]), hsame hover]
  · obtain ⟨t', ht', hid, hsame⟩ := hab.tickets t ht hover
    obtain ⟨t'', ht'', hid', hsame'⟩ := hbc.tickets t' ht' (hsame ▸ hover)
    exact ⟨t'', ht'', hid'.trans hid, hsame'.trans hsame⟩
  · obtain ⟨k', hk', hid, howner, hgeneration⟩ := hab.credentials k hk
    obtain ⟨k'', hk'', hid', howner', hgeneration'⟩ := hbc.credentials k' hk'
    exact ⟨k'', hk'', hid'.trans hid, howner'.trans howner, hgeneration'.trans hgeneration⟩

theorem Ticket.Follows.fixed {t t' : Ticket} (h : t.Follows t') (hover : t.state ≠ .pending) :
    t'.state = t.state := by
  rcases h.state with hsame | ⟨hpending, -⟩
  · exact hsame
  · exact absurd hpending hover

/-- Updates that let nothing fall back, and rows that are added. -/
theorem Later.of_maps {f : Enrollment → Enrollment} {ft : Ticket → Ticket}
    {fk : Credential → Credential} {es : List Enrollment} {ts : List Ticket} {ks : List Credential}
    (he : ∀ e ∈ s.enrollments.rows, (f e).id = e.id ∧ e.generation ≤ (f e).generation ∧
      (e.state.Terminal → (f e).state = e.state))
    (ht : ∀ t : Ticket, t.Follows (ft t)) (hk : ∀ k : Credential, k.Follows (fk k))
    (henrollments : s'.enrollments.rows = s.enrollments.rows.map f ++ es)
    (htickets : s'.tickets.rows = s.tickets.rows.map ft ++ ts)
    (hcredentials : s'.credentials.rows = s.credentials.rows.map fk ++ ks) : Later s s' := by
  refine ⟨fun e hmem => ⟨f e, ?_, he e hmem⟩, fun t hmem hover => ⟨ft t, ?_, (ht t).id,
    (ht t).fixed hover⟩, fun k hmem => ⟨fk k, ?_, (hk k).id, (hk k).enrollment,
    (hk k).generation⟩⟩
  · rw [henrollments]
    exact List.mem_append_left _ (List.mem_map_of_mem hmem)
  · rw [htickets]
    exact List.mem_append_left _ (List.mem_map_of_mem hmem)
  · rw [hcredentials]
    exact List.mem_append_left _ (List.mem_map_of_mem hmem)

theorem Moves.later (h : Moves s s') : Later s s' := by
  have hself : ∀ e ∈ s.enrollments.rows, e.id = e.id ∧ e.generation ≤ e.generation ∧
      (e.state.Terminal → e.state = e.state) := fun e _ => ⟨rfl, Nat.le_refl _, fun _ => rfl⟩
  have happend : ∀ {α : Type} (l m : List α), l ++ m = l.map id ++ m := fun l m => by
    rw [List.map_id]
  have hsame : ∀ {α : Type} {l m : List α}, l = m → l = m.map id ++ [] := fun h => by
    rw [h, List.map_id, List.append_nil]
  have hnil : ∀ {α : Type} {l m : List α}, l = m → l = m ++ [] := fun h => by
    rw [h, List.append_nil]
  cases h with
  | enrolled e _ _ henrollments htickets hcredentials =>
    exact .of_maps (f := id) hself .refl .refl
      ((UniqueRows.rows_insert henrollments).trans (happend _ _))
      (hsame (congrArg UniqueRows.rows htickets)) (hsame (congrArg UniqueRows.rows hcredentials))
  | issued e t _ _ _ _ _ _ hinsert henrollments hcredentials =>
    exact .of_maps (f := id) hself .refl .refl (hsame (congrArg UniqueRows.rows henrollments))
      ((UniqueRows.rows_insert hinsert).trans (happend _ _))
      (hsame (congrArg UniqueRows.rows hcredentials))
  | exchanged e t k lease he _ _ _ hstate hgeneration _ _ henrollments htickets hcredentials =>
    refine .of_maps (fun e' he' => ?_) (Ticket.consumed_follows t.id)
      (Credential.ended_follows (by decide)) (hnil henrollments) (hnil htickets) hcredentials
    refine ⟨Enrollment.begin_id _ _ _ e', ?_⟩
    unfold Enrollment.begin
    split
    case isTrue hid =>
      obtain rfl := enrollment_eq he' he hid
      exact ⟨hgeneration ▸ Nat.le_succ _, fun h => absurd h hstate⟩
    case isFalse => exact ⟨Nat.le_refl _, fun _ => rfl⟩
  | ended id state credential ticket _ hcredential hticket henrollments hcredentials htickets =>
    refine .of_maps (fun e _ => ⟨Enrollment.ended_id id state e, ?_⟩)
      (Ticket.ended_follows hticket) (Credential.ended_follows hcredential) (hnil henrollments)
      (hnil htickets) (hnil hcredentials)
    unfold Enrollment.ended
    split
    case isTrue h => exact ⟨Nat.le_succ _, fun hover => absurd hover h.2⟩
    case isFalse => exact ⟨Nat.le_refl _, fun _ => rfl⟩
  | quiet fe ft fk he ht hk henrollments htickets hcredentials =>
    exact .of_maps (fun e hmem => ⟨(he e hmem).id, Nat.le_of_eq (he e hmem).generation.symm,
      (he e hmem).terminal⟩) ht hk (hnil henrollments) (hnil htickets) (hnil hcredentials)

theorem later_of_runs (h : (system σ).Reachable s) (hrun : (system σ).Runs s s') : Later s s' := by
  refine TransitionSystem.Runs.lift (R := Later) .refl .trans (fun s e s' _ hstep => ?_) h hrun
  have hmoves : Relation.ReflTransGen Moves s (step σ s e) := step_moves s e
  rw [← show s' = step σ s e from hstep] at hmoves
  clear hstep
  induction hmoves with
  | refl => exact .refl s
  | tail _ hmove ih => exact ih.trans hmove.later

/-! ## The fence -/

/-- **A file whose launches are fenced.** -/
structure Fenced (s : Store) : Prop where
  onePending : ∀ t ∈ s.tickets.rows, ∀ u ∈ s.tickets.rows, t.enrollment = u.enrollment →
    t.state = .pending → u.state = .pending → t = u
  oneActive : ∀ j ∈ s.credentials.rows, ∀ k ∈ s.credentials.rows, j.enrollment = k.enrollment →
    j.state = .active → k.state = .active → j = k
  apart : ∀ j ∈ s.credentials.rows, ∀ k ∈ s.credentials.rows, j.enrollment = k.enrollment →
    j.generation = k.generation → j = k
  current : ∀ k ∈ s.credentials.rows, k.state = .active → ∀ e ∈ s.enrollments.rows,
    e.id = k.enrollment → k.generation = e.generation
  terminated : ∀ e ∈ s.enrollments.rows, e.state.Terminal →
    (∀ t ∈ s.tickets.rows, t.enrollment = e.id → t.state ≠ .pending) ∧
    ∀ k ∈ s.credentials.rows, k.enrollment = e.id → k.state ≠ .active

theorem Inv.fenced (hs : Inv s) : Fenced s where
  onePending _ ht _ hu hsame hpt hpu := hs.single.eq_of ht hu hsame hpt hpu
  oneActive _ hj _ hk hsame hactivej hactivek :=
    s.credentials.eq_of_clash (fun _ _ h => by
      rcases h with h | h | ⟨h, ha, hb⟩
      · exact .inl h.symm
      · exact .inr (.inl h.symm)
      · exact .inr (.inr ⟨h.symm, hb, ha⟩)) hj hk (.inr (.inr ⟨hsame, hactivej, hactivek⟩))
  apart _ hj _ hk hsame hgeneration := hs.rising.eq_of hj hk hsame hgeneration
  current k hk hactive e he hid := (hs.active k hk hactive e he hid).2
  terminated e he hover := ⟨fun t ht howner hpending => hs.pending t ht hpending e he howner.symm hover,
    fun k hk howner hactive => (hs.active k hk hactive e he howner.symm).1 hover⟩

/-- A ticket that is not pending is not exchanged. -/
theorem exchange_refused {c : ExchangeCall} {t : Ticket} (ht : t ∈ s.tickets.rows)
    (hover : t.state ≠ .pending) (hid : ticketId c.ticket = some t.id) :
    ∃ error, exchangeRuntimeLaunchTicket σ c s = .error error := by
  refine Tx.fails_of_wp (E := fun _ => True) ((exchange_moves c).mono fun _ u h => ?_)
  obtain ⟨-, t', ht', hid', hpending, -⟩ := h
  obtain rfl := ticket_eq ht' ht (Option.some.inj (hid'.symm.trans hid))
  exact hover hpending

/-- **The launches of managed Workers are fenced**, in every run. -/
theorem launches_fenced (h : (system σ).Reachable s) :
    Fenced s ∧
    (∀ c answer s', exchangeRuntimeLaunchTicket σ c s = .ok (answer, s') →
      ∃ t ∈ s.tickets.rows, ticketId c.ticket = some t.id ∧
        (∃ e ∈ s.enrollments.rows, e.id = t.enrollment ∧ t.generation = e.generation + 1) ∧
        ∀ u, (system σ).Runs s' u → ∀ c', ticketId c'.ticket = some t.id →
          ∃ error, exchangeRuntimeLaunchTicket σ c' u = .error error) ∧
    (∀ u, (system σ).Runs s u → Later s u) ∧
    ∀ c s', c.actor.role = .worker → heartbeatRuntime σ c s = .ok (⟨⟩, s') →
      ∃ e ∈ s.enrollments.rows, e.id = c.actor.enrollmentId ∧
        some e.generation = c.actor.enrollmentGeneration ∧
        ∃ sequence, c.sequence = some sequence ∧
          (Replayed sequence e.heartbeatSequence → s' = s) ∧
          (¬ Replayed sequence e.heartbeatSequence → sequence = e.heartbeatSequence + 1 ∧
            ∃ e' ∈ s'.enrollments.rows, e'.id = e.id ∧ e'.generation = e.generation ∧
              e'.heartbeatSequence = e.heartbeatSequence + 1) := by
  refine ⟨(inv_of_reachable h).fenced, fun c answer s' hrun => ?_, fun u => later_of_runs h,
    fun c s' hworker hrun => ?_⟩
  · obtain ⟨-, t, ht, hid, -, hnext, t', ht', hsame, hconsumed⟩ := (exchange_moves c).run hrun
    have hs' : (system σ).Reachable s' := h.next (e := .exchange c) (by
      show s' = Tx.commit _ s
      unfold Tx.commit
      rw [hrun])
    refine ⟨t, ht, hid, hnext, fun u hlater c' hid' => ?_⟩
    -- a consumed ticket stays consumed
    obtain ⟨t'', ht'', hsame', hstate⟩ :=
      (later_of_runs hs' hlater).tickets t' ht' (by rw [hconsumed]; decide)
    refine exchange_refused ht'' (by rw [hstate, hconsumed]; decide) ?_
    rw [hid', hsame', hsame]
  · obtain ⟨-, hworks⟩ := (heartbeat_makes c).run hrun
    obtain ⟨e, sequence, he, hsequence, hreplayed, hnext⟩ := hworks hworker
    refine ⟨e, he.mem, he.id, he.generation, sequence, hsequence, hreplayed, fun hnot => ?_⟩
    obtain ⟨hsucc, e', he', hid, hgeneration, hrecorded⟩ := hnext hnot
    exact ⟨hsucc, e', he', hid, hgeneration, hrecorded.trans hsucc⟩

/-! A launch whose ticket comes back. -/

def sampleSettings : Settings where
  runtimeEnrollmentTicketTtlSeconds := 300
  runtimeCredentialTtlSeconds := 3600
  workerMcpRequiredTools := ["report"]
  workerMcpToolContractDigest := "contract"
  verifyToken token hash := decide (token = ["cao", "ent_1", "secret"] ∧ hash = "scrypt")

def sampleExchange : ExchangeCall := ⟨["cao", "ent_1", "secret"], "rtc_1", "scrypt_1", 10⟩

/-- A ticket was issued. -/
def sampleOffered : Store :=
  [.enroll ⟨"run_1", "enr_1", "worker", 86400, 0⟩,
    .issue ⟨"run_1", none, false, true, "ent_1", "scrypt", 5⟩].foldl (step sampleSettings) .empty

/-- A ticket was exchanged. -/
def sampleLaunched : Store := step sampleSettings sampleOffered (.exchange sampleExchange)

theorem launches_fenced_replayed : Fenced sampleOffered ∧
    ∃ error, exchangeRuntimeLaunchTicket sampleSettings sampleExchange sampleLaunched =
      .error error := by
  have hoffered : (system sampleSettings).Reachable sampleOffered :=
    .next (.next (.of_init rfl) (e := .enroll ⟨"run_1", "enr_1", "worker", 86400, 0⟩) rfl)
      (e := .issue ⟨"run_1", none, false, true, "ent_1", "scrypt", 5⟩) rfl
  obtain ⟨hfenced, honce, -⟩ := launches_fenced hoffered
  refine ⟨hfenced, ?_⟩
  obtain ⟨t, -, hid, -, hrefused⟩ := honce sampleExchange ⟨"run_1", "enr_1", 1, 3600⟩
    sampleLaunched rfl
  exact hrefused sampleLaunched .refl sampleExchange hid

end Launches
