import OpenCAO.Delivery
import OpenCAO.TransitionSystem

/-!
# Competing dispatchers

Any number of dispatchers share the table of deliveries. Each claims a
row, captures it, and processes it in a job of its own: it may put the
row back, it may reserve the hand-off, and only then does it enter the
adapter – outside any transaction – and settle the outcome in a last
one. It may crash between any two of these, and the clock advances on
its own.

A state of the system is the table, the clock, the jobs in flight and
the list of hand-offs entered so far. What the jobs remember is exactly
what `_process_delivery` keeps in local variables: the captured row and
how far it got.
-/

/-- How far a job of `_process_delivery` got. -/
inductive JobPhase where
  /-- Before the reservation. -/
  | claimed
  /-- The reservation was refused. -/
  | refused
  /-- The hand-off is reserved, the adapter not entered yet. -/
  | reserved
  /-- The adapter was entered, or the job failed right before it. -/
  | submitted
  deriving DecidableEq, Repr

/-- **A job**: one captured delivery being processed by a dispatcher. -/
structure Job where
  /-- The owner token of the dispatcher. -/
  owner : String
  /-- The row as claimed. -/
  delivery : Delivery
  /-- How far the job got. -/
  phase : JobPhase
  deriving DecidableEq, Repr

/-- **The state of the dispatching system.** -/
structure Dispatching where
  /-- The clock. -/
  now : Instant
  /-- The rows of `message_deliveries`. -/
  deliveries : List Delivery
  /-- The jobs in flight. -/
  jobs : List Job
  /-- The hand-offs for which `adapter.dispatch` was entered, last
  first. -/
  handoffs : List ((MessageId × PrincipalId) × ℕ)

/-- The transactions a job issues before it reserved the hand-off. -/
inductive PreLaunch where
  /-- The parking check at the head of `_process_delivery`. -/
  | park (wakeReady : AttachmentId → Bool)
  /-- `_finish_delivery`. -/
  | finish (maxDispatchAttempts : ℕ) (errorCode : String) (dead : Bool)
  /-- `_defer_provider_rate_limited_delivery`. -/
  | deferRateLimited (nextAttemptAt : Instant)
  /-- `_defer_pending_launch_ticket_delivery`. -/
  | deferTicketPending (nextAttemptAt : Instant)
  /-- `_block_owner_private_delivery`, before the reservation. -/
  | block (code : String)

/-- The transactions a job issues after the adapter returned. -/
inductive Settlement where
  /-- The confirmation to `delivered`; its argument is whether the other
  conditions of the branch hold. -/
  | confirm (authority : Bool)
  /-- `_block_owner_private_delivery`, for a launch the adapter refused. -/
  | block (code : String)
  /-- `_retry_unstarted_cao_delivery`. -/
  | retryCao (ticketUnconsumed : Bool) (errorCode : String)
  /-- `_retry_unstarted_desktop_cao_delivery`. -/
  | retryDesktop (runtimeId : RuntimeId) (attachmentLive : RuntimeId → Bool)
  /-- `_mark_delivery_not_submitted`. -/
  | notSubmitted
  /-- `_mark_delivery_unknown`. -/
  | unknown (errorCode : String)

/-- The rows after a transaction issued before the reservation. -/
def PreLaunch.run (now : Instant) (j : Job) (rows : List Delivery) : PreLaunch → List Delivery
  | .park wakeReady => (Delivery.parkCaoCatalogDelivery wakeReady j.delivery j.owner rows).1
  | .finish maxAttempts errorCode dead =>
    Delivery.finishDelivery now maxAttempts j.delivery j.owner errorCode dead rows
  | .deferRateLimited t => Delivery.deferProviderRateLimitedDelivery j.delivery j.owner t rows
  | .deferTicketPending t => Delivery.deferPendingLaunchTicketDelivery j.delivery j.owner t rows
  | .block code => Delivery.blockOwnerPrivateDelivery .leased code j.delivery j.owner rows

/-- The rows after a transaction issued once the adapter returned. -/
def Settlement.run (now : Instant) (j : Job) (rows : List Delivery) : Settlement → List Delivery
  | .confirm authority =>
    if authority then Delivery.confirmDelivered j.delivery j.owner rows else rows
  | .block code => Delivery.blockOwnerPrivateDelivery .dispatched code j.delivery j.owner rows
  | .retryCao ticketUnconsumed errorCode =>
    Delivery.retryUnstartedCaoDelivery now ticketUnconsumed errorCode j.delivery j.owner rows
  | .retryDesktop runtimeId attachmentLive =>
    Delivery.retryUnstartedDesktopCaoDelivery now runtimeId attachmentLive j.delivery j.owner rows
  | .notSubmitted => Delivery.markDeliveryNotSubmitted j.delivery j.owner rows
  | .unknown errorCode => Delivery.markDeliveryUnknown j.delivery j.owner errorCode rows

/-- **What a job does before the reservation is fenced.** -/
theorem PreLaunch.run_fenced (now : Instant) (j : Job) (rows : List Delivery) (op : PreLaunch) :
    Delivery.FencedStep j.delivery j.owner rows (op.run now j rows) := by
  cases op with
  | park wakeReady => exact Delivery.parkCaoCatalogDelivery_fenced
  | finish maxAttempts errorCode dead => exact Delivery.finishDelivery_fenced
  | deferRateLimited t => exact Delivery.deferDelivery_fenced
  | deferTicketPending t => exact Delivery.deferDelivery_fenced
  | block code => exact Delivery.blockOwnerPrivateDelivery_fenced

/-- **What a job does after the hand-off is fenced.** -/
theorem Settlement.run_fenced (now : Instant) (j : Job) (rows : List Delivery)
    (op : Settlement) : Delivery.FencedStep j.delivery j.owner rows (op.run now j rows) := by
  cases op with
  | confirm authority =>
    cases authority with
    | true => exact Delivery.confirmDelivered_fenced
    | false => exact .refl rows
  | block code => exact Delivery.blockOwnerPrivateDelivery_fenced
  | retryCao ticketUnconsumed errorCode => exact Delivery.retryUnstartedCaoDelivery_fenced
  | retryDesktop runtimeId attachmentLive =>
    exact Delivery.retryUnstartedDesktopCaoDelivery_fenced
  | notSubmitted => exact Delivery.markDeliveryNotSubmitted_fenced
  | unknown errorCode => exact Delivery.markDeliveryUnknown_fenced

namespace Dispatching

/-- The events of the system. An event of a job names the job. -/
inductive Event where
  /-- The clock advances. -/
  | tick (seconds : ℕ)
  /-- A dispatcher crashes: its jobs are gone. -/
  | crash (owner : String)
  /-- A dispatcher runs `_claim_delivery`. -/
  | claim (owner : String) (leaseSeconds : ℕ) (query : Delivery.ClaimQuery)
  /-- A job issues a transaction before the reservation. -/
  | preLaunch (job : Job) (op : PreLaunch)
  /-- A job runs the reservation. -/
  | reserve (job : Job) (answers : Delivery.ReservationAnswers)
  /-- A job enters `adapter.dispatch`. -/
  | enter (job : Job)
  /-- A job with a reserved hand-off fails before it enters the adapter. -/
  | skip (job : Job)
  /-- A job issues a transaction after the adapter returned. -/
  | settle (job : Job) (op : Settlement)
  /-- A job returns. -/
  | leave (job : Job)

/-- The jobs with one of them moved to another phase. -/
def moveTo (phase : JobPhase) (j : Job) (jobs : List Job) : List Job :=
  { j with phase := phase } :: jobs.erase j

/-- **One step.** An event of a job is enabled when the job is in flight
and in the phase the event belongs to. -/
def step (s : Dispatching) : Event → Option Dispatching
  | .tick seconds => some { s with now := s.now + seconds }
  | .crash owner => some { s with jobs := s.jobs.filter fun j => j.owner ≠ owner }
  | .claim owner leaseSeconds query =>
    let claimed := Delivery.claimDelivery s.now leaseSeconds owner query s.deliveries
    some { s with
      deliveries := claimed.1,
      jobs := (claimed.2.map fun d => ⟨owner, d, .claimed⟩).toList ++ s.jobs }
  | .preLaunch j op =>
    if j ∈ s.jobs ∧ (j.phase = .claimed ∨ j.phase = .refused) then
      some { s with deliveries := op.run s.now j s.deliveries }
    else none
  | .reserve j answers =>
    if j ∈ s.jobs ∧ j.phase = .claimed then
      let outcome := Delivery.reserveDelivery answers j.delivery j.owner s.deliveries
      some { s with
        deliveries := outcome.1,
        jobs := moveTo (if outcome.2 then .reserved else .refused) j s.jobs }
    else none
  | .enter j =>
    if j ∈ s.jobs ∧ j.phase = .reserved then
      some { s with
        jobs := moveTo .submitted j s.jobs, handoffs := j.delivery.handoff :: s.handoffs }
    else none
  | .skip j =>
    if j ∈ s.jobs ∧ j.phase = .reserved then
      some { s with jobs := moveTo .submitted j s.jobs }
    else none
  | .settle j op =>
    if j ∈ s.jobs ∧ j.phase = .submitted then
      some { s with deliveries := op.run s.now j s.deliveries }
    else none
  | .leave j => if j ∈ s.jobs then some { s with jobs := s.jobs.erase j } else none

/-- The initial states: any table with its primary key, nothing in
flight. -/
def Initial (s : Dispatching) : Prop :=
  (s.deliveries.map Delivery.key).Nodup ∧ s.jobs = [] ∧ s.handoffs = []

/-- **The dispatching system.** -/
def system : TransitionSystem Dispatching Event := .ofFunction Initial step

/-! ## The invariant

A job stands for one hand-off, and no two jobs stand for the same one:
a generation of a row is leased once. A hand-off entered, or in the
hands of a job that reserved it, has left the lease of its generation
behind for good, because rows only advance. So whoever finds the row
leased under a generation finds a hand-off nobody entered. -/

open Delivery

/-- The table has covered a given distance of a hand-off's generation. -/
def Reached (rows : List Delivery) (h : (MessageId × PrincipalId) × ℕ) (distance : ℕ) : Prop :=
  ∃ d ∈ rows, d.key = h.1 ∧ toLex (h.2, distance) ≤ d.position

theorem Reached.mono {rows rows' : List Delivery} {h : (MessageId × PrincipalId) × ℕ} {n : ℕ}
    (hr : Reached rows h n) (hadv : List.Forall₂ Advances rows rows') : Reached rows' h n := by
  obtain ⟨d, hd, hkey, hle⟩ := hr
  obtain ⟨d', hd', hadvance⟩ := Rows.exists_right hadv hd
  exact ⟨d', hd', hadvance.key ▸ hkey, hle.trans hadvance.position⟩

/-- A row has reached its own position. -/
theorem reached_of_mem {rows : List Delivery} {d : Delivery} (hd : d ∈ rows) :
    Reached rows d.handoff d.state.distance :=
  ⟨d, hd, rfl, le_refl _⟩

/-- A row has not reached what lies ahead of it. -/
theorem not_reached {rows : List Delivery} (hkey : (rows.map Delivery.key).Nodup) {d : Delivery}
    (hd : d ∈ rows) {n : ℕ} (hn : d.state.distance < n) : ¬ Reached rows d.handoff n := by
  rintro ⟨d', hd', hkey', hle⟩
  obtain rfl : d' = d := Rows.eq_of_key hkey hd' hd hkey'
  rcases Prod.Lex.toLex_le_toLex.mp hle with hlt | ⟨-, hle⟩
  · exact absurd hlt (lt_irrefl _)
  · exact absurd hle (Nat.not_le.mpr hn)

/-- **The invariant of the dispatching system.** -/
structure Inv (s : Dispatching) : Prop where
  /-- The primary key of the table. -/
  keys : (s.deliveries.map Delivery.key).Nodup
  /-- No two jobs stand for the same hand-off. -/
  jobs_nodup : (s.jobs.map fun j => j.delivery.handoff).Nodup
  /-- The row of a job was leased under the captured generation. -/
  jobs_reached : ∀ j ∈ s.jobs, Reached s.deliveries j.delivery.handoff 1
  /-- A reserved hand-off is held by its job. -/
  reserved_held : ∀ j ∈ s.jobs, j.phase = .reserved →
    ∃ d ∈ s.deliveries, fenced j.delivery j.owner .dispatched d = true
  /-- No hand-off was entered twice. -/
  handoffs_nodup : s.handoffs.Nodup
  /-- The row of an entered hand-off left the lease of that generation. -/
  handoffs_reached : ∀ h ∈ s.handoffs, Reached s.deliveries h 2
  /-- The hand-off of a job that did not submit was not entered. -/
  fresh : ∀ j ∈ s.jobs, j.phase ≠ .submitted → j.delivery.handoff ∉ s.handoffs

theorem Inv.of_initial {s : Dispatching} (h : Initial s) : Inv s where
  keys := h.1
  jobs_nodup := by simp [h.2.1]
  jobs_reached := by simp [h.2.1]
  reserved_held := by simp [h.2.1]
  handoffs_nodup := by simp [h.2.2]
  handoffs_reached := by simp [h.2.2]
  fresh := by simp [h.2.1]

section Preservation

variable {s : Dispatching} {j : Job}

/-- Two jobs in flight for the same hand-off are the same job. -/
theorem Inv.job_unique (hs : Inv s) {i : Job} (hi : i ∈ s.jobs) (hj : j ∈ s.jobs)
    (h : i.delivery.handoff = j.delivery.handoff) : i = j :=
  List.inj_on_of_nodup_map hs.jobs_nodup hi hj h

/-- The table may advance as long as the reserved hand-offs stay held. -/
theorem Inv.advance (hs : Inv s) {rows : List Delivery}
    (hadv : List.Forall₂ Advances s.deliveries rows)
    (hheld : ∀ j ∈ s.jobs, j.phase = .reserved →
      ∃ d ∈ rows, fenced j.delivery j.owner .dispatched d = true) :
    Inv { s with deliveries := rows } where
  keys := by
    have : rows.map Delivery.key = s.deliveries.map Delivery.key :=
      Rows.map_eq_of_evolve (fun _ _ h => h.key) hadv
    simpa [this] using hs.keys
  jobs_nodup := hs.jobs_nodup
  jobs_reached j hj := (hs.jobs_reached j hj).mono hadv
  reserved_held := hheld
  handoffs_nodup := hs.handoffs_nodup
  handoffs_reached h hh := (hs.handoffs_reached h hh).mono hadv
  fresh := hs.fresh

/-- A fenced step of one job leaves what other jobs hold alone. -/
theorem Inv.held_of_fencedStep (hs : Inv s) (hj : j ∈ s.jobs) {rows : List Delivery}
    (hstep : FencedStep j.delivery j.owner s.deliveries rows) {i : Job} (hi : i ∈ s.jobs)
    (hne : i ≠ j) (hphase : i.phase = .reserved) :
    ∃ d ∈ rows, fenced i.delivery i.owner .dispatched d = true := by
  obtain ⟨d, hd, hfence⟩ := hs.reserved_held i hi hphase
  obtain ⟨hkey, hgen, -, -⟩ := fenced_iff.mp hfence
  have hhandoff : d.handoff = i.delivery.handoff := Prod.ext hkey hgen
  exact ⟨d, hstep.mem_of_ne hd fun h => hne (hs.job_unique hi hj (hhandoff.symm.trans h)), hfence⟩

/-- **A fenced step of a job that holds no reservation keeps the
invariant.** -/
theorem Inv.fencedStep (hs : Inv s) (hj : j ∈ s.jobs) (hphase : j.phase ≠ .reserved)
    {rows : List Delivery} (hstep : FencedStep j.delivery j.owner s.deliveries rows) :
    Inv { s with deliveries := rows } := by
  refine hs.advance hstep.advances fun i hi hreserved => ?_
  have hne : i ≠ j := by
    rintro rfl
    exact hphase hreserved
  exact hs.held_of_fencedStep hj hstep hi hne hreserved

/-- Jobs may end. -/
theorem Inv.sublist (hs : Inv s) {jobs : List Job} (hsub : jobs.Sublist s.jobs) :
    Inv { s with jobs := jobs } where
  keys := hs.keys
  jobs_nodup := hs.jobs_nodup.sublist (hsub.map _)
  jobs_reached i hi := hs.jobs_reached i (hsub.subset hi)
  reserved_held i hi := hs.reserved_held i (hsub.subset hi)
  handoffs_nodup := hs.handoffs_nodup
  handoffs_reached := hs.handoffs_reached
  fresh i hi := hs.fresh i (hsub.subset hi)

/-- A job in flight may be added when it stands for a new hand-off. -/
theorem Inv.cons_job (hs : Inv s) (hnew : ∀ i ∈ s.jobs, i.delivery.handoff ≠ j.delivery.handoff)
    (hreached : Reached s.deliveries j.delivery.handoff 1)
    (hheld : j.phase = .reserved →
      ∃ d ∈ s.deliveries, fenced j.delivery j.owner .dispatched d = true)
    (hfresh : j.phase ≠ .submitted → j.delivery.handoff ∉ s.handoffs) :
    Inv { s with jobs := j :: s.jobs } where
  keys := hs.keys
  jobs_nodup := by
    refine List.nodup_cons.mpr ⟨fun hmem => ?_, hs.jobs_nodup⟩
    obtain ⟨i, hi, heq⟩ := List.mem_map.mp hmem
    exact hnew i hi heq
  jobs_reached := List.forall_mem_cons.mpr ⟨hreached, hs.jobs_reached⟩
  reserved_held := List.forall_mem_cons.mpr ⟨hheld, hs.reserved_held⟩
  handoffs_nodup := hs.handoffs_nodup
  handoffs_reached := hs.handoffs_reached
  fresh := List.forall_mem_cons.mpr ⟨hfresh, hs.fresh⟩

/-- **A job may move to another phase** as long as a reservation is held
and a submitted job stays submitted. -/
theorem Inv.moveTo (hs : Inv s) (hj : j ∈ s.jobs) (phase : JobPhase)
    (hheld : phase = .reserved →
      ∃ d ∈ s.deliveries, fenced j.delivery j.owner .dispatched d = true)
    (hsubmitted : phase ≠ .submitted → j.phase ≠ .submitted) :
    Inv { s with jobs := moveTo phase j s.jobs } := by
  have hnodup : s.jobs.Nodup := hs.jobs_nodup.of_map _
  refine (hs.sublist (List.erase_sublist (a := j))).cons_job (j := { j with phase := phase })
    (fun i hi heq => ?_) (hs.jobs_reached j hj) hheld
    fun hp => hs.fresh j hj (hsubmitted hp)
  have hmem := (List.Nodup.mem_erase_iff hnodup).mp hi
  exact hmem.1 (hs.job_unique hmem.2 hj heq)

/-- **Entering the adapter keeps the invariant**: the hand-off was
reserved, so it is entered for the first time. -/
theorem Inv.enter (hs : Inv s) (hj : j ∈ s.jobs) (hphase : j.phase = .reserved) :
    Inv { s with
      jobs := Dispatching.moveTo .submitted j s.jobs,
      handoffs := j.delivery.handoff :: s.handoffs } := by
  have hmoved := hs.moveTo hj .submitted (fun h => by cases h) (fun h => absurd rfl h)
  have hfresh : j.delivery.handoff ∉ s.handoffs := hs.fresh j hj (by simp [hphase])
  refine { hmoved with
    handoffs_nodup := List.nodup_cons.mpr ⟨hfresh, hs.handoffs_nodup⟩
    handoffs_reached := List.forall_mem_cons.mpr ⟨?_, hs.handoffs_reached⟩
    fresh := fun i hi hp => ?_ }
  · obtain ⟨d, hd, hfence⟩ := hs.reserved_held j hj hphase
    obtain ⟨hkey, hgen, hstate, -⟩ := fenced_iff.mp hfence
    have hhandoff : d.handoff = j.delivery.handoff := Prod.ext hkey hgen
    simpa [hhandoff, hstate, DeliveryState.distance] using reached_of_mem hd
  · rcases List.mem_cons.mp hi with rfl | hi'
    · exact absurd rfl hp
    · have hmem := (List.Nodup.mem_erase_iff (hs.jobs_nodup.of_map _)).mp hi'
      refine List.not_mem_cons_of_ne_of_not_mem (fun heq => ?_) (hs.fresh i hmem.2 hp)
      exact hmem.1 (hs.job_unique hmem.2 hj heq)

/-- **A claim keeps the invariant**: the row it leases was in the queue,
so no job stands for its generation yet. -/
theorem Inv.claim (hs : Inv s) (leaseSeconds : ℕ) (owner : String) (q : ClaimQuery) :
    Inv { s with
      deliveries := (claimDelivery s.now leaseSeconds owner q s.deliveries).1,
      jobs := ((claimDelivery s.now leaseSeconds owner q s.deliveries).2.map
        fun d => (⟨owner, d, .claimed⟩ : Job)).toList ++ s.jobs } := by
  have hheld : ∀ i ∈ s.jobs, i.phase = .reserved →
      ∃ d ∈ (claimDelivery s.now leaseSeconds owner q s.deliveries).1,
        fenced i.delivery i.owner .dispatched d = true := by
    intro i hi hp
    obtain ⟨d, hd, hfence⟩ := hs.reserved_held i hi hp
    have hstate : d.state = .dispatched := (fenced_iff.mp hfence).2.2.1
    exact ⟨d, mem_claimDelivery hs.keys hd (by simp [hstate]) (by simp [hstate]), hfence⟩
  have hrows := hs.advance (advances_claimDelivery hs.keys) hheld
  rcases claimDelivery_cases s.now leaseSeconds owner q hs.keys with h | ⟨row, hrow, hq, -, h⟩
  · simpa [h] using hrows
  · have hreset : List.Forall₂ Advances s.deliveries (resetExpiredLeases s.now s.deliveries) :=
      advances_resetExpiredLeases
    have hkeys : ((resetExpiredLeases s.now s.deliveries).map Delivery.key).Nodup :=
      keys_resetExpiredLeases hs.keys
    have hdist : row.state.distance = 0 := by simp [hq, DeliveryState.distance]
    rw [h] at hrows ⊢
    refine hrows.cons_job (j := ⟨owner, lease (s.now + leaseSeconds) owner row, .claimed⟩)
      (fun i hi heq => ?_) ?_ (fun hp => by cases hp) fun _ hmem => ?_
    · have hreached : Reached (resetExpiredLeases s.now s.deliveries) row.handoff 1 := by
        have := (hs.jobs_reached i hi).mono hreset
        rwa [heq] at this
      exact not_reached hkeys hrow (by omega) hreached
    · have hmem := Rows.mem_update_of (f := lease (s.now + leaseSeconds) owner) hrow
        (p := stillQueued row) (by simp [stillQueued, hq])
      exact reached_of_mem hmem
    · have hreached := (hs.handoffs_reached _ hmem).mono hreset
      exact not_reached (n := 2) hkeys hrow (by omega) hreached

/-- **A reservation keeps the invariant.** -/
theorem Inv.reserve (hs : Inv s) (hj : j ∈ s.jobs) (hphase : j.phase = .claimed)
    (answers : ReservationAnswers) :
    Inv { s with
      deliveries := (reserveDelivery answers j.delivery j.owner s.deliveries).1,
      jobs := Dispatching.moveTo
        (if (reserveDelivery answers j.delivery j.owner s.deliveries).2 then .reserved
          else .refused) j s.jobs } := by
  have hfenced : FencedStep j.delivery j.owner s.deliveries
      (reserveDelivery answers j.delivery j.owner s.deliveries).1 :=
    reserveDelivery_fenced hs.keys
  have hrows := hs.fencedStep hj (by simp [hphase]) hfenced
  refine hrows.moveTo hj _ (fun hres => ?_) fun _ => by simp [hphase]
  rcases reserveDelivery_cases answers j.delivery j.owner hs.keys with h | ⟨hcount, h⟩
  · simp [h] at hres
  · rw [h]
    obtain ⟨d, hd, hfence⟩ := List.countP_pos_iff.mp (hcount ▸ Nat.one_pos)
    obtain ⟨hkey, hgen, -, howner⟩ := fenced_iff.mp hfence
    exact ⟨_, Rows.mem_update_of hd hfence, fenced_iff.mpr ⟨hkey, hgen, rfl, howner⟩⟩

end Preservation

/-- **Every step keeps the invariant.** -/
theorem Inv.step {s s' : Dispatching} (hs : Inv s) (e : Event)
    (h : Dispatching.step s e = some s') : Inv s' := by
  cases e with
  | tick seconds =>
    obtain rfl := Option.some.inj h
    exact { hs with }
  | crash owner =>
    obtain rfl := Option.some.inj h
    exact hs.sublist List.filter_sublist
  | claim owner leaseSeconds query =>
    obtain rfl := Option.some.inj h
    exact hs.claim leaseSeconds owner query
  | preLaunch j op =>
    obtain ⟨⟨hj, hphase⟩, rfl⟩ := TransitionSystem.of_guarded h
    exact hs.fencedStep hj (by rcases hphase with h | h <;> simp [h]) (op.run_fenced _ _ _)
  | reserve j answers =>
    obtain ⟨⟨hj, hphase⟩, rfl⟩ := TransitionSystem.of_guarded h
    exact hs.reserve hj hphase answers
  | enter j =>
    obtain ⟨⟨hj, hphase⟩, rfl⟩ := TransitionSystem.of_guarded h
    exact hs.enter hj hphase
  | skip j =>
    obtain ⟨⟨hj, -⟩, rfl⟩ := TransitionSystem.of_guarded h
    exact hs.moveTo hj .submitted (fun h => by cases h) fun h => absurd rfl h
  | settle j op =>
    obtain ⟨⟨hj, hphase⟩, rfl⟩ := TransitionSystem.of_guarded h
    exact hs.fencedStep hj (by simp [hphase]) (op.run_fenced _ _ _)
  | leave j =>
    obtain ⟨-, rfl⟩ := TransitionSystem.of_guarded h
    exact hs.sublist (List.erase_sublist (a := j))

/-- **Every reachable state meets the invariant.** -/
theorem inv_of_reachable {s : Dispatching} (hs : system.Reachable s) : Inv s := by
  refine hs.invariant (I := Inv) (fun _ h => Inv.of_initial h) ?_
  intro s e s' _ hinv hstep
  exact hinv.step e hstep

/-! ## The guarantees -/

/-- The job an event belongs to, when it is one of a job past its claim. -/
def Event.job? : Event → Option Job
  | .tick _ | .crash _ | .claim _ _ _ => none
  | .preLaunch j _ | .reserve j _ | .enter j | .skip j | .settle j _ | .leave j => some j

/-- A job is **stale** when the row of its delivery no longer has the
captured generation or no longer carries the job's token. -/
def Stale (s : Dispatching) (j : Job) : Prop :=
  ∀ d ∈ s.deliveries, d.key = j.delivery.key →
    d.generation ≠ j.delivery.generation ∨ d.ownerToken ≠ j.owner

/-- **Every step advances every row.** -/
theorem advances_of_step {s s' : Dispatching} (hkeys : (s.deliveries.map Delivery.key).Nodup)
    (e : Event) (h : Dispatching.step s e = some s') :
    List.Forall₂ Advances s.deliveries s'.deliveries := by
  cases e with
  | tick seconds =>
    obtain rfl := Option.some.inj h
    exact advances_rows_refl _
  | crash owner =>
    obtain rfl := Option.some.inj h
    exact advances_rows_refl _
  | claim owner leaseSeconds query =>
    obtain rfl := Option.some.inj h
    exact advances_claimDelivery hkeys
  | preLaunch j op =>
    obtain ⟨-, rfl⟩ := TransitionSystem.of_guarded h
    exact (op.run_fenced _ _ _).advances
  | reserve j answers =>
    obtain ⟨-, rfl⟩ := TransitionSystem.of_guarded h
    exact (reserveDelivery_fenced hkeys).advances
  | enter j =>
    obtain ⟨-, rfl⟩ := TransitionSystem.of_guarded h
    exact advances_rows_refl _
  | skip j =>
    obtain ⟨-, rfl⟩ := TransitionSystem.of_guarded h
    exact advances_rows_refl _
  | settle j op =>
    obtain ⟨-, rfl⟩ := TransitionSystem.of_guarded h
    exact (op.run_fenced _ _ _).advances
  | leave j =>
    obtain ⟨-, rfl⟩ := TransitionSystem.of_guarded h
    exact advances_rows_refl _

/-- **A job captures its delivery at the claim**: after a step a job has
the row it had before, or the row that a claim just selected. -/
theorem captured_of_step {s s' : Dispatching} (hkeys : (s.deliveries.map Delivery.key).Nodup)
    (e : Event) (h : Dispatching.step s e = some s') :
    ∀ j ∈ s'.jobs, (∃ i ∈ s.jobs, i.delivery = j.delivery) ∨
      ∃ owner leaseSeconds q, e = .claim owner leaseSeconds q ∧
        ∃ row ∈ resetExpiredLeases s.now s.deliveries, q.dispatchable row = true ∧
          j.delivery = lease (s.now + leaseSeconds) owner row := by
  have hmoved : ∀ (phase : JobPhase) (i : Job), i ∈ s.jobs → ∀ j ∈ moveTo phase i s.jobs,
      ∃ i ∈ s.jobs, i.delivery = j.delivery := by
    intro phase i hi j hj
    rcases List.mem_cons.mp hj with rfl | hj
    · exact ⟨i, hi, rfl⟩
    · exact ⟨j, List.mem_of_mem_erase hj, rfl⟩
  intro j hj
  cases e with
  | tick seconds =>
    obtain rfl := Option.some.inj h
    exact .inl ⟨j, hj, rfl⟩
  | crash owner =>
    obtain rfl := Option.some.inj h
    exact .inl ⟨j, (List.mem_filter.mp hj).1, rfl⟩
  | claim owner leaseSeconds query =>
    obtain rfl := Option.some.inj h
    rcases List.mem_append.mp hj with hnew | hold
    · rcases claimDelivery_cases s.now leaseSeconds owner query hkeys with
        hcase | ⟨row, hrow, -, hdispatchable, hcase⟩
      · simp [hcase] at hnew
      · refine .inr ⟨owner, leaseSeconds, query, rfl, row, hrow, hdispatchable, ?_⟩
        have hjob : j = ⟨owner, lease (s.now + leaseSeconds) owner row, .claimed⟩ := by
          simpa [hcase] using hnew
        rw [hjob]
    · exact .inl ⟨j, hold, rfl⟩
  | preLaunch i op =>
    obtain ⟨-, rfl⟩ := TransitionSystem.of_guarded h
    exact .inl ⟨j, hj, rfl⟩
  | reserve i answers =>
    obtain ⟨⟨hi, -⟩, rfl⟩ := TransitionSystem.of_guarded h
    exact .inl (hmoved _ i hi j hj)
  | enter i =>
    obtain ⟨⟨hi, -⟩, rfl⟩ := TransitionSystem.of_guarded h
    exact .inl (hmoved _ i hi j hj)
  | skip i =>
    obtain ⟨⟨hi, -⟩, rfl⟩ := TransitionSystem.of_guarded h
    exact .inl (hmoved _ i hi j hj)
  | settle i op =>
    obtain ⟨-, rfl⟩ := TransitionSystem.of_guarded h
    exact .inl ⟨j, hj, rfl⟩
  | leave i =>
    obtain ⟨-, rfl⟩ := TransitionSystem.of_guarded h
    exact .inl ⟨j, List.mem_of_mem_erase hj, rfl⟩

/-- A stale job does not reserve, for it finds no row under its fence. -/
theorem Inv.reserve_of_stale {s : Dispatching} (hs : Inv s) {j : Job} (hstale : s.Stale j)
    (answers : ReservationAnswers) :
    (reserveDelivery answers j.delivery j.owner s.deliveries).1 = s.deliveries :=
  (reserveDelivery_fenced hs.keys).eq_of_stale hstale

/-- A job about to enter the adapter is not stale. -/
theorem Inv.not_stale {s : Dispatching} (hs : Inv s) {j : Job} (hj : j ∈ s.jobs)
    (hphase : j.phase = .reserved) : ¬ s.Stale j := by
  intro hstale
  obtain ⟨d, hd, hfence⟩ := hs.reserved_held j hj hphase
  obtain ⟨hkey, hgen, -, howner⟩ := fenced_iff.mp hfence
  rcases hstale d hd hkey with hne | hne
  · exact hne hgen
  · exact hne howner

/-- **A step of a stale job changes neither the table nor the hand-offs
entered.** -/
theorem Inv.unchanged_of_stale {s s' : Dispatching} (hs : Inv s) {e : Event} {j : Job}
    (h : Dispatching.step s e = some s') (he : e.job? = some j) (hstale : s.Stale j) :
    s'.deliveries = s.deliveries ∧ s'.handoffs = s.handoffs := by
  cases e with
  | tick seconds => cases he
  | crash owner => cases he
  | claim owner leaseSeconds query => cases he
  | preLaunch i op =>
    obtain rfl := Option.some.inj he
    obtain ⟨-, rfl⟩ := TransitionSystem.of_guarded h
    exact ⟨(op.run_fenced _ _ _).eq_of_stale hstale, rfl⟩
  | reserve i answers =>
    obtain rfl := Option.some.inj he
    obtain ⟨-, rfl⟩ := TransitionSystem.of_guarded h
    exact ⟨hs.reserve_of_stale hstale answers, rfl⟩
  | enter i =>
    obtain rfl := Option.some.inj he
    obtain ⟨⟨hj, hphase⟩, -⟩ := TransitionSystem.of_guarded h
    exact absurd hstale (hs.not_stale hj hphase)
  | skip i =>
    obtain ⟨-, rfl⟩ := TransitionSystem.of_guarded h
    exact ⟨rfl, rfl⟩
  | settle i op =>
    obtain rfl := Option.some.inj he
    obtain ⟨-, rfl⟩ := TransitionSystem.of_guarded h
    exact ⟨(op.run_fenced _ _ _).eq_of_stale hstale, rfl⟩
  | leave i =>
    obtain ⟨-, rfl⟩ := TransitionSystem.of_guarded h
    exact ⟨rfl, rfl⟩

/-- The steps that only let time pass over the leases: the clock, and the
claim with its reset of expired leases. -/
def Event.IsExpiry : Event → Prop
  | .tick _ | .claim _ _ _ => True
  | _ => False

/-- A queued delivery of message `1` to principal `2`, alone in its
table. -/
def single : Dispatching where
  now := 100
  deliveries := [{
    messageId := 1, recipientId := 2, recipientAttachmentId := none, state := .queued,
    generation := 1, attempts := 0, nextAttemptAt := 100, runtimeSessionId := some 3,
    leaseUntil := none, ownerToken := "", lastError := "", reactivationPolicy := .terminal }]
  jobs := []
  handoffs := []

/-- The row of `single` as a dispatcher captures it at its claim. -/
def single.claimed : Delivery :=
  ⟨1, 2, none, .leased, 1, 0, 100, some 3, some 160, "dispatcher-a", "", .terminal⟩

/-- The claim, the reservation and the hand-off of the only delivery. -/
def single.events : List Event :=
  [.claim "dispatcher-a" 60 ⟨fun _ => true, id⟩,
   .reserve ⟨"dispatcher-a", single.claimed, .claimed⟩ ⟨fun _ => true, true, true, true⟩,
   .enter ⟨"dispatcher-a", single.claimed, .reserved⟩]

end Dispatching
