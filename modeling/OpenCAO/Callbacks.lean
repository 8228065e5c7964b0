import OpenCAO.Dispatcher

/-!
# Push callbacks

A task of the A2A interface may have callbacks. Each event of its Work is
posted to each of them, and one row of `a2a_push_deliveries` stands for one
such post. The dispatchers share the table: a row is claimed under a lease,
posted outside any transaction, and its outcome recorded in a last one.

The lease says who may post, and nothing else looks at it. The transactions
that record an outcome select the row by its identifier alone, so a holder
whose lease ran out while it waited for its answer writes over whatever the
next holder recorded. Where that does not happen – no failure is recorded
on a delivered row, and no success on a dead one (`Callbacks.InTime`) –
outcomes are final.
-/

/-- The identifier of a push delivery. -/
abbrev PushId := ℕ
/-- The identifier of a callback of a task. -/
abbrev PushConfigId := ℕ

/-- Where a push delivery stands. -/
inductive PushState where
  | queued | leased | delivered | dead
  deriving DecidableEq, Repr

/-- An outcome: posted, or given up. -/
def PushState.final : PushState → Bool
  | delivered | dead => true
  | queued | leased => false

/-- **A row of `a2a_push_deliveries`.** -/
structure PushDelivery where
  id : PushId
  configId : PushConfigId
  eventSequence : ℕ
  state : PushState
  attempts : ℕ
  nextAttemptAt : Instant
  leaseUntil : Option Instant
  ownerToken : String
  lastError : String
  createdAt : Instant
  deriving DecidableEq, Repr

namespace PushDelivery

/-! ## The transactions -/

/-- A row of a new event. -/
def enqueued (now : Instant) (id : PushId) (configId : PushConfigId) (eventSequence : ℕ) :
    PushDelivery :=
  { id, configId, eventSequence, state := .queued, attempts := 0, nextAttemptAt := now,
    leaseUntil := none, ownerToken := "", lastError := "", createdAt := now }

/-- A row whose lease is taken away. -/
def requeued (d : PushDelivery) : PushDelivery :=
  { d with state := .queued, leaseUntil := none, ownerToken := "" }

/-- A row under a lease. -/
def leasedTo (ownerToken : String) (leaseUntil : Instant) (d : PushDelivery) : PushDelivery :=
  { d with state := .leased, leaseUntil := some leaseUntil, ownerToken := ownerToken }

/-- The reset of expired leases at the head of `_claim_push_delivery`. -/
def resetExpiredLeases (now : Instant) (rows : List PushDelivery) : List PushDelivery :=
  Rows.update (fun d => d.state = .leased && d.leaseUntil.any (· < now)) requeued rows

/-- The row that is claimed: the longest due, the oldest of these first. -/
def selectQueued (now : Instant) (rows : List PushDelivery) : Option PushDelivery :=
  (rows.filter fun d => d.state = .queued && d.nextAttemptAt ≤ now).minOn?
    fun d => toLex (d.nextAttemptAt, d.createdAt)

/-- **`_claim_push_delivery`**: the rows, and the row that was claimed. -/
def claimPushDelivery (now : Instant) (leaseSeconds : ℕ) (ownerToken : String)
    (rows : List PushDelivery) : List PushDelivery × Option PushDelivery :=
  let rows := resetExpiredLeases now rows
  match selectQueued now rows with
  | none => (rows, none)
  | some row =>
    let due := fun d : PushDelivery => d.id = row.id && d.state = .queued
    if Rows.rowcount due rows ≠ 1 then (rows, none)
    else
      let rows := Rows.update due (leasedTo ownerToken (now + leaseSeconds)) rows
      (rows, rows.find? fun d => d.id = row.id)

/-- A row whose post was confirmed. -/
def confirmed (d : PushDelivery) : PushDelivery :=
  { d with state := .delivered, leaseUntil := none, ownerToken := "" }

/-- The transaction at the end of `_process_push`. -/
def confirmPush (id : PushId) (rows : List PushDelivery) : List PushDelivery :=
  Rows.update (fun d => d.id = id) confirmed rows

/-- A row after one more failure. -/
def failed (now : Instant) (maxDispatchAttempts : ℕ) (error : String) (d : PushDelivery) :
    PushDelivery :=
  let attempts := d.attempts + 1
  { d with
    state := if maxDispatchAttempts ≤ attempts then .dead else .queued
    attempts := attempts
    nextAttemptAt := now + Delivery.backoff attempts
    leaseUntil := none
    ownerToken := ""
    lastError := error }

/-- **`_finish_push`**. -/
def finishPush (now : Instant) (maxDispatchAttempts : ℕ) (id : PushId) (error : String)
    (rows : List PushDelivery) : List PushDelivery :=
  Rows.update (fun d => d.id = id) (failed now maxDispatchAttempts error) rows

end PushDelivery

/-! ## The system -/

/-- **A run of `_process_push`** on a claimed row. -/
structure PushJob where
  owner : String
  deliveryId : PushId
  deriving DecidableEq, Repr

/-- **The state of the callbacks**: the clock, the table, the jobs that wait
for an answer, and the identifier of the next row. -/
structure Callbacks where
  now : Instant
  deliveries : List PushDelivery
  jobs : List PushJob
  nextId : PushId

namespace Callbacks

open PushDelivery

/-- **The events.** -/
inductive Event where
  /-- The clock advances. -/
  | tick (seconds : ℕ)
  /-- A dispatcher crashes: its jobs are gone. -/
  | crash (owner : String)
  /-- An event of a Work is to be posted to a callback. -/
  | enqueue (configId : PushConfigId) (eventSequence : ℕ)
  /-- A callback is deleted, or an event: their rows go with them. -/
  | delete (keep : PushDelivery → Bool)
  /-- A dispatcher runs `_claim_push_delivery`. -/
  | claim (owner : String) (leaseSeconds : ℕ)
  /-- The post of a job was confirmed. -/
  | confirm (job : PushJob)
  /-- The post of a job failed. -/
  | fail (job : PushJob) (maxDispatchAttempts : ℕ) (error : String)
  /-- A job returns without an outcome. -/
  | leave (job : PushJob)

/-- **One step.** A post may take as long as it likes: its outcome is an event of
its own, enabled as long as its job is there. -/
def step (s : Callbacks) : Event → Option Callbacks
  | .tick seconds => some { s with now := s.now + seconds }
  | .crash owner => some { s with jobs := s.jobs.filter fun j => j.owner ≠ owner }
  | .enqueue configId eventSequence =>
    -- One row for a callback and an event.
    if ∃ d ∈ s.deliveries, d.configId = configId ∧ d.eventSequence = eventSequence then some s
    else
      some { s with
        deliveries := enqueued s.now s.nextId configId eventSequence :: s.deliveries
        nextId := s.nextId + 1 }
  | .delete keep => some { s with deliveries := s.deliveries.filter keep }
  | .claim owner leaseSeconds =>
    let claimed := claimPushDelivery s.now leaseSeconds owner s.deliveries
    some { s with
      deliveries := claimed.1
      jobs := (claimed.2.map fun d => ⟨owner, d.id⟩).toList ++ s.jobs }
  | .confirm j =>
    if j ∈ s.jobs then
      some { s with deliveries := confirmPush j.deliveryId s.deliveries, jobs := s.jobs.erase j }
    else none
  | .fail j maxDispatchAttempts error =>
    if j ∈ s.jobs then
      some { s with
        deliveries := finishPush s.now maxDispatchAttempts j.deliveryId error s.deliveries
        jobs := s.jobs.erase j }
    else none
  | .leave j => if j ∈ s.jobs then some { s with jobs := s.jobs.erase j } else none

/-- Nothing was enqueued yet. -/
def Initial (s : Callbacks) : Prop := s.deliveries = [] ∧ s.jobs = []

/-- **The system of the callbacks.** -/
def system : TransitionSystem Callbacks Event := .ofFunction Initial step

/-! ## Outcomes -/

/-- **No outcome is recorded over another one**: no failure on a delivered row, or
on a dead row that it would put back in the queue, and no success on a dead
row. -/
def InTime (s : Callbacks) : Event → Prop
  | .confirm j => ∀ d ∈ s.deliveries, d.id = j.deliveryId → d.state ≠ .dead
  | .fail j maxDispatchAttempts _ => ∀ d ∈ s.deliveries, d.id = j.deliveryId →
      d.state ≠ .delivered ∧ (d.state = .dead → maxDispatchAttempts ≤ d.attempts + 1)
  | _ => True

/-- A row that has an outcome keeps it. -/
def Kept (d d' : PushDelivery) : Prop := d'.id = d.id ∧ (d.state.final = true → d'.state = d.state)

theorem kept_refl (d : PushDelivery) : Kept d d := ⟨rfl, fun _ => rfl⟩

theorem kept_trans (a b c : PushDelivery) (h₁ : Kept a b) (h₂ : Kept b c) : Kept a c := by
  refine ⟨h₂.1.trans h₁.1, fun ha => ?_⟩
  have hb := h₁.2 ha
  rw [← hb]
  exact h₂.2 (by rw [hb]; exact ha)

/-- An update of rows without an outcome keeps every outcome. -/
theorem kept_update {p : PushDelivery → Bool} {f : PushDelivery → PushDelivery}
    (hid : ∀ d, (f d).id = d.id) (hp : ∀ d, p d = true → d.state.final = false)
    (rows : List PushDelivery) : List.Forall₂ Kept rows (Rows.update p f rows) := by
  refine Rows.evolve_update kept_refl (fun d hd => ⟨hid d, fun hfinal => ?_⟩) rows
  rw [hp d hd] at hfinal
  cases hfinal

/-- A claim looks at rows without an outcome only. -/
theorem kept_claim (now : Instant) (leaseSeconds : ℕ) (owner : String) (rows : List PushDelivery) :
    List.Forall₂ Kept rows (claimPushDelivery now leaseSeconds owner rows).1 := by
  have hreset : List.Forall₂ Kept rows (resetExpiredLeases now rows) := by
    refine kept_update (f := requeued) (fun d => rfl) (fun d hd => ?_) rows
    simp only [Bool.and_eq_true, decide_eq_true_eq] at hd
    rw [hd.1]
    rfl
  unfold claimPushDelivery
  dsimp only
  split
  · exact hreset
  · split
    · exact hreset
    · refine Rows.evolve_trans kept_trans hreset
        (kept_update (f := leasedTo owner (now + leaseSeconds)) (fun d => rfl) (fun d hd => ?_) _)
      simp only [Bool.and_eq_true, decide_eq_true_eq] at hd
      rw [hd.2]
      rfl

/-- What a step does to the rows. -/
inductive Changed (s s' : Callbacks) (R : PushDelivery → PushDelivery → Prop) : Prop where
  | enqueued (d : PushDelivery) (hid : d.id = s.nextId) (hrows : s'.deliveries = d :: s.deliveries)
      (hnext : s'.nextId = s.nextId + 1)
  | deleted (hrows : s'.deliveries.Sublist s.deliveries) (hnext : s'.nextId = s.nextId)
  | updated (hrows : List.Forall₂ R s.deliveries s'.deliveries) (hnext : s'.nextId = s.nextId)

/-- A row changes into one with its identifier, and keeps an outcome in time. -/
def KeptIn (s : Callbacks) (e : Event) (d d' : PushDelivery) : Prop :=
  d'.id = d.id ∧ (InTime s e → d.state.final = true → d'.state = d.state)

theorem keptIn_of_kept (s : Callbacks) (e : Event) (d d' : PushDelivery) (h : Kept d d') :
    KeptIn s e d d' := ⟨h.1, fun _ => h.2⟩

/-- **Each step enqueues a row, deletes some, or updates them**, and an update in
time keeps every outcome. -/
theorem changed_of_step {s s' : Callbacks} {e : Event} (h : s.step e = some s') :
    Changed s s' (KeptIn s e) := by
  have hsame : List.Forall₂ (KeptIn s e) s.deliveries s.deliveries :=
    List.forall₂_same.mpr fun d _ => keptIn_of_kept s e d d (kept_refl d)
  cases e with
  | tick | crash =>
    obtain rfl := Option.some.inj h
    exact .updated hsame rfl
  | enqueue configId eventSequence =>
    unfold step at h
    dsimp only at h
    split at h
    · obtain rfl := Option.some.inj h
      exact .updated hsame rfl
    · obtain rfl := Option.some.inj h
      exact .enqueued _ rfl rfl rfl
  | delete keep =>
    obtain rfl := Option.some.inj h
    exact .deleted List.filter_sublist rfl
  | claim owner leaseSeconds =>
    obtain rfl := Option.some.inj h
    exact .updated ((kept_claim s.now leaseSeconds owner s.deliveries).imp
      (keptIn_of_kept s (.claim owner leaseSeconds))) rfl
  | confirm j =>
    obtain ⟨-, rfl⟩ := TransitionSystem.of_guarded h
    refine .updated ?_ rfl
    show List.Forall₂ _ s.deliveries (confirmPush j.deliveryId s.deliveries)
    unfold confirmPush Rows.update
    rw [List.forall₂_map_right_iff, List.forall₂_same]
    intro d hd
    by_cases hid : d.id = j.deliveryId
    · rw [if_pos (by simpa using hid)]
      refine ⟨rfl, fun he hfinal => ?_⟩
      have halive := he d hd hid
      show PushState.delivered = d.state
      cases hstate : d.state <;> simp_all [PushState.final]
    · rw [if_neg (by simpa using hid)]
      exact ⟨rfl, fun _ _ => rfl⟩
  | fail j maxDispatchAttempts error =>
    obtain ⟨-, rfl⟩ := TransitionSystem.of_guarded h
    refine .updated ?_ rfl
    show List.Forall₂ _ s.deliveries
      (finishPush s.now maxDispatchAttempts j.deliveryId error s.deliveries)
    unfold finishPush Rows.update
    rw [List.forall₂_map_right_iff, List.forall₂_same]
    intro d hd
    by_cases hid : d.id = j.deliveryId
    · rw [if_pos (by simpa using hid)]
      refine ⟨rfl, fun he hfinal => ?_⟩
      obtain ⟨hundelivered, hdead⟩ := he d hd hid
      show (if maxDispatchAttempts ≤ d.attempts + 1 then PushState.dead else .queued) = d.state
      cases hstate : d.state <;> simp_all [PushState.final]
    · rw [if_neg (by simpa using hid)]
      exact ⟨rfl, fun _ _ => rfl⟩
  | leave j =>
    obtain ⟨-, rfl⟩ := TransitionSystem.of_guarded h
    exact .updated hsame rfl

/-- **An outcome recorded late replaces another one.** -/
theorem lost_of_late {s s' : Callbacks} {e : Event} (he : ¬ InTime s e)
    (h : s.step e = some s') :
    ∃ d ∈ s.deliveries, d.state.final = true ∧
      ∃ d' ∈ s'.deliveries, d'.id = d.id ∧ d'.state ≠ d.state := by
  cases e with
  | tick | crash | enqueue | delete | claim | leave => exact absurd trivial he
  | confirm j =>
    obtain ⟨-, rfl⟩ := TransitionSystem.of_guarded h
    have hlate : ∃ d ∈ s.deliveries, d.id = j.deliveryId ∧ d.state = .dead := by
      simpa [InTime] using he
    obtain ⟨d, hd, hid, hdead⟩ := hlate
    refine ⟨d, hd, by rw [hdead]; rfl, confirmed d, ?_, rfl, ?_⟩
    · exact Rows.mem_update_of hd (by simpa using hid)
    · rw [hdead]
      exact PushState.noConfusion
  | fail j maxDispatchAttempts error =>
    obtain ⟨-, rfl⟩ := TransitionSystem.of_guarded h
    have hlate : ∃ d ∈ s.deliveries, d.id = j.deliveryId ∧
        (d.state = .delivered ∨ d.state = .dead ∧ d.attempts + 1 < maxDispatchAttempts) := by
      by_contra hnone
      refine he fun d hd hid => ⟨fun hdelivered => hnone ⟨d, hd, hid, .inl hdelivered⟩, ?_⟩
      intro hdead
      by_contra hleft
      exact hnone ⟨d, hd, hid, .inr ⟨hdead, not_le.mp hleft⟩⟩
    obtain ⟨d, hd, hid, hstate⟩ := hlate
    refine ⟨d, hd, ?_, failed s.now maxDispatchAttempts error d, ?_, rfl, ?_⟩
    · rcases hstate with hdelivered | ⟨hdead, -⟩
      · rw [hdelivered]
        rfl
      · rw [hdead]
        rfl
    · exact Rows.mem_update_of hd (by simpa using hid)
    · show (if maxDispatchAttempts ≤ d.attempts + 1 then PushState.dead else .queued) ≠ d.state
      rcases hstate with hdelivered | ⟨hdead, hleft⟩
      · rw [hdelivered]
        split <;> decide
      · rw [hdead, if_neg (not_le.mpr hleft)]
        decide

/-! ## Runs -/

/-- Identifiers are unique, and the next one is new. -/
structure Numbered (s : Callbacks) : Prop where
  ids : (s.deliveries.map (·.id)).Nodup
  fresh : ∀ d ∈ s.deliveries, d.id < s.nextId

theorem numbered_of_step {s s' : Callbacks} {e : Event} (hs : Numbered s)
    (h : s.step e = some s') : Numbered s' := by
  cases changed_of_step h with
  | enqueued d hid hrows hnext =>
    constructor
    · rw [hrows, List.map_cons, List.nodup_cons]
      refine ⟨fun hmem => ?_, hs.ids⟩
      obtain ⟨d₀, hd₀, heq⟩ := List.mem_map.mp hmem
      have hlt := hs.fresh d₀ hd₀
      rw [heq, hid] at hlt
      exact Nat.lt_irrefl _ hlt
    · rw [hrows, hnext]
      intro d' hd'
      rcases List.mem_cons.mp hd' with rfl | hold
      · rw [hid]
        exact Nat.lt_succ_self _
      · exact Nat.lt_succ_of_lt (hs.fresh d' hold)
  | deleted hrows hnext =>
    constructor
    · exact hs.ids.sublist (hrows.map _)
    · rw [hnext]
      exact fun d hd => hs.fresh d (hrows.subset hd)
  | updated hrows hnext =>
    have hids : s'.deliveries.map (·.id) = s.deliveries.map (·.id) :=
      Rows.map_eq_of_evolve (fun _ _ hkept => hkept.1.symm) hrows
    constructor
    · rw [hids]
      exact hs.ids
    · rw [hnext]
      intro d' hd'
      obtain ⟨d, hd, hid, -⟩ := Rows.exists_left hrows hd'
      rw [hid]
      exact hs.fresh d hd

/-- Every row of an earlier state that is still there kept its outcome. -/
def Continues (s s' : Callbacks) : Prop :=
  s.nextId ≤ s'.nextId ∧
    ∀ d' ∈ s'.deliveries, d'.id < s.nextId → ∃ d ∈ s.deliveries, Kept d d'

theorem continues_refl (s : Callbacks) : Continues s s :=
  ⟨Nat.le_refl _, fun d hd _ => ⟨d, hd, kept_refl d⟩⟩

theorem continues_trans {a b c : Callbacks} (h₁ : Continues a b) (h₂ : Continues b c) :
    Continues a c := by
  refine ⟨h₁.1.trans h₂.1, fun d'' hd'' hlt => ?_⟩
  obtain ⟨d', hd', hkept'⟩ := h₂.2 d'' hd'' (hlt.trans_le h₁.1)
  obtain ⟨d, hd, hkept⟩ := h₁.2 d' hd' (by rw [← hkept'.1]; exact hlt)
  exact ⟨d, hd, kept_trans d d' d'' hkept hkept'⟩

theorem continues_of_step {s s' : Callbacks} {e : Event} (he : InTime s e)
    (h : s.step e = some s') : Continues s s' := by
  cases changed_of_step h with
  | enqueued d hid hrows hnext =>
    refine ⟨hnext ▸ Nat.le_succ _, fun d' hd' hlt => ?_⟩
    rw [hrows] at hd'
    rcases List.mem_cons.mp hd' with rfl | hold
    · rw [hid] at hlt
      exact absurd hlt (Nat.lt_irrefl _)
    · exact ⟨d', hold, kept_refl d'⟩
  | deleted hrows hnext =>
    exact ⟨hnext.ge, fun d' hd' _ => ⟨d', hrows.subset hd', kept_refl d'⟩⟩
  | updated hrows hnext =>
    refine ⟨hnext.ge, fun d' hd' _ => ?_⟩
    obtain ⟨d, hd, hid, hkept⟩ := Rows.exists_left hrows hd'
    exact ⟨d, hd, hid, hkept he⟩

/-- **Outcomes are final**: where every outcome is recorded in time, a callback
that was confirmed or given up stays so, however the dispatchers interleave
and however long a post takes. -/
theorem outcomes_final {s s' : Callbacks} (hs : (system.restrict InTime).Reachable s)
    (hrun : (system.restrict InTime).Runs s s') {d d' : PushDelivery} (hd : d ∈ s.deliveries)
    (hd' : d' ∈ s'.deliveries) (hid : d'.id = d.id) (hfinal : d.state.final = true) :
    d'.state = d.state := by
  have hnumbered : Numbered s := by
    refine TransitionSystem.Reachable.invariant (T := system.restrict InTime)
      (fun s hinit => ?_) (fun _ _ _ _ hI hstep => numbered_of_step hI hstep.2) hs
    exact ⟨by simp [hinit.1], by simp [hinit.1]⟩
  have hcontinues : Continues s s' :=
    TransitionSystem.Runs.lift (T := system.restrict InTime) continues_refl continues_trans
      (fun _ _ _ _ hstep => continues_of_step hstep.1 hstep.2) hs hrun
  obtain ⟨d₀, hd₀, hkept⟩ := hcontinues.2 d' hd' (by rw [hid]; exact hnumbered.fresh d hd)
  obtain rfl := Rows.eq_of_key hnumbered.ids hd₀ hd (by rw [← hkept.1, hid])
  exact hkept.2 hfinal

/-- One event posted to the callback `3`, and delivered. -/
def postedOnce : Callbacks where
  now := 100
  deliveries := [⟨0, 3, 12, .delivered, 0, 100, none, "", "", 100⟩]
  jobs := []
  nextId := 1

theorem postedOnce_reachable : (system.restrict InTime).Reachable postedOnce := by
  have hstart : (system.restrict InTime).Reachable ⟨100, [], [], 0⟩ := .of_init ⟨rfl, rfl⟩
  have hqueued := hstart.next (e := Event.enqueue 3 12) ⟨trivial, rfl⟩
  have hclaimed : (system.restrict InTime).Reachable
      ⟨100, [⟨0, 3, 12, .leased, 0, 100, some 160, "dispatcher-a", "", 100⟩],
        [⟨"dispatcher-a", 0⟩], 1⟩ :=
    hqueued.next (e := Event.claim "dispatcher-a" 60) ⟨trivial, rfl⟩
  refine hclaimed.next (e := Event.confirm ⟨"dispatcher-a", 0⟩) ⟨fun d hd _ => ?_, rfl⟩
  obtain rfl := List.mem_singleton.mp hd
  decide

/-- A second event is posted to the same callback. -/
def postedTwice : Callbacks where
  now := 100
  deliveries := [⟨1, 3, 13, .queued, 0, 100, none, "", "", 100⟩,
    ⟨0, 3, 12, .delivered, 0, 100, none, "", "", 100⟩]
  jobs := []
  nextId := 2

/-- The post of the first event stays delivered. -/
theorem first_post_final :
    (postedTwice.deliveries.all fun d => d.id ≠ 0 || d.state = .delivered) = true := by
  have hrun : (system.restrict InTime).Runs postedOnce postedTwice :=
    .single ⟨Event.enqueue 3 13, trivial, rfl⟩
  rw [List.all_eq_true]
  intro d' hd'
  by_cases hid : d'.id = 0
  · have hfinal := outcomes_final postedOnce_reachable hrun List.mem_cons_self hd' hid rfl
    simp [hfinal]
  · simp [hid]

/-- A post outlasts its lease, and another dispatcher posts again. -/
def overlapping : List Event :=
  [.enqueue 3 12, .claim "dispatcher-a" 60, .tick 61, .claim "dispatcher-b" 60,
   .confirm ⟨"dispatcher-a", 0⟩]

/-- The callback was confirmed, and the second post waits for its answer. -/
def confirmedTwice : Callbacks where
  now := 161
  deliveries := [⟨0, 3, 12, .delivered, 0, 100, none, "", "", 100⟩]
  jobs := [⟨"dispatcher-b", 0⟩]
  nextId := 1

/-- **A late failure puts a confirmed callback back in the queue.** -/
theorem outcomes_not_final :
    ¬ ∀ s s' : Callbacks, system.Reachable s → system.Runs s s' →
      ∀ d ∈ s.deliveries, ∀ d' ∈ s'.deliveries, d'.id = d.id → d.state.final = true →
        d'.state = d.state := by
  intro h
  have hstart : system.Reachable ⟨100, [], [], 0⟩ := .of_init ⟨rfl, rfl⟩
  have hconfirmed : system.Reachable confirmedTwice :=
    TransitionSystem.Reachable.replay overlapping hstart rfl
  have hlate := h _ _ hconfirmed
    (.single ⟨Event.fail ⟨"dispatcher-b", 0⟩ 8 "push callback returned HTTP 500", rfl⟩)
    _ List.mem_cons_self _ List.mem_cons_self rfl rfl
  revert hlate
  decide

end Callbacks
