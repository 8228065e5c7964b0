import OpenCAO.Lanes

/-!
# What is handed to a Worker

`_claim_delivery` checks the authority of an assignment, and the
reservation that follows in a later transaction does not check it again:
it is fenced by the row alone. Whatever commits in between has to leave
the authority as it is, or to settle the leased row.

So the assignments that are leased are watched over the whole run. An
assignment that is leased stands when it is claimed; only a transaction
on its Work can move it, and as long as each such transaction is quiet on
an active Work or settles the row, it still stands when the hand-off is
reserved (`assignments_current`). The interruption of a Work, its
cancellation while the runtime is alive, another goal and another Attempt
do neither: they end the authority and leave the leased row.
-/

/-! ## What a step of a dispatcher does to the leases -/

namespace Dispatching

open Delivery

theorem leased_of_update {p : Delivery → Bool} {u : Delivery → Delivery} {rows : List Delivery}
    (hu : ∀ d, p d = true → (u d).state ≠ .leased) {d : Delivery}
    (hd : d ∈ Rows.update p u rows) (hleased : d.state = .leased) : d ∈ rows := by
  obtain ⟨d₀, hd₀, rfl⟩ := Rows.mem_update.mp hd
  split at hleased
  · next hp => exact absurd hleased (hu d₀ hp)
  · next hp =>
    rw [if_neg hp]
    exact hd₀

/-- Before the reservation a job gives leases back and takes none. -/
theorem leased_of_preLaunch {now : Instant} {j : Job} {rows : List Delivery} (op : PreLaunch)
    {d : Delivery} (hd : d ∈ op.run now j rows) (hleased : d.state = .leased) : d ∈ rows := by
  cases op with
  | park wakeReady =>
    simp only [PreLaunch.run, parkCaoCatalogDelivery] at hd
    split at hd
    · exact hd
    · split at hd
      · exact hd
      · exact leased_of_update (fun _ _ => by simp [requeue]) hd hleased
  | finish maxAttempts errorCode dead =>
    refine leased_of_update (fun _ _ => ?_) hd hleased
    dsimp only
    split <;> simp
  | deferRateLimited t => exact leased_of_update (fun _ _ => by simp [requeue]) hd hleased
  | deferTicketPending t => exact leased_of_update (fun _ _ => by simp [requeue]) hd hleased
  | block code => exact leased_of_update (fun _ _ => by simp) hd hleased

/-- After the hand-off a job touches no lease. -/
theorem leased_of_settlement {now : Instant} {j : Job} {rows : List Delivery} (op : Settlement)
    {d : Delivery} (hd : d ∈ op.run now j rows) (hleased : d.state = .leased) : d ∈ rows := by
  cases op with
  | confirm authority =>
    simp only [Settlement.run] at hd
    split at hd
    · exact leased_of_update (fun _ _ => by simp) hd hleased
    · exact hd
  | block code => exact leased_of_update (fun _ _ => by simp) hd hleased
  | retryCao ticketUnconsumed errorCode =>
    simp only [Settlement.run, retryUnstartedCaoDelivery] at hd
    split at hd
    · exact leased_of_update (fun _ _ => by simp [requeue]) hd hleased
    · exact hd
  | retryDesktop runtimeId attachmentLive =>
    simp only [Settlement.run, retryUnstartedDesktopCaoDelivery] at hd
    split at hd
    · exact leased_of_update (fun _ _ => by simp [requeue]) hd hleased
    · exact hd
  | notSubmitted => exact leased_of_update (fun _ _ => by simp) hd hleased
  | unknown errorCode =>
    obtain ⟨d₀, hd₀, rfl⟩ := Rows.mem_update.mp hd
    split at hleased
    · next hp =>
      obtain ⟨-, -, hstate, -⟩ := fenced_iff.mp hp
      have : d₀.state = .leased := hleased
      rw [hstate] at this
      cases this
    · next hp =>
      rw [if_neg hp]
      exact hd₀

/-- **A lease is an old one, or a claim just took it** on a row that the query
admitted. -/
theorem leased_of_step {s s' : Dispatching} (hkeys : (s.deliveries.map Delivery.key).Nodup)
    (e : Event) (h : Dispatching.step s e = some s') {d : Delivery} (hd : d ∈ s'.deliveries)
    (hleased : d.state = .leased) : d ∈ s.deliveries ∨
      ∃ owner leaseSeconds q, e = .claim owner leaseSeconds q ∧
        ∃ row ∈ resetExpiredLeases s.now s.deliveries, q.dispatchable row = true ∧
          d = lease (s.now + leaseSeconds) owner row := by
  cases e with
  | tick | crash =>
    obtain rfl := Option.some.inj h
    exact .inl hd
  | claim owner leaseSeconds q =>
    obtain rfl := Option.some.inj h
    have hreset : ∀ d ∈ resetExpiredLeases s.now s.deliveries, d.state = .leased →
        d ∈ s.deliveries := fun d hd hl => leased_of_update (fun _ _ => by simp [requeue]) hd hl
    rcases claimDelivery_cases s.now leaseSeconds owner q hkeys with hc | ⟨row, hrow, -, hq, hc⟩
    · simp only [hc] at hd
      exact .inl (hreset d hd hleased)
    · simp only [hc] at hd
      obtain ⟨d₀, hd₀, rfl⟩ := Rows.mem_update.mp hd
      split
      · next hp =>
        right
        have hkey : d₀.key = row.key := by
          simp only [stillQueued, Bool.and_eq_true, decide_eq_true_eq] at hp
          exact hp.1.1
        obtain rfl : d₀ = row :=
          Rows.eq_of_key (keys_resetExpiredLeases hkeys) hd₀ hrow hkey
        exact ⟨owner, leaseSeconds, q, rfl, d₀, hd₀, hq, rfl⟩
      · next hp =>
        rw [if_neg hp] at hleased
        exact .inl (hreset d₀ hd₀ hleased)
  | preLaunch j op =>
    obtain ⟨-, rfl⟩ := TransitionSystem.of_guarded h
    exact .inl (leased_of_preLaunch op hd hleased)
  | reserve j answers =>
    obtain ⟨-, rfl⟩ := TransitionSystem.of_guarded h
    rcases reserveDelivery_cases answers j.delivery j.owner hkeys with hc | ⟨-, hc⟩
    · simp only [hc] at hd
      have hd : d ∈ PreLaunch.run s.now j s.deliveries (.park answers.wakeReady) := hd
      exact .inl (leased_of_preLaunch _ hd hleased)
    · simp only [hc] at hd
      exact .inl (leased_of_update (fun _ _ => by simp) hd hleased)
  | settle j op =>
    obtain ⟨-, rfl⟩ := TransitionSystem.of_guarded h
    exact .inl (leased_of_settlement op hd hleased)
  | enter | skip | leave =>
    obtain ⟨-, rfl⟩ := TransitionSystem.of_guarded h
    exact .inl hd

end Dispatching

namespace Lanes

open Delivery Store WorkFile

variable {L : Lanes}

/-! ## The invariant of the lanes -/

theorem commit_cases (L : Lanes) (t : Transaction) :
    L.commit t = L ∨ ∃ s', (L.informed t).run L.store = .ok (⟨⟩, s') ∧
      L.commit t =
        { store := s'
          sent := L.sent ++ newCommands L.store s'
          dispatching :=
            { L.dispatching with
              deliveries := L.deliveries.map (L.settle (L.informed t) s') ++
                newDeliveries L.dispatching.now s' L.sent.length (newCommands L.store s') } } := by
  unfold commit
  cases hrun : (L.informed t).run L.store with
  | error e => exact .inl rfl
  | ok r => exact .inr ⟨r.2, rfl, rfl⟩

theorem settles_state {world : World} {f g : WorkFile} {m : Message} {d : Delivery} {c : Call}
    {state : DeliveryState} (h : (c.settles world f m d).or (c.retires f g m d) = some state) :
    state = .dead ∨ state = .handled ∨ state = .acknowledged := by
  have hsettles : ∀ st, c.settles world f m d = some st →
      st = .dead ∨ st = .handled ∨ st = .acknowledged := by
    intro st hst
    cases c <;> simp only [Call.settles] at hst <;> first | cases hst | (split at hst <;> simp_all)
  have hretires : ∀ st, c.retires f g m d = some st → st = .dead := by
    intro st hst
    cases c <;> simp only [Call.retires] at hst <;> first | cases hst | skip
    split at hst
    · simp_all
    · split at hst <;> simp_all
  rcases Option.or_eq_some_iff.mp h with h | ⟨-, h⟩
  · exact hsettles state h
  · exact .inl (hretires state h)

/-- A transaction leaves a delivery as it is, or settles it. -/
theorem settle_cases (t : Transaction) (s' : Store) (d : Delivery) :
    L.settle t s' d = d ∨ ∃ state, L.settle t s' d = d.settled state ∧
      (state = .dead ∨ state = .handled ∨ state = .acknowledged) := by
  unfold settle
  split
  · split
    · split
      · split
        · next h => exact .inr ⟨_, rfl, settles_state h⟩
        · exact .inl rfl
      · exact .inl rfl
    · exact .inl rfl
  · exact .inl rfl

theorem settle_key (t : Transaction) (s' : Store) (d : Delivery) :
    (L.settle t s' d).key = d.key := by
  rcases settle_cases (L := L) t s' d with h | ⟨state, h, -⟩
  · rw [h]
  · rw [h]
    rfl

theorem messageId_of_key {d d' : Delivery} (h : d.key = d'.key) : d.messageId = d'.messageId :=
  congrArg Prod.fst h

theorem messageIds_newDeliveries (now : Instant) (s : Store) (first : ℕ) (cs : List Command) :
    (newDeliveries now s first cs).map (·.messageId) = (List.range cs.length).map (first + ·) := by
  refine List.ext_getElem (by simp [newDeliveries]) fun i h₁ h₂ => ?_
  simp [newDeliveries, Delivery.ofCommand]

theorem mem_newDeliveries {now : Instant} {s : Store} {first : ℕ} {cs : List Command}
    {d : Delivery} (hd : d ∈ newDeliveries now s first cs) :
    ∃ i, ∃ c, cs[i]? = some c ∧ d = .ofCommand now (first + i) c (commandRuntime s c) := by
  obtain ⟨i, hi, rfl⟩ := List.mem_mapIdx.mp hd
  exact ⟨i, cs[i], List.getElem?_eq_getElem hi, rfl⟩

/-- **What is known of every run of the lanes.** -/
structure Base (L : Lanes) : Prop where
  /-- The store is one that the control plane reaches. -/
  reachable : Supervision.system.Reachable L.store
  /-- The primary key of the deliveries. -/
  keys : (L.deliveries.map Delivery.key).Nodup
  /-- Every delivery is of a command that was sent. -/
  sent : ∀ d ∈ L.deliveries, d.messageId < L.sent.length
  /-- Every command is about an Attempt of its Work, on the goal of that Attempt. -/
  about : ∀ c ∈ L.sent, ∃ f ∈ L.store.files, f.id = c.workId ∧
    ∃ a ∈ f.attempts, a.number = c.message.attemptNumber ∧ a.goalVersion = c.message.goalVersion

end Lanes

namespace Supervision

open WorkFile

/-- **The files of every reachable store are addressed.** -/
theorem addressed_of_reachable {s : Store} (hs : system.Reachable s) :
    Store.Files Addressed s := by
  refine files_of_reachable (.of_writes (fun f g hf hw => ?_) fun n world packet runtime h =>
    addressed_file h runtime) hs
  obtain ⟨k, -, hw⟩ := hw
  exact hf.write hw

end Supervision

namespace Lanes

open Delivery Store WorkFile

variable {L L' : Lanes}

theorem Base.files (hL : Base L) : Files Addressed L.store :=
  Supervision.addressed_of_reachable hL.reachable

theorem Base.of_initial (h : L.Initial) : Base L where
  reachable := .of_init h.1
  keys := by
    rw [h.2.2.1]
    exact List.nodup_nil
  sent := by simp [h.2.2.1]
  about := by simp [h.2.1]

/-- Deliveries may change as long as they stay those of the same commands. -/
theorem Base.withDispatching (hL : Base L) {d : Dispatching}
    (hkeys : d.deliveries.map Delivery.key = L.deliveries.map Delivery.key) :
    Base { L with dispatching := d } where
  reachable := hL.reachable
  keys := by
    show (d.deliveries.map Delivery.key).Nodup
    rw [hkeys]
    exact hL.keys
  sent := by
    intro d' hd'
    have hmem : d'.key ∈ L.deliveries.map Delivery.key := by
      rw [← hkeys]
      exact List.mem_map_of_mem hd'
    obtain ⟨d₀, hd₀, hkey⟩ := List.mem_map.mp hmem
    rw [← messageId_of_key hkey]
    exact hL.sent d₀ hd₀
  about := hL.about

theorem mem_of_newCommands {s s' : Store} {c : Command} (hc : c ∈ newCommands s s') :
    ∃ f ∈ s'.files, f.id = c.workId ∧ c.message ∈ f.messages ∧
      ∀ g, s.file? f.id = some g → c.message ∉ g.messages := by
  obtain ⟨f, hf, hc⟩ := List.mem_flatMap.mp hc
  obtain ⟨m, hm, rfl⟩ := List.mem_map.mp (List.mem_reverse.mp hc)
  obtain ⟨hm, hnew⟩ := List.mem_filter.mp hm
  refine ⟨f, hf, rfl, hm, fun g hg hold => ?_⟩
  rw [hg] at hnew
  simp [hold] at hnew

/-- **A transaction keeps what is known of the lanes.** -/
theorem Base.commit (hL : Base L) (t : Transaction) : Base (L.commit t) := by
  rcases commit_cases L t with h | ⟨s', hrun, h⟩
  · rw [h]
    exact hL
  · have hstep : Supervision.system.step L.store (L.informed t) s' := by
      show Tx.commit _ _ = s'
      unfold Tx.commit
      rw [hrun]
    have hreach := hL.reachable.next (e := L.informed t) hstep
    have hevolves := Supervision.evolves_of_step hL.reachable hstep
    rw [h]
    refine ⟨hreach, ?_, ?_, ?_⟩
    · show ((L.deliveries.map (L.settle (L.informed t) s') ++ newDeliveries _ _ _ _).map
        Delivery.key).Nodup
      rw [List.map_append, List.map_map, List.nodup_append']
      refine ⟨?_, ?_, ?_⟩
      · have hkeys : L.deliveries.map (Delivery.key ∘ L.settle (L.informed t) s') =
            L.deliveries.map Delivery.key := List.map_congr_left fun d _ => settle_key _ _ d
        rw [hkeys]
        exact hL.keys
      · refine List.Nodup.of_map Prod.fst ?_
        rw [List.map_map]
        show ((newDeliveries _ _ _ _).map (·.messageId)).Nodup
        rw [messageIds_newDeliveries]
        exact List.nodup_range.map fun a b h => Nat.add_left_cancel h
      · intro k hk hk'
        obtain ⟨d, hd, rfl⟩ := List.mem_map.mp hk
        obtain ⟨d', hd', hkey⟩ := List.mem_map.mp hk'
        obtain ⟨i, c, -, rfl⟩ := mem_newDeliveries hd'
        have hid := (messageId_of_key hkey).trans (messageId_of_key (settle_key (L := L) _ _ d))
        have hle : L.sent.length + i = d.messageId := hid
        exact absurd (hL.sent d hd) (Nat.not_lt.mpr (hle ▸ Nat.le_add_right _ _))
    · intro d hd
      show d.messageId < (L.sent ++ _).length
      rw [List.length_append]
      rcases List.mem_append.mp hd with hd | hd
      · obtain ⟨d₀, hd₀, rfl⟩ := List.mem_map.mp hd
        rw [messageId_of_key (settle_key (L := L) _ _ d₀)]
        exact Nat.lt_of_lt_of_le (hL.sent d₀ hd₀) (Nat.le_add_right _ _)
      · obtain ⟨i, c, hc, rfl⟩ := mem_newDeliveries hd
        obtain ⟨hlt, -⟩ := List.getElem?_eq_some_iff.mp hc
        show L.sent.length + i < _
        omega
    · intro c hc
      rcases List.mem_append.mp hc with hc | hc
      · obtain ⟨f, hf, hid, a, ha, hnumber, hgoal⟩ := hL.about c hc
        obtain ⟨g, hg, hgid, hwrites⟩ := hevolves.file f hf
        obtain ⟨b, hb, hsame⟩ := (Retains.of_writes hwrites).attempts a ha
        exact ⟨g, hg, hgid.trans hid, b, hb, hsame.1 ▸ hnumber, hsame.2.2.2.1 ▸ hgoal⟩
      · obtain ⟨f, hf, hid, hm, -⟩ := mem_of_newCommands hc
        exact ⟨f, hf, hid, ((Supervision.addressed_of_reachable hreach).holds f hf).about _ hm⟩

/-- An event other than a transaction leaves the Works and the commands
alone. -/
structure SameWorks (L L' : Lanes) : Prop where
  store : L'.store = L.store
  sent : L'.sent = L.sent

theorem returned_key (d : Delivery) : (L.returned d).key = d.key := by
  unfold returned
  split <;> rfl

/-- What a step of a dispatcher is, on the lanes. -/
theorem dispatch_cases {e : Dispatching.Event} (h : L.step (.dispatch e) = some L') :
    ∃ d, Dispatching.step L.dispatching (L.observed e) = some d ∧
      L' = { L with dispatching := d } := by
  unfold step at h
  dsimp only at h
  split at h
  · cases h
  · cases h
  · obtain ⟨d, hd, rfl⟩ := Option.map_eq_some_iff.mp h
    exact ⟨d, hd, rfl⟩

/-- **Every step keeps what is known of the lanes**, and only transactions touch
the Works. -/
theorem Base.step (hL : Base L) (e : Event) (h : L.step e = some L') :
    Base L' ∧ ((∃ t, e = .commit t) ∨ SameWorks L L') := by
  cases e with
  | commit t =>
    obtain ⟨-, rfl⟩ := TransitionSystem.of_guarded h
    exact ⟨hL.commit t, .inl ⟨t, rfl⟩⟩
  | dispatch e =>
    obtain ⟨d, hd, rfl⟩ := dispatch_cases h
    refine ⟨hL.withDispatching ?_, .inr ⟨rfl, rfl⟩⟩
    exact Rows.map_eq_of_evolve (fun _ _ h => h.key) (Dispatching.advances_of_step hL.keys _ hd)
  | settle id state =>
    obtain ⟨-, rfl⟩ := TransitionSystem.of_guarded h
    exact ⟨hL.withDispatching (Rows.map_update (f := Delivery.settled state) (fun _ _ => rfl) _),
      .inr ⟨rfl, rfl⟩⟩
  | resolve id =>
    obtain rfl := Option.some.inj h
    exact ⟨hL.withDispatching (Rows.map_update (fun d _ => returned_key d) _), .inr ⟨rfl, rfl⟩⟩
  | reactivate recipient runtime admits =>
    obtain rfl := Option.some.inj h
    exact ⟨hL.withDispatching (Rows.map_update (f := WakeRouting.rearm _ runtime) (fun _ _ => rfl) _),
      .inr ⟨rfl, rfl⟩⟩

theorem base_of_reachable (hL : system.Reachable L) : Base L :=
  hL.invariant (fun _ h => .of_initial h) fun _ e _ _ hbase h => (hbase.step e h).1

/-- **A lease on the lanes is an old one, or it was just taken** on a delivery
that the store admits; a transaction left it alone. -/
theorem Base.leased_of_step (hL : Base L) (e : Event) (h : L.step e = some L') {d : Delivery}
    (hd : d ∈ L'.deliveries) (hleased : d.state = .leased) :
    (d ∈ L.deliveries ∧ ∀ t, e = .commit t → L' = L ∨
        ∃ s', (L.informed t).run L.store = .ok (⟨⟩, s') ∧ L'.store = s' ∧
          L'.sent = L.sent ++ newCommands L.store s' ∧ L.settle (L.informed t) s' d = d) ∨
      SameWorks L L' ∧ ∃ row : Delivery, d.messageId = row.messageId ∧
        d.runtimeSessionId = row.runtimeSessionId ∧ d.recipientId = row.recipientId ∧
        (L.withDeliveries (resetExpiredLeases L.dispatching.now L.deliveries)).Dispatchable row := by
  cases e with
  | commit t =>
    left
    obtain ⟨-, rfl⟩ := TransitionSystem.of_guarded h
    rcases commit_cases L t with hcommit | ⟨s', hrun, hcommit⟩
    · rw [hcommit] at hd
      exact ⟨hd, fun t' ht => by cases ht; exact .inl hcommit⟩
    · rw [hcommit] at hd
      rcases List.mem_append.mp hd with hd | hd
      · obtain ⟨d₀, hd₀, rfl⟩ := List.mem_map.mp hd
        have hsame : L.settle (L.informed t) s' d₀ = d₀ := by
          rcases settle_cases (L := L) (L.informed t) s' d₀ with h | ⟨state, h, hstate⟩
          · exact h
          · rw [h] at hleased
            have : state = .leased := hleased
            rcases hstate with rfl | rfl | rfl <;> cases this
        rw [hsame]
        exact ⟨hd₀, fun t' ht => by cases ht; exact .inr ⟨s', hrun, by rw [hcommit], by rw [hcommit], hsame⟩⟩
      · obtain ⟨i, c, -, rfl⟩ := mem_newDeliveries hd
        cases hleased
  | dispatch e =>
    obtain ⟨s, hs, rfl⟩ := dispatch_cases h
    rcases Dispatching.leased_of_step hL.keys _ hs hd hleased with hold | ⟨owner, l, q, he, row,
      hrow, hq, rfl⟩
    · exact .inl ⟨hold, fun t ht => by cases ht⟩
    · right
      refine ⟨⟨rfl, rfl⟩, row, rfl, rfl, rfl, ?_⟩
      cases e with
      | claim owner' l' q' =>
        obtain ⟨-, -, rfl⟩ := Dispatching.Event.claim.inj he
        simp only [claimQuery, Bool.and_eq_true, decide_eq_true_eq] at hq
        exact hq.1
      | _ => cases he
  | settle id state =>
    obtain ⟨hstate, rfl⟩ := TransitionSystem.of_guarded h
    refine .inl ⟨Dispatching.leased_of_update (fun d _ => ?_) hd hleased, fun t ht => by cases ht⟩
    show state ≠ .leased
    rcases hstate with rfl | rfl | rfl | rfl <;> simp
  | resolve id =>
    obtain rfl := Option.some.inj h
    refine .inl ⟨Dispatching.leased_of_update (fun d _ => ?_) hd hleased, fun t ht => by cases ht⟩
    unfold returned
    split <;> simp [requeue, Delivery.settled]
  | reactivate recipient runtime admits =>
    obtain rfl := Option.some.inj h
    refine .inl ⟨Dispatching.leased_of_update (fun d _ => ?_) hd hleased, fun t ht => by cases ht⟩
    simp [WakeRouting.rearm]

end Lanes

/-! ## Transactions on a Work with a leased assignment -/

open Lanes in
/-- The part of a transaction spares an assignment: on an active Work it is
quiet, or it settles the delivery. -/
def Store.Part.Spares (world : World) (f : WorkFile) (m : Message) (d : Delivery) :
    Store.Part → Prop
  | .call (.augment _ _ _) => True
  | .call c => c.Quiet world f ∨ (c.settles world f m d).isSome
  -- An active Work is not one that waits for another.
  | .resume _ _ => True
  | .interrupt _ | .recoverExpired _ => False

namespace WorkFile

open Tx

variable {f : WorkFile} {m : Message} {runtime : Option RuntimeId} {α : Type}

theorem Stands.keep (hf : f.Stands m runtime) {t : FileTx α} (ht : Makes (Writes quiet) f t) :
    wp t (fun _ g => g.Stands m runtime) (fun _ => True) f := by
  refine wp_mono ht (fun _ g hg => ?_) fun _ h => h
  obtain ⟨hwork, hattempts⟩ := eq_of_quiet hg
  exact hf.of_eq hattempts (by rw [hwork]) (by rw [hwork]) (by rw [hwork]) (by rw [hwork])

/-- An augmentation only asks for the attention of the supervisor. -/
theorem Stands.augment (hf : f.Stands m runtime) (env : Env) (actor : Actor)
    (directive : DirectiveId) (reason : String) :
    wp (augment env actor directive reason) (fun _ g => g.Stands m runtime) (fun _ => True) f := by
  have hattend : ∀ g : WorkFile, g.Stands m runtime →
      wp (move .attend) (fun _ g => g.Stands m runtime) (fun _ => True) g := by
    intro g hg
    unfold move
    rw [Tx.wp_statement]
    exact ⟨fun _ => hg.of_eq rfl rfl rfl rfl rfl, fun _ => trivial⟩
  unfold WorkFile.augment
  refine Reads.bind (reads_enter env actor) fun _ _ => ?_
  refine .get (.require fun _ => ensures_after_check fun _ _ => .need fun a _ => ?_)
  refine Ensures.bind (hf.keep (makes_recordBoundaryTx_quiet env _ _ _)) fun b g hg => ?_
  exact Ensures.bind (hg.keep (makes_message (by decide) env _)) fun _ g hg => hattend g hg

/-- An active Work does not return from an interruption. -/
theorem Stands.resume (hf : f.Stands m runtime) (env : Env) (w : WorkId) (resumer : PrincipalId) :
    wp (resumeInterruptedTarget env w resumer) (fun _ g => g.Stands m runtime) (fun _ => True)
      f := by
  unfold resumeInterruptedTarget
  rw [wp_bind, wp_get, wp_ite]
  refine ⟨fun hsuspended => ?_, fun _ => hf⟩
  rw [hf.2.1] at hsuspended
  cases hsuspended.1

/-- **A part that spares an assignment and does not settle it** leaves it
standing. -/
theorem Stands.part (hf : f.Stands m runtime) {d : Delivery} (env : Env) {p : Store.Part}
    (hp : p.Spares env.toWorld f m d)
    (hunsettled : ∀ c, p = .call c → c.settles env.toWorld f m d = none) :
    wp (p.run env) (fun _ g => g.Stands m runtime) (fun _ => True) f := by
  cases p with
  | interrupt w => exact hp.elim
  | recoverExpired t => exact hp.elim
  | resume w resumer => exact hf.resume env w resumer
  | call c =>
    have hquiet : c.Quiet env.toWorld f ∨ (c.settles env.toWorld f m d).isSome →
        wp (c.run env) (fun _ g => g.Stands m runtime) (fun _ => True) f := by
      rintro (hquiet | hsettled)
      · exact hf.keep (c.makes_quiet env hquiet hf.2.1 hf.2.2.1)
      · rw [hunsettled c rfl] at hsettled
        cases hsettled
    cases c with
    | augment actor directive reason => exact hf.augment env actor directive reason
    | _ => exact hquiet hp

/-- The assignment may be handed to its Worker: its Attempt is the latest one
and still assigned to the runtime, the Work is neither suspended nor paused
nor over, and what the assignment seals is current. -/
def CurrentAssignment (f : WorkFile) (m : Message) (runtime : Option RuntimeId) : Prop :=
  (∃ a ∈ f.latestAttempt?, a.number = m.attemptNumber ∧ a.state = .assigned ∧
      a.runtimeSessionId = runtime) ∧
    f.work.state ≠ .suspended ∧ f.work.pausedBoundaryId = none ∧
    f.work.state.terminal = false ∧ m.payload.generation = some f.work.generation ∧
    m.goalVersion = f.work.goalVersion

instance (f : WorkFile) (m : Message) (runtime : Option RuntimeId) :
    Decidable (f.CurrentAssignment m runtime) := by
  unfold CurrentAssignment
  infer_instance

theorem Stands.current (hf : f.Stands m runtime) : f.CurrentAssignment m runtime := by
  obtain ⟨hattempt, hactive, hrunning, hgeneration, hgoal⟩ := hf
  refine ⟨hattempt, ?_, hrunning, ?_, hgeneration, hgoal⟩
  · rw [hactive]
    simp
  · rw [hactive]
    rfl

end WorkFile

namespace Lanes

open Delivery Store WorkFile

variable {L L' : Lanes}

/-- The delivery, if it is an assignment, satisfies a condition on its Work. -/
def OfAssignment (L : Lanes) (d : Delivery) (P : WorkFile → Message → Prop) : Prop :=
  ∀ c ∈ L.command? d, c.message.kind = .assignment →
    ∃ f ∈ L.store.file? c.workId, P f c.message

/-- An assignment that is current. -/
def Current (L : Lanes) (d : Delivery) : Prop :=
  L.OfAssignment d fun f m => f.CurrentAssignment m d.runtimeSessionId

instance (L : Lanes) (d : Delivery) : Decidable (L.Current d) := by
  unfold Current OfAssignment
  infer_instance

/-- An assignment that stands. -/
def Standing (L : Lanes) (d : Delivery) : Prop :=
  L.OfAssignment d fun f m => f.Stands m d.runtimeSessionId

/-- **The condition on transactions**: each of their parts spares the assignments
of its Work that are leased. -/
def Spared (L : Lanes) : Event → Prop
  | .commit t => ∀ d ∈ L.deliveries, d.state = .leased → ∀ c ∈ L.command? d,
      c.message.kind = .assignment → ∀ f ∈ L.store.file? c.workId, ∀ world p,
        Touches L.store c.workId (L.informed t) world p → p.Spares world f c.message d
  | _ => True

theorem OfAssignment.of_same {d d' : Delivery} {P : WorkFile → Message → Prop}
    (h : L.OfAssignment d P) (hworks : SameWorks L L') (hid : d'.messageId = d.messageId) :
    L'.OfAssignment d' P := by
  unfold OfAssignment command? at *
  rw [hworks.store, hworks.sent, hid]
  exact h

/-- An assignment that a claim may take stands. -/
theorem Base.standing_of_dispatchable (hL : Base L) {rows : List Delivery} {row : Delivery}
    (h : (L.withDeliveries rows).Dispatchable row) : L.Standing row := by
  obtain ⟨c, hc, hauthority, hhead⟩ := h
  intro c' hc' hkind
  obtain rfl : c = c' := Option.some.inj (hc.symm.trans hc')
  obtain ⟨f, hf, hauthorizes⟩ := hauthority hkind
  obtain ⟨⟨a, ha, hnumber, -, -, -, hruntime, hstate⟩, hactive, -, hgeneration⟩ := hauthorizes
  refine ⟨f, hf, ⟨a, ha, hnumber, hstate, hruntime⟩, hactive, ?_, hgeneration, ?_⟩
  · by_contra hpaused
    exact hhead.1 ⟨c, hc, f, hf, hpaused⟩
  · have hmem := Store.mem_of_file? hf
    have hfile := hL.files.holds f hmem.1
    obtain ⟨g, hg, hid, b, hb, hbnumber, hbgoal⟩ := hL.about c (List.mem_of_getElem? hc')
    obtain rfl : g = f := Rows.eq_of_key hL.files.ids hg hmem.1 (hid.trans hmem.2.symm)
    obtain rfl : b = a := Rows.eq_of_key hfile.nodup_numbers hb (mem_of_latestAttempt? ha)
      (hbnumber.trans hnumber.symm)
    rw [← hbgoal]
    exact hfile.onGoal b ha

theorem command?_append {d : Delivery} {commands : List Command}
    (hlt : d.messageId < L.sent.length)
    (hsent : L'.sent = L.sent ++ commands) : L'.command? d = L.command? d := by
  unfold command?
  rw [hsent, List.getElem?_append_left hlt]

/-- **What a transaction leaves of an assignment** that was not sent and that the
transaction did not settle: what the parts on its Work keep. -/
theorem Base.ofAssignment_commit (hL : Base L) {t : Transaction} {s' : Store}
    (hrun : (L.informed t).run L.store = .ok (⟨⟩, s')) {d : Delivery} (hd : d ∈ L.deliveries)
    (hunsent : d.state.unsent = true) (hsettle : L.settle (L.informed t) s' d = d)
    {P : WorkFile → Message → Prop} (hP : L.OfAssignment d P)
    (hparts : ∀ c ∈ L.command? d, c.message.kind = .assignment →
      ∀ f ∈ L.store.file? c.workId, P f c.message → ∀ (env : Env) p,
        Touches L.store c.workId (L.informed t) env.toWorld p → (∀ u, p ≠ .recoverExpired u) ∧
          ((∀ call, p = .call call → call.settles env.toWorld f c.message d = none) →
            Tx.wp (p.run env) (fun _ g => P g c.message) (fun _ => True) f))
    (hstore : L'.store = s') (hsent : L'.sent = L.sent ++ newCommands L.store s') :
    L'.OfAssignment d P := by
  intro c hc hkind
  rw [command?_append (hL.sent d hd) hsent] at hc
  obtain ⟨f, hf, hPf⟩ := hP c hc hkind
  have hmem := Store.mem_of_file? hf
  have hstep : Supervision.system.step L.store (L.informed t) s' := by
    show Tx.commit _ _ = s'
    unfold Tx.commit
    rw [hrun]
  obtain ⟨g, hg, hgid, -⟩ := (Supervision.evolves_of_step hL.reachable hstep).file f hmem.1
  have hfiles : Files (fun _ => True) s' :=
    ⟨(Supervision.evolves_of_step hL.reachable hstep).ids, fun _ _ => trivial⟩
  have hg? : s'.file? c.workId = some g := by
    rw [← hmem.2, ← hgid]
    exact hfiles.file? hg
  have hafter := has_transaction (P := fun g => P g c.message) ⟨hL.files.ids, hmem.1⟩ hPf
    (L.informed t) fun env p htouches => by
      rw [hmem.2] at htouches
      obtain ⟨hscan, hpart⟩ := hparts c hc hkind f hf hPf env p htouches
      refine ⟨hscan, hpart fun call hcall => ?_⟩
      -- The call is the one whose transaction left the delivery as it is.
      cases hinformed : L.informed t with
      | call w world call' elsewhere resumer =>
        rw [hinformed, hcall] at htouches
        rcases htouches with ⟨hw, hworld, hcall'⟩ | ⟨-, -, hne⟩
        · obtain rfl := Part.call.inj hcall'
          by_contra hsome
          obtain ⟨state, hstate⟩ := Option.ne_none_iff_exists'.mp hsome
          have hboth : (call.settles world f c.message d).or (call.retires f g c.message d) =
              some state := by
            rw [← hworld, hstate]
            rfl
          have hsettled : L.settle (L.informed t) s' d = d.settled state := by
            have hc : L.command? d = some c := hc
            have hf : L.store.file? c.workId = some f := hf
            rw [hinformed, hw]
            unfold settle
            simp only [hc, if_true, hf, hg?, hboth]
          rw [hsettle] at hsettled
          have hstate : d.state = state := by
            rw [hsettled]
            rfl
          rw [hstate] at hunsent
          rcases settles_state hboth with rfl | rfl | rfl <;> cases hunsent
        · cases hne
      | createWork world n interrupts =>
        rw [hinformed, hcall] at htouches
        obtain ⟨_, _, _, _, hne⟩ := htouches
        cases hne
      | recoverExpiredReasonerTurns world =>
        rw [hinformed, hcall] at htouches
        obtain ⟨_, _, _, hne⟩ := htouches
        cases hne
  obtain ⟨g', hg', hgid', hPg'⟩ := Tx.of_wp hafter hrun
  refine ⟨g', ?_, hPg'⟩
  rw [hstore, ← hmem.2, ← hgid']
  exact hfiles.file? hg'.2

/-- **A spared assignment stands after a transaction** that left its delivery
leased. -/
theorem Base.standing_of_commit (hL : Base L) {t : Transaction} {s' : Store}
    (hrun : (L.informed t).run L.store = .ok (⟨⟩, s')) {d : Delivery} (hd : d ∈ L.deliveries)
    (hleased : d.state = .leased) (hsettle : L.settle (L.informed t) s' d = d)
    (hstanding : L.Standing d) (hspared : L.Spared (.commit t)) (hstore : L'.store = s')
    (hsent : L'.sent = L.sent ++ newCommands L.store s') : L'.Standing d := by
  refine hL.ofAssignment_commit hrun hd (by rw [hleased]; rfl) hsettle hstanding
    (fun c hc hkind f hf hstands env p htouches => ?_) hstore hsent
  have hspares := hspared d hd hleased c hc hkind f hf env.toWorld p htouches
  refine ⟨fun u hu => ?_, fun hunsettled => hstands.part env hspares hunsettled⟩
  rw [hu] at hspares
  exact hspares

/-- **Every leased assignment stands**, in every run whose transactions spare
what is leased. -/
theorem standing_of_spared (hL : (system.restrict Spared).Reachable L) :
    ∀ d ∈ L.deliveries, d.state = .leased → L.Standing d := by
  refine hL.invariant (I := fun L => ∀ d ∈ L.deliveries, d.state = .leased → L.Standing d)
    (fun L₀ h₀ d hd => ?_) fun L₁ e L₂ hreach hI hstep d hd hleased => ?_
  · have hnil : L₀.deliveries = [] := h₀.2.2.1
    rw [hnil] at hd
    cases hd
  · obtain ⟨hspared, hstep⟩ := hstep
    have hstep : L₁.step e = some L₂ := hstep
    have hbase := base_of_reachable hreach.of_restrict
    rcases hbase.leased_of_step e hstep hd hleased with ⟨hold, hcommit⟩ | ⟨hworks, row, hid,
      hruntime, -, hdispatchable⟩
    · rcases (hbase.step e hstep).2 with ⟨t, rfl⟩ | hworks
      · rcases hcommit t rfl with hsame | ⟨s', hrun, hstore, hsent, hsettle⟩
        · rw [hsame]
          exact hI d hold hleased
        · exact hbase.standing_of_commit hrun hold hleased hsettle (hI d hold hleased) hspared
            hstore hsent
      · exact (hI d hold hleased).of_same hworks rfl
    · have hstanding := hbase.standing_of_dispatchable hdispatchable
      unfold Standing at *
      rw [hruntime]
      exact hstanding.of_same hworks hid

/-- The event hands a delivery over: it moves it from the lease to the
hand-off. -/
def HandsOver (L : Lanes) (e : Event) (d : Delivery) : Prop :=
  d ∈ L.deliveries ∧ d.state = .leased ∧
    ∃ L', L.step e = some L' ∧ ∃ d' ∈ L'.deliveries, d'.key = d.key ∧ d'.state = .dispatched

/-- **A stale assignment is never handed to a Worker**, in every run whose
transactions spare what is leased: whatever moves a delivery from the lease to
the hand-off finds its assignment current. -/
theorem stale_assignment_never_handed_over (hL : (system.restrict Spared).Reachable L) {e : Event}
    {d : Delivery} (h : L.HandsOver e d) : L.Current d := by
  intro c hc hkind
  obtain ⟨f, hf, hstands⟩ := standing_of_spared hL d h.1 h.2.1 c hc hkind
  exact ⟨f, hf, hstands.current⟩

/-- The lanes before anything happened. -/
def opening : Lanes := ⟨⟨[]⟩, [], ⟨100, [], [], []⟩⟩

/-- A sample Work is opened. -/
def opens (id : WorkId) (interrupts : Option (WorkId × World)) : Event :=
  .commit (.createWork (Supervision.willing 100) (Supervision.sampleWork id) interrupts)

/-- A dispatcher claims whatever it may. -/
def claims : Event := .dispatch (.claim "dispatcher-a" 60 ⟨fun _ => true, id⟩)

/-- The first assignment of a sample Work, as it is claimed. -/
def claimed : Delivery :=
  ⟨0, 8, none, .leased, 1, 0, 100, some 30, some 160, "dispatcher-a", "", .terminal⟩

/-- The hand-off of the claimed assignment is reserved. -/
def reserves : Event :=
  .dispatch (.reserve ⟨"dispatcher-a", claimed, .claimed⟩ ⟨fun _ => true, true, true, true⟩)

/-- The lanes with the first assignment of a sample Work leased. -/
def leasing : Lanes := ((TransitionSystem.replay step opening [opens 1 none, claims]).getD opening)

/-- What was claimed is handed over, and its assignment is current. -/
theorem stale_assignment_never_handed_over_claimed :
    leasing.HandsOver reserves claimed ∧ leasing.Current claimed := by
  have hstart : (system.restrict Spared).Reachable opening := .of_init ⟨rfl, rfl, rfl, rfl, rfl⟩
  have hopened : (system.restrict Spared).Reachable ((opening.step (opens 1 none)).getD opening) :=
    hstart.next (e := opens 1 none) ⟨fun _ hd => (nomatch hd), rfl⟩
  have hleasing : (system.restrict Spared).Reachable leasing :=
    hopened.next (e := claims) ⟨trivial, rfl⟩
  have hhandsOver : leasing.HandsOver reserves claimed := by
    refine ⟨by decide, rfl, (leasing.step reserves).getD leasing, rfl,
      { claimed with state := .dispatched }, by decide, rfl, rfl⟩
  exact ⟨hhandsOver, stale_assignment_never_handed_over hleasing hhandsOver⟩

/-- The lanes after another Work interrupted the one whose assignment is leased. -/
def interrupting : Lanes :=
  (leasing.step (opens 2 (some (1, Supervision.willing 100)))).getD leasing

/-- **A stale assignment is handed to a Worker**: its Work was interrupted after
it was claimed. -/
theorem stale_assignment_handed_over :
    system.Reachable interrupting ∧ interrupting.HandsOver reserves claimed ∧
      ¬ interrupting.Current claimed := by
  refine ⟨?_, ⟨by decide, rfl, (interrupting.step reserves).getD interrupting, rfl,
    { claimed with state := .dispatched }, by decide, rfl, rfl⟩, by decide⟩
  exact TransitionSystem.Reachable.replay (s := opening)
    [opens 1 none, claims, opens 2 (some (1, Supervision.willing 100))]
    (.of_init ⟨rfl, rfl, rfl, rfl, rfl⟩) rfl

end Lanes
