import OpenCAO.Handouts
import OpenCAO.Issues

/-!
# The heads of the lanes

The lane predicate counts every delivery that is not settled; the claim
asks for more, that an assignment has the authority of its Work. A queued
assignment without authority is refused for ever, and as the head of its
lane it keeps everything behind it from the Worker, also the commands that
were to repair the situation.

That does not happen as long as an assignment stands from the moment it is
issued (`Store.issued_of_run`) until it leaves the queue: every
transaction on its Work leaves it standing or settles its delivery, and
what returns to the queue still stands (`Lanes.Attended`). An interruption
breaks this, and so does a cancellation while the runtime of the Worker
lives.
-/

/-! ## What a step of a dispatcher does to a queue -/

/-- Whatever waits now, waited before, in the same queue. -/
structure Delivery.Waits (d d' : Delivery) : Prop where
  key : d.key = d'.key
  runtime : d.runtimeSessionId = d'.runtimeSessionId
  unsent : d'.state.unsent = true → d.state.unsent = true

namespace Dispatching

open Delivery

theorem waits_update {p : Delivery → Bool} {u : Delivery → Delivery} {rows : List Delivery}
    (h : ∀ d, p d = true → Waits d (u d)) : List.Forall₂ Waits rows (Rows.update p u rows) :=
  Rows.evolve_update (fun _ => ⟨rfl, rfl, id⟩) h rows

theorem waits_refl (rows : List Delivery) : List.Forall₂ Waits rows rows :=
  List.forall₂_same.mpr fun _ _ => ⟨rfl, rfl, id⟩

/-- A row that is held waits. -/
theorem waits_fenced {j : Job} {u : Delivery → Delivery} {rows : List Delivery}
    (hkey : ∀ d, (u d).key = d.key) (hruntime : ∀ d, (u d).runtimeSessionId = d.runtimeSessionId) :
    List.Forall₂ Waits rows (Rows.update (fenced j.delivery j.owner .leased) u rows) :=
  waits_update fun d hd => ⟨(hkey d).symm, (hruntime d).symm, fun _ => by
    obtain ⟨-, -, hstate, -⟩ := fenced_iff.mp hd
    rw [hstate]
    rfl⟩

theorem waits_of_preLaunch (now : Instant) (j : Job) (rows : List Delivery) (op : PreLaunch) :
    List.Forall₂ Waits rows (op.run now j rows) := by
  cases op with
  | park wakeReady =>
    simp only [PreLaunch.run, parkCaoCatalogDelivery]
    split
    · exact waits_refl rows
    · split
      · exact waits_refl rows
      · refine waits_update fun d hd => ⟨rfl, rfl, fun _ => ?_⟩
        obtain ⟨-, -, hstate, -⟩ := fenced_iff.mp (Bool.and_eq_true_iff.mp hd).1
        rw [hstate]
        rfl
  | finish maxAttempts errorCode dead => exact waits_fenced (fun _ => rfl) fun _ => rfl
  | deferRateLimited t => exact waits_fenced (fun _ => rfl) fun _ => rfl
  | deferTicketPending t => exact waits_fenced (fun _ => rfl) fun _ => rfl
  | block code => exact waits_fenced (fun _ => rfl) fun _ => rfl

/-- After the hand-off nothing returns to the queue, but by the two retries of the
wakes of a CAO. -/
theorem waits_of_settlement (now : Instant) (j : Job) (rows : List Delivery) (op : Settlement)
    (hcao : ∀ b code, op ≠ .retryCao b code) (hdesktop : ∀ r live, op ≠ .retryDesktop r live) :
    List.Forall₂ Waits rows (op.run now j rows) := by
  cases op with
  | confirm authority =>
    simp only [Settlement.run]
    split
    · exact waits_update fun d _ => ⟨rfl, rfl, fun h => by cases h⟩
    · exact waits_refl rows
  | block code => exact waits_update fun d _ => ⟨rfl, rfl, fun h => by cases h⟩
  | retryCao b code => exact absurd rfl (hcao b code)
  | retryDesktop r live => exact absurd rfl (hdesktop r live)
  | notSubmitted => exact waits_update fun d _ => ⟨rfl, rfl, fun h => by cases h⟩
  | unknown code => exact waits_update fun d _ => ⟨rfl, rfl, id⟩

/-- **No step of a dispatcher returns a delivery to a queue that it had left.** -/
theorem waits_of_step {s s' : Dispatching} (hkeys : (s.deliveries.map Delivery.key).Nodup)
    {e : Event} (hcao : ∀ j b code, e ≠ .settle j (.retryCao b code))
    (hdesktop : ∀ j r live, e ≠ .settle j (.retryDesktop r live))
    (h : Dispatching.step s e = some s') : List.Forall₂ Waits s.deliveries s'.deliveries := by
  cases e with
  | tick | crash =>
    obtain rfl := Option.some.inj h
    exact waits_refl _
  | claim owner leaseSeconds q =>
    obtain rfl := Option.some.inj h
    have hreset : List.Forall₂ Waits s.deliveries (resetExpiredLeases s.now s.deliveries) :=
      waits_update fun d hd => ⟨rfl, rfl, fun _ => by simp_all [DeliveryState.unsent]⟩
    rcases claimDelivery_cases s.now leaseSeconds owner q hkeys with hc | ⟨row, -, -, -, hc⟩
    · simp only [hc]
      exact hreset
    · simp only [hc]
      refine Rows.evolve_trans (R := Waits) (fun _ _ _ h₁ h₂ => ⟨h₁.key.trans h₂.key,
        h₁.runtime.trans h₂.runtime, fun h => h₁.unsent (h₂.unsent h)⟩) hreset
        (waits_update fun d hd => ⟨(lease_key _ _ d).symm, rfl, fun _ => ?_⟩)
      simp_all [stillQueued, DeliveryState.unsent]
  | preLaunch j op =>
    obtain ⟨-, rfl⟩ := TransitionSystem.of_guarded h
    exact waits_of_preLaunch s.now j s.deliveries op
  | reserve j answers =>
    obtain ⟨-, rfl⟩ := TransitionSystem.of_guarded h
    rcases reserveDelivery_cases answers j.delivery j.owner hkeys with hc | ⟨-, hc⟩
    · simp only [hc]
      exact waits_of_preLaunch s.now j s.deliveries (.park answers.wakeReady)
    · simp only [hc]
      exact waits_fenced (fun _ => rfl) fun _ => rfl
  | settle j op =>
    obtain ⟨-, rfl⟩ := TransitionSystem.of_guarded h
    exact waits_of_settlement s.now j s.deliveries op (fun b code h => hcao j b code (h ▸ rfl))
      fun r live h => hdesktop j r live (h ▸ rfl)
  | enter | skip | leave =>
    obtain ⟨-, rfl⟩ := TransitionSystem.of_guarded h
    exact waits_refl _

end Dispatching

/-! ## Transactions on a Work with an assignment in a queue -/

/-- A call that leaves an assignment standing though it is not quiet in
general: it is about another Attempt, what it would recover was recovered
before, what it would publish is not final. -/
def Call.Idle (f : WorkFile) (m : Message) : Call → Prop
  | .acceptAssignment n => n ≠ m.attemptNumber
  | .reconcileCompletedTurn event n =>
    (∃ b ∈ f.openBoundaries, b.attemptNumber = n) ∨ ∀ a ∈ f.attempt? n, ¬ f.Recovers event a
  | .recoverUnstartedWorker event n | .recoverAmbiguousWorker event n
  | .recoverTerminalWorker event n _ => ∀ a ∈ f.attempt? n, ¬ f.Recovers event a
  | .finalizeCapture c => c.pending = true ∨ ∀ a ∈ f.attempt? c.attemptNumber, f.Retired a
  | .reconcileAbandonedCapture c => ∀ a ∈ f.attempt? c.attemptNumber, ¬ f.Abandoned c a
  | _ => False

/-- The part of a transaction attends to an assignment that was not sent: it
leaves it standing, or it settles the delivery. -/
def Store.Part.Attends (world : World) (f : WorkFile) (m : Message) (d : Delivery) :
    Store.Part → Prop
  | .call c => c.Quiet world f ∨ c.Idle f m ∨ (c.settles world f m d).isSome
  -- An active Work is not one that waits for another.
  | .resume _ _ => True
  | .interrupt _ | .recoverExpired _ => False

namespace WorkFile

open Tx

variable {f g : WorkFile} {m : Message} {recipient : PrincipalId} {runtime : Option RuntimeId}
  {α : Type}

theorem Handed.keep (hf : f.Handed m recipient runtime) {t : FileTx α}
    (ht : Makes (Writes quiet) f t) : Ensures f t fun _ g => g.Handed m recipient runtime := by
  refine wp_mono ht (fun _ g hg => ?_) fun _ h => h
  obtain ⟨hwork, hattempts⟩ := eq_of_quiet hg
  exact hf.of_eq hattempts (by rw [hwork])

/-- The state of another Attempt does not matter to an assignment. -/
theorem Handed.withAttempt (hf : f.Handed m recipient runtime) {n : ℕ}
    (hn : n ≠ m.attemptNumber) (u : Attempt → Attempt) :
    (withAttempt n u f).Handed m recipient runtime := by
  obtain ⟨⟨⟨a, ha, hnumber, hassigned, hruntime⟩, hwork⟩, hattention, hassignee, b, hb, hworker⟩ := hf
  obtain rfl : a = b := Option.some.inj (ha.symm.trans hb)
  have hlatest : (WorkFile.withAttempt n u f).latestAttempt? = some a := by
    unfold latestAttempt? WorkFile.withAttempt Rows.update at *
    rw [List.head?_map, ha, Option.map_some, if_neg]
    simpa [hnumber] using hn.symm
  exact ⟨⟨⟨a, hlatest, hnumber, hassigned, hruntime⟩, hwork⟩, hattention, hassignee, a, hlatest,
    hworker⟩

/-- A recovery that was made before is not made again. -/
theorem Handed.recoverWorker (hf : f.Handed m recipient runtime) (env : Env) (w : WorkerFailure)
    (hrecovered : ∀ a ∈ f.attempt? w.attemptNumber, ¬ f.Recovers w.sourceEventId a) :
    Ensures f (recoverWorker env w false) fun _ g => g.Handed m recipient runtime := by
  unfold WorkFile.recoverWorker
  refine .get (.need fun a ha => .ite (fun _ => hf) fun hnew => ?_)
  exact absurd (fun b hb hsource hevent => hnew ⟨b, hb, hsource, hevent⟩) (hrecovered a ha)

/-- A capture that is not final, or not of what the Work is at now, is not
published. -/
theorem Handed.finalizeCapture (hf : f.Handed m recipient runtime) (env : Env) (c : Capture)
    (hc : c.pending = true ∨ ∀ a ∈ f.attempt? c.attemptNumber, f.Retired a) :
    Ensures f (finalizeCapture env c) fun _ g => g.Handed m recipient runtime := by
  unfold WorkFile.finalizeCapture
  refine .get (.need fun a ha => .ite (fun _ => hf) fun hcurrent => ?_)
  have hpending : c.pending = true :=
    hc.resolve_right fun hretired => hcurrent (.inl (hretired a ha))
  refine .bind (P := fun _ g => g = f) ?_ fun reported g hg => ?_
  · unfold publishCapture
    refine .get ?_
    split
    · rfl
    · refine Ensures.ite (fun h => ?_) fun _ => rfl
      rw [hpending] at h
      cases h.2
  · rw [hg]
    exact hf.keep (.when fun _ => makes_notice (by decide) env _)

/-- **A part that attends to an assignment and does not settle it** leaves it
standing. -/
theorem Handed.part (hf : f.Handed m recipient runtime) {d : Delivery} (env : Env)
    {p : Store.Part} (hp : p.Attends env.toWorld f m d)
    (hunsettled : ∀ c, p = .call c → c.settles env.toWorld f m d = none) :
    Ensures f (p.run env) fun _ g => g.Handed m recipient runtime := by
  cases p with
  | interrupt w => exact hp.elim
  | recoverExpired t => exact hp.elim
  | resume w resumer =>
    refine .get (.ite (fun hsuspended => ?_) fun _ => hf)
    rw [hf.1.2.1] at hsuspended
    cases hsuspended.1
  | call c =>
    rcases hp with hquiet | hidle | hsettled
    · exact hf.keep (c.makes_quiet env hquiet hf.1.2.1 hf.1.2.2.1)
    · cases c with
      | acceptAssignment n =>
        exact .get (.need fun _ _ => .ite (fun _ => hf.withAttempt hidle _) fun _ => hf)
      | reconcileCompletedTurn event n =>
        refine .get (.ite (fun _ => hf) fun hopen => ?_)
        exact hf.recoverWorker env _ (hidle.resolve_left hopen)
      | recoverUnstartedWorker event n => exact hf.recoverWorker env _ hidle
      | recoverAmbiguousWorker event n => exact hf.recoverWorker env _ hidle
      | recoverTerminalWorker event n reason => exact hf.recoverWorker env _ hidle
      | finalizeCapture c => exact hf.finalizeCapture env c hidle
      | reconcileAbandonedCapture c =>
        refine .get ?_
        split
        · exact hf
        · next a ha => exact .ite (fun habandoned => absurd habandoned (hidle a ha)) fun _ => hf
      | _ => exact hidle.elim
    · rw [hunsettled c rfl] at hsettled
      cases hsettled

/-- The claim refuses the assignment, and nothing that happens to other Works
brings it back. -/
def Refuses (f : WorkFile) (m : Message) : Prop :=
  (¬ ∃ a ∈ f.latestAttempt?, a.number = m.attemptNumber ∧ a.state = .assigned) ∨
    f.work.state = .suspended ∨ f.work.attentionOwner ≠ .worker ∨
    m.payload.generation ≠ some f.work.generation

instance (f : WorkFile) (m : Message) : Decidable (f.Refuses m) := by
  unfold Refuses
  infer_instance

theorem Handed.accepted (hf : f.Handed m recipient runtime) : ¬ f.Refuses m := by
  obtain ⟨⟨⟨a, ha, hnumber, hassigned, -⟩, hactive, -, hgeneration, -⟩, hattention, -⟩ := hf
  rintro (hno | hsuspended | hother | hstale)
  · exact hno ⟨a, ha, hnumber, hassigned⟩
  · rw [hactive] at hsuspended
    cases hsuspended
  · exact hother hattention
  · exact hstale hgeneration

theorem Handed.authorizes {d : Delivery} (hf : f.Handed m d.recipientId d.runtimeSessionId)
    (hruntime : d.runtimeSessionId.isSome) : f.Authorizes m d := by
  obtain ⟨⟨⟨a, ha, hnumber, hassigned, hlane⟩, hactive, -, hgeneration, -⟩, hattention, hassignee, b,
    hb, hworker⟩ := hf
  obtain rfl : a = b := Option.some.inj (ha.symm.trans hb)
  exact ⟨⟨a, ha, hnumber, hworker, hassignee.trans hworker.symm, hlane ▸ hruntime, hlane, hassigned⟩,
    hactive, hattention, hgeneration⟩

end WorkFile

namespace Lanes

open Delivery Store WorkFile

variable {L L' : Lanes} {live : RuntimeId → Bool}

/-! ## The claim of the head -/

/-- The delivery is on the lane of a live runtime. -/
def OnLive (live : RuntimeId → Bool) (d : Delivery) : Prop := ∃ r ∈ d.runtimeSessionId, live r = true

instance (live : RuntimeId → Bool) (d : Delivery) : Decidable (OnLive live d) := by
  unfold OnLive
  infer_instance

/-- The delivery is the earliest of its lane that is neither handled nor dead. -/
def Foremost (L : Lanes) (d : Delivery) : Prop :=
  d.state.unsettled = true ∧ ∀ prior ∈ L.deliveries, prior.recipientId = d.recipientId →
    prior.runtimeSessionId = d.runtimeSessionId → prior.messageId < d.messageId →
      prior.state.unsettled = false

instance (L : Lanes) (d : Delivery) : Decidable (L.Foremost d) := by
  unfold Foremost
  infer_instance

/-- The delivery is an assignment that the claim refuses for ever. -/
def DeadAssignment (L : Lanes) (d : Delivery) : Prop :=
  ∃ c ∈ L.command? d, c.message.kind = .assignment ∧
    ∃ f ∈ L.store.file? c.workId, f.Refuses c.message

instance (L : Lanes) (d : Delivery) : Decidable (L.DeadAssignment d) := by
  unfold DeadAssignment
  infer_instance

/-- What `_reconcile_terminal_headless_delivery_lanes_tx` has still to settle: a
delivery about a Work that has ended, on a runtime that cannot consume it. -/
def Headless (live : RuntimeId → Bool) (L : Lanes) (d : Delivery) : Prop :=
  (∃ r ∈ d.runtimeSessionId, live r = false) ∧ d.state.unsettled = true ∧ d.state ≠ .dispatched ∧
    ∃ c ∈ L.command? d, ∃ f ∈ L.store.file? c.workId, f.work.state.terminal = true

instance (live : RuntimeId → Bool) (L : Lanes) (d : Delivery) : Decidable (L.Headless live d) := by
  unfold Headless
  infer_instance

/-- **No dead head of line**: where the reconciliation has nothing left to
change, the earliest unsettled delivery of every lane of a live runtime, if it
is queued and its Work not paused, is no assignment that is refused for ever,
and the claim may take it. -/
def NoDeadHead (live : RuntimeId → Bool) (L : Lanes) : Prop :=
  (∀ d ∈ L.deliveries, ¬ L.Headless live d) →
    ∀ d ∈ L.deliveries, OnLive live d → L.Foremost d → d.state = .queued → ¬ L.Paused d →
      ¬ L.DeadAssignment d ∧ L.Dispatchable d

/-- An assignment that is due to its recipient. -/
def Due (L : Lanes) (d : Delivery) : Prop :=
  L.OfAssignment d fun f m => f.Handed m d.recipientId d.runtimeSessionId

/-- **The condition on the events.** A transaction attends to the assignments of
its Works that were not sent, and gives another goal only to a Work that does
not wait for another; what returns to a queue is still due there. -/
def Attended (live : RuntimeId → Bool) (L : Lanes) : Event → Prop
  | .commit t =>
    (∀ d ∈ L.deliveries, d.state.unsent = true → OnLive live d → ∀ c ∈ L.command? d,
      c.message.kind = .assignment → ∀ f ∈ L.store.file? c.workId, ∀ world p,
        Touches L.store c.workId (L.informed t) world p → p.Attends world f c.message d) ∧
      ∀ w f, L.store.file? w = some f → ∀ world p,
        Touches L.store w (L.informed t) world p → p.ReplacesRunning f
  | .resolve message => ∀ d ∈ L.deliveries, d.messageId = message → d.state = .dispatched →
      OnLive live d → L.AssignmentCurrent d → L.Due d
  | .reactivate recipient runtime admits => live runtime = true → ∀ d ∈ L.deliveries,
      L.Reactivates recipient admits d → L.Due (WakeRouting.rearm L.dispatching.now runtime d)
  | _ => True

theorem Due.of_same {d d' : Delivery} (h : L.Due d) (hworks : SameWorks L L')
    (hid : d'.messageId = d.messageId) (hrecipient : d'.recipientId = d.recipientId)
    (hruntime : d'.runtimeSessionId = d.runtimeSessionId) : L'.Due d' := by
  unfold Due at *
  rw [hrecipient, hruntime]
  exact h.of_same hworks hid

theorem recipientId_of_key {d d' : Delivery} (h : d.key = d'.key) :
    d.recipientId = d'.recipientId := congrArg Prod.snd h

/-- **A new assignment is due.** -/
theorem Base.due_of_new (hL : Base L) {t : Transaction} {s' : Store}
    (hrun : (L.informed t).run L.store = .ok (⟨⟩, s'))
    (ht : L.Attended live (.commit t))
    (hstore : L'.store = s') (hsent : L'.sent = L.sent ++ newCommands L.store s') {d : Delivery}
    (hd : d ∈ newDeliveries L.dispatching.now s' L.sent.length (newCommands L.store s')) :
    L'.Due d := by
  obtain ⟨i, c, hi, rfl⟩ := mem_newDeliveries hd
  intro c' hc' hkind
  have hcommand : L'.command? (.ofCommand L.dispatching.now (L.sent.length + i) c
      (commandRuntime s' c)) = some c := by
    show L'.sent[L.sent.length + i]? = some c
    rw [hsent, List.getElem?_append_right (Nat.le_add_right _ _), Nat.add_sub_cancel_left]
    exact hi
  obtain rfl : c = c' := Option.some.inj (hcommand.symm.trans hc')
  obtain ⟨g, hg, hid, hm, hnew⟩ := mem_of_newCommands (List.mem_of_getElem? hi)
  have hstep : Supervision.system.step L.store (L.informed t) s' := by
    show Tx.commit _ _ = s'
    unfold Tx.commit
    rw [hrun]
  have hfiles : Files Addressed s' :=
    Supervision.addressed_of_reachable (hL.reachable.next (e := L.informed t) hstep)
  have hg? : s'.file? c.workId = some g := by
    rw [← hid]
    exact hfiles.file? hg
  have hissued := issued_of_run hL.files.ids hrun ht.2 hg c.message hm hkind
  rcases hissued with hold | ⟨a, ha, hhanded⟩
  · cases hbefore : L.store.file? g.id with
    | none =>
      rw [hbefore] at hold
      cases hold
    | some f =>
      rw [hbefore] at hold
      exact absurd hold (hnew f hbefore)
  · refine ⟨g, hstore ▸ hg?, ?_⟩
    have hruntime : commandRuntime s' c = a.runtimeSessionId := by
      obtain ⟨⟨⟨b, hb, hnumber, -⟩, -⟩, -⟩ := hhanded
      obtain rfl : a = b := Option.some.inj (ha.symm.trans hb)
      have hattempt : g.attempt? c.message.attemptNumber = some a := by
        rw [← hnumber]
        exact Rows.find?_key (hfiles.holds g hg).nodup_numbers (mem_of_latestAttempt? ha)
      unfold commandRuntime
      rw [hg?, Option.bind_some, hattempt]
      rfl
    show g.Handed c.message c.message.recipientId (commandRuntime s' c)
    rw [hruntime]
    exact hhanded

/-- **Every assignment that was not sent is due**, in every run that attends to
them. -/
theorem due_of_attended (hL : (system.restrict (Attended live)).Reachable L) :
    ∀ d ∈ L.deliveries, d.state.unsent = true → OnLive live d → L.Due d := by
  refine hL.invariant
    (I := fun L => ∀ d ∈ L.deliveries, d.state.unsent = true → OnLive live d → L.Due d)
    (fun L₀ h₀ d hd => ?_) fun L₁ e L₂ hreach hI hstep d hd hunsent hlive => ?_
  · have hnil : L₀.deliveries = [] := h₀.2.2.1
    rw [hnil] at hd
    cases hd
  · obtain ⟨hattended, hstep⟩ := hstep
    have hstep : L₁.step e = some L₂ := hstep
    have hbase := base_of_reachable hreach.of_restrict
    cases e with
    | commit t =>
      obtain ⟨-, rfl⟩ := TransitionSystem.of_guarded hstep
      rcases commit_cases L₁ t with hcommit | ⟨s', hrun, hcommit⟩
      · rw [hcommit] at hd ⊢
        exact hI d hd hunsent hlive
      · rw [hcommit] at hd
        rcases List.mem_append.mp hd with hd | hd
        · obtain ⟨d₀, hd₀, rfl⟩ := List.mem_map.mp hd
          have hsame : L₁.settle (L₁.informed t) s' d₀ = d₀ := by
            rcases settle_cases (L := L₁) (L₁.informed t) s' d₀ with h | ⟨state, h, hstate⟩
            · exact h
            · rw [h] at hunsent
              have hunsent : state.unsent = true := hunsent
              rcases hstate with rfl | rfl | rfl <;> cases hunsent
          rw [hsame] at hunsent hlive ⊢
          refine hbase.ofAssignment_commit hrun hd₀ hunsent hsame (hI d₀ hd₀ hunsent hlive)
            (fun c hc hkind f hf hhanded env p htouches => ?_) (by rw [hcommit]) (by rw [hcommit])
          have hattends := hattended.1 d₀ hd₀ hunsent hlive c hc hkind f hf env.toWorld p htouches
          refine ⟨fun u hu => ?_, fun hunsettled => hhanded.part env hattends hunsettled⟩
          rw [hu] at hattends
          exact hattends
        · exact hbase.due_of_new hrun hattended (by rw [hcommit]) (by rw [hcommit]) hd
    | dispatch e =>
      obtain ⟨s, hs, rfl⟩ := dispatch_cases hstep
      have hwaits := Dispatching.waits_of_step hbase.keys (fun j b code h => ?_)
        (fun j r live h => ?_) hs
      · obtain ⟨d₀, hd₀, hwait⟩ := Rows.exists_left hwaits hd
        have hlive₀ : OnLive live d₀ := by
          unfold OnLive
          rw [hwait.runtime]
          exact hlive
        exact (hI d₀ hd₀ (hwait.unsent hunsent) hlive₀).of_same ⟨rfl, rfl⟩
          (messageId_of_key hwait.key).symm (recipientId_of_key hwait.key).symm hwait.runtime.symm
      · cases e <;> cases h
        cases hstep
      · cases e <;> cases h
        cases hstep
    | settle message state =>
      obtain ⟨hstate, rfl⟩ := TransitionSystem.of_guarded hstep
      obtain ⟨d₀, hd₀, rfl⟩ := Rows.mem_update.mp hd
      split at hunsent
      · have hunsent : state.unsent = true := hunsent
        rcases hstate with rfl | rfl | rfl | rfl <;> cases hunsent
      · next hp =>
        rw [if_neg hp] at hlive ⊢
        exact (hI d₀ hd₀ hunsent hlive).of_same ⟨rfl, rfl⟩ rfl rfl rfl
    | resolve message =>
      obtain rfl := Option.some.inj hstep
      obtain ⟨d₀, hd₀, rfl⟩ := Rows.mem_update.mp hd
      split at hunsent
      · next hp =>
        rw [if_pos hp] at hlive ⊢
        simp only [decide_eq_true_eq] at hp
        unfold returned at hunsent hlive ⊢
        split at hunsent
        · next hcurrent =>
          rw [if_pos hcurrent] at hlive ⊢
          exact (hattended d₀ hd₀ hp.1 hp.2 hlive hcurrent).of_same ⟨rfl, rfl⟩ rfl rfl rfl
        · cases hunsent
      · next hp =>
        rw [if_neg hp] at hlive ⊢
        exact (hI d₀ hd₀ hunsent hlive).of_same ⟨rfl, rfl⟩ rfl rfl rfl
    | reactivate recipient runtime admits =>
      obtain rfl := Option.some.inj hstep
      obtain ⟨d₀, hd₀, rfl⟩ := Rows.mem_update.mp hd
      split at hunsent
      · next hp =>
        rw [if_pos hp] at hlive ⊢
        simp only [decide_eq_true_eq] at hp
        obtain ⟨r, hr, hlive⟩ := hlive
        obtain rfl := Option.some.inj hr
        exact (hattended hlive d₀ hd₀ hp).of_same ⟨rfl, rfl⟩ rfl rfl rfl
      · next hp =>
        rw [if_neg hp] at hlive ⊢
        exact (hI d₀ hd₀ hunsent hlive).of_same ⟨rfl, rfl⟩ rfl rfl rfl

/-- A queued delivery that nothing of its lane precedes is the head of it. -/
theorem laneHead_of_foremost {d : Delivery} (hforemost : L.Foremost d) (hrunning : ¬ L.Paused d) :
    L.LaneHead d := by
  refine ⟨hrunning, fun prior hprior hprecedes => ?_⟩
  obtain ⟨hrecipient, hearlier, hunsettled, -, -, hruntime⟩ := hprecedes
  rw [hforemost.2 prior hprior hrecipient hruntime hearlier] at hunsettled
  cases hunsettled

/-- **No lane of a live runtime has a dead head**, in every run that attends to
the assignments that were not sent. -/
theorem no_dead_head (hL : (system.restrict (Attended live)).Reachable L) : L.NoDeadHead live := by
  intro _ d hd hlive hforemost hqueued hrunning
  have hunsent : d.state.unsent = true := by
    rw [hqueued]
    rfl
  have hdue := due_of_attended hL d hd hunsent hlive
  have hlt := (base_of_reachable hL.of_restrict).sent d hd
  refine ⟨fun hdead => ?_, L.sent[d.messageId], List.getElem?_eq_getElem hlt, fun hkind => ?_,
    laneHead_of_foremost hforemost hrunning⟩
  · obtain ⟨c, hc, hkind, f, hf, hrefuses⟩ := hdead
    obtain ⟨g, hg, hhanded⟩ := hdue c hc hkind
    obtain rfl : f = g := Option.some.inj (hf.symm.trans hg)
    exact hhanded.accepted hrefuses
  · obtain ⟨f, hf, hhanded⟩ := hdue _ (List.getElem?_eq_getElem hlt) hkind
    obtain ⟨r, hr, -⟩ := hlive
    exact ⟨f, hf, hhanded.authorizes (by rw [hr]; rfl)⟩

/-- The lanes with the assignment of a sample Work in the queue. -/
def queueing : Lanes := (opening.step (opens 1 none)).getD opening

/-- The head of the lane of a sample Work is not dead. -/
theorem no_dead_head_queueing : queueing.NoDeadHead fun _ => true := by
  have hstart : (system.restrict (Attended fun _ => true)).Reachable opening :=
    .of_init ⟨rfl, rfl, rfl, rfl, rfl⟩
  have hqueueing : (system.restrict (Attended fun _ => true)).Reachable queueing :=
    hstart.next (e := opens 1 none) ⟨⟨fun _ hd => (nomatch hd), fun _ _ hf => (nomatch hf)⟩, rfl⟩
  exact no_dead_head hqueueing

/-- The lanes with a Work interrupted before its assignment was sent. -/
def blocked : Lanes :=
  (queueing.step (opens 2 (some (1, Supervision.willing 100)))).getD queueing

/-- The assignment of the interrupted Work. -/
def stuck : Delivery := { claimed with state := .queued, leaseUntil := none, ownerToken := "" }

/-- **A dead head**: the assignment of the interrupted Work stays at the head of
the lane, before that of the Work that interrupted it. -/
theorem dead_head_of_interruption :
    system.Reachable blocked ∧ ¬ blocked.NoDeadHead fun _ => true := by
  refine ⟨?_, fun h => ?_⟩
  · exact TransitionSystem.Reachable.replay (s := opening)
      [opens 1 none, opens 2 (some (1, Supervision.willing 100))]
      (.of_init ⟨rfl, rfl, rfl, rfl, rfl⟩) rfl
  · exact (h (by decide) stuck (by decide) (by decide) (by decide) rfl (by decide)).1 (by decide)

end Lanes
