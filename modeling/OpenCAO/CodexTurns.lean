import OpenCAO.CodexTalks

/-!
# The events of a turn of Codex

The message of a Worker goes through the queue of its thread, and other messages do too: the
events of several turns arrive at one dispatch. Its sink has the turn that began with its message
(`Held`), from when that turn is known, and is told of items of this turn only.

As for a turn of Claude, the events are messages with different items and then at most one end,
all of one turn and one thread, whatever the server sends (`one_turn`). The end is told, unless
the callback raises (`turn_ends`).
-/

namespace AppServer

open PyJson (Value)
open DesktopSocket (Items)
open ClaudeOutput (Sink Event equals get getOf)
open ServerSentEvents (RequestId item string)

variable {host : Host} {job : Job} {s t : State} {α : Type}

/-- **A sink of an open turn**, which is the turn that the dispatch knows. -/
def Held (host : Host) (job : Job) (s : State) : Prop :=
  ∀ k ∈ s.sink, k.Open host.output ∧ k.turnId = s.turnId ∧
    (job.nativeSessionId ≠ [] → k.nativeThreadId = job.nativeSessionId)

/-- A sink that knows its thread. -/
def Bound (host : Host) (job : Job) (s : State) : Prop :=
  Held host job s ∧ s.nativeThreadId ≠ [] ∧ ∀ k ∈ s.sink, k.nativeThreadId = s.nativeThreadId

/-- A sink of a turn that is open or has ended. -/
def Settled (host : Host) (job : Job) (s : State) : Prop :=
  ∀ k ∈ s.sink, (k.Open host.output ∨ k.Closed host.output) ∧ k.turnId = s.turnId ∧
    (job.nativeSessionId ≠ [] → k.nativeThreadId = job.nativeSessionId)

theorem Held.settled (h : Held host job s) : Settled host job s := fun k hk =>
  ⟨Or.inl (h k hk).1, (h k hk).2⟩

/-- What changes nothing that the sink is about. -/
theorem Held.congr (h : Held host job s) (hsink : t.sink = s.sink) (hturn : t.turnId = s.turnId) :
    Held host job t := fun k hk => hturn ▸ h k (hsink ▸ hk)

/-! ## Before the turn -/

/-- The connection is used, and nothing else. -/
def Used (s t : State) : Prop := ∃ rpc, t = { s with rpc }

theorem wp_used {m : Call α} : Session.wp (onRpc m) (fun _ t => Used s t) (fun _ t => Used s t) s :=
  wp_onRpc.mpr <| Session.wp_of_forall (fun _ rpc => ⟨rpc, rfl⟩) fun _ rpc => ⟨rpc, rfl⟩

theorem used_startupRequest (method : String) (params : Items) :
    Session.wp (startupRequest host method params) (fun _ t => Used s t) (fun _ t => Used s t)
      s := by
  unfold startupRequest
  rw [Session.wp_bind]
  exact wp_startupRemaining wp_used fun _ => ⟨s.rpc, rfl⟩

theorem used_sayHello :
    Session.wp (sayHello host job) (fun _ t => Used s t) (fun _ t => Used s t) s := by
  unfold sayHello
  rw [Session.wp_bind]
  refine Session.wp_mono (used_startupRequest _ _) ?_ fun _ _ h => h
  rintro _ t ⟨rpc, rfl⟩
  exact Session.wp_mono wp_used (fun _ _ h => h.imp fun _ h => h) fun _ _ h => h.imp fun _ h => h

theorem used_openThread (before : Text) :
    Session.wp (openThread host job before) (fun _ t => Used s t) (fun _ t => Used s t) s := by
  unfold openThread
  split
  · exact used_startupRequest _ _
  · exact used_startupRequest _ _

/-- **A thread is bound** to the sink, if it is the one that the sink knows. -/
theorem bound_nameThread (h : Held host job s) (thread : Text) :
    Session.wp (nameThread thread) (fun _ t => Bound host job t) (fun _ t => Held host job t)
      s := by
  unfold nameThread
  rw [Session.wp_bind, Session.wp_modify]
  split
  · exact h.congr rfl rfl
  next hid =>
  rw [Session.wp_bind, Session.wp_get]
  split
  · exact h.congr rfl rfl
  next hsame =>
  have hnamed : ∀ k ∈ s.sink, k.nativeThreadId ≠ [] → thread = k.nativeThreadId := by
    intro k hk hne
    by_contra hother
    refine hsame ?_
    dsimp only
    rw [Option.mem_def.mp hk]
    simpa using ⟨hne, Ne.symm hother⟩
  rw [wp_adjust]
  refine ⟨?_, hid, ?_⟩
  · intro named hnew
    obtain ⟨k, hk, rfl⟩ := Option.mem_map.mp hnew
    obtain ⟨hopen, hturn, hthread⟩ := h k hk
    refine ⟨hopen.named (hnamed k hk), hturn, fun hne => ?_⟩
    exact (hnamed k hk (hthread hne ▸ hne)).trans (hthread hne)
  · intro named hnew
    obtain ⟨k, -, rfl⟩ := Option.mem_map.mp hnew
    rfl

theorem bound_bindThread (h : Held host job s) :
    Session.wp (bindThread host job) (fun _ t => Bound host job t) (fun _ t => Held host job t)
      s := by
  unfold bindThread
  simp only [Session.wp_bind, Session.wp_modify, Session.wp_get]
  refine Session.wp_mono (used_openThread s.nativeThreadId) ?_ ?_
  · rintro result t ⟨rpc, rfl⟩
    have hheld : Held host job { s with phase := .threadBinding, rpc } := h.congr rfl rfl
    exact bound_nameThread hheld _
  · rintro _ t ⟨rpc, rfl⟩
    exact h.congr rfl rfl

theorem Bound.congr (h : Bound host job s) (hsink : t.sink = s.sink) (hturn : t.turnId = s.turnId)
    (hthread : t.nativeThreadId = s.nativeThreadId) : Bound host job t :=
  ⟨h.1.congr hsink hturn, hthread ▸ h.2.1, hthread ▸ hsink ▸ h.2.2⟩

theorem bound_awaitTools (h : Bound host job s) :
    Session.wp (awaitTools host job) (fun _ t => Bound host job t) (fun _ t => Bound host job t)
      s := by
  unfold awaitTools
  split
  · exact h
  · simp only [Session.wp_bind, Session.wp_modify]
    refine wp_startupRemaining ?_ fun _ => h.congr rfl rfl rfl
    rw [Session.wp_get]
    refine Session.wp_mono wp_used ?_ ?_
    · rintro _ t ⟨rpc, rfl⟩
      exact h.congr rfl rfl rfl
    · rintro _ t ⟨rpc, rfl⟩
      exact h.congr rfl rfl rfl

/-! ## The turn -/

/-- The sink is told something. -/
theorem wp_tell_of {f : Sink → Sink × Option ClaudeOutput.Failure} {Q : PUnit → State → Prop}
    {E : Failure → State → Prop} (hnone : s.sink = none → Q ⟨⟩ s)
    (hQ : ∀ k ∈ s.sink, (f k).2 = none → Q ⟨⟩ { s with sink := some (f k).1 })
    (hE : ∀ k ∈ s.sink, (f k).2.isSome = true → ∀ e, E e { s with sink := some (f k).1 }) :
    Session.wp (tell f) Q E s := by
  obtain ⟨rpc, sink, thread, turn, count, submitted, name, acceptance, phase⟩ := s
  unfold Session.wp tell
  cases sink with
  | none => exact hnone rfl
  | some k =>
    replace hQ := hQ k rfl
    replace hE := hE k rfl
    dsimp only
    cases hf : (f k).2 with
    | none => exact hQ hf
    | some failure => exact hE (by rw [hf]; rfl) _

/-- A sink that goes on. -/
theorem Bound.adjust (h : Bound host job s) {f : Sink → Sink}
    (hf : ∀ k, k.Open host.output → (f k).Open host.output ∧
      (f k).nativeThreadId = k.nativeThreadId ∧ (f k).turnId = k.turnId) :
    Bound host job { s with sink := s.sink.map f } := by
  refine ⟨fun k' hk' => ?_, h.2.1, fun k' hk' => ?_⟩
  all_goals
    obtain ⟨k, hk, rfl⟩ := Option.mem_map.mp hk'
    obtain ⟨hopen, hturn, hthread⟩ := h.1 k hk
    obtain ⟨hopen', hthread', hturn'⟩ := hf k hopen
  · exact ⟨hopen', hturn'.trans hturn, fun hne => hthread'.trans (hthread hne)⟩
  · exact hthread'.trans (h.2.2 k hk)

theorem bound_accept (h : Bound host job s) (hdurable : job.durable = true) (name : String)
    (value : Items) :
    Session.wp (accept host job name value) (fun _ t => Bound host job t ∧ t.rpc = s.rpc)
      (fun _ t => Bound host job t) s := by
  have hkept := h.congr (t := { s with acceptance := .queued }) rfl rfl rfl
  unfold accept
  split
  · split
    · exact h.congr rfl rfl rfl
    · exact h
  · split
    · rw [if_pos hdurable]
      split
      · exact ⟨hkept, rfl⟩
      · exact h
    · exact ⟨h, rfl⟩

/-- **The turn is bound** to the sink, and only once. -/
theorem bound_bindTurn (h : Bound host job s) (method : Text) (params : Items) :
    Session.wp (bindTurn host job method params)
      (fun _ t => Bound host job t ∧ t.rpc = s.rpc) (fun _ t => Bound host job t) s := by
  refine wp_bindTurn ⟨h, rfl⟩ (fun _ _ _ _ hsame => ⟨⟨?_, h.2.1, ?_⟩, rfl⟩) fun _ => h
  · intro named hnew
    obtain ⟨k, hk, rfl⟩ := Option.mem_map.mp hnew
    obtain ⟨hopen, hturn, hthread⟩ := h.1 k hk
    refine ⟨hopen.turned fun hne => ?_, rfl, hthread⟩
    rw [hturn] at hne ⊢
    exact hsame (Option.isSome_iff_exists.mpr ⟨k, hk⟩) hne
  · intro named hnew
    obtain ⟨k, hk, rfl⟩ := Option.mem_map.mp hnew
    exact h.2.2 k hk

/-- **An item is told of**, or it is not. -/
theorem bound_observeItem (h : Bound host job s) (method : Text) (params : Items) :
    Session.wp (observeItem host method params)
      (fun _ t => Bound host job t ∧ t.rpc = s.rpc) (fun _ t => Bound host job t) s := by
  have hspoil : Bound host job
      { s with sink := s.sink.map fun k => { k with complete := false } } :=
    h.adjust fun k hk => ⟨hk.spoil, rfl, rfl⟩
  have hpend : ∀ itemId, Session.wp (pend itemId)
      (fun _ t => Bound host job t ∧ t.rpc = s.rpc) (fun _ t => Bound host job t) s := by
    intro itemId
    refine wp_adjust.mpr ⟨h.adjust fun k hk => ?_, rfl⟩
    split
    · split
      · split
        · exact ⟨hk, rfl, rfl⟩
        · exact ⟨hk.discard _, rfl, rfl⟩
      · exact ⟨hk.spoil, rfl, rfl⟩
    · exact ⟨hk.spoil, rfl, rfl⟩
  have htell : ∀ itemId text phase, Session.wp
      (tell fun k => k.message host.output itemId text phase true)
      (fun _ t => Bound host job t ∧ t.rpc = s.rpc) (fun _ t => Bound host job t) s := by
    intro itemId text phase
    have hmessage : ∀ k ∈ s.sink, Bound host job
        { s with sink := some (k.message host.output itemId text phase true).1 } := by
      intro k hk
      have hbound := h.adjust (f := fun k => (k.message host.output itemId text phase true).1)
        fun k hk => by
          obtain ⟨hopen, hthread, hturn, -⟩ := Sink.open_message hk itemId text phase true
          exact ⟨hopen, hthread, hturn⟩
      rwa [Option.mem_def.mp hk] at hbound
    exact wp_tell_of (fun _ => ⟨h, rfl⟩) (fun k hk _ => ⟨hmessage k hk, rfl⟩)
      fun k hk _ _ => hmessage k hk
  unfold observeItem
  rw [Session.wp_bind, Session.wp_get]
  dsimp only
  split
  · split
    · exact hpend _
    split
    · split
      · exact hpend _
      · split
        · split
          · exact wp_adjust.mpr ⟨hspoil, rfl⟩
          · exact htell _ _ _
        · exact wp_adjust.mpr ⟨hspoil, rfl⟩
    · exact ⟨h, rfl⟩
  · exact ⟨h, rfl⟩

/-- **A turn that has ended** for the sink, with a status. -/
def Ended (host : Host) (job : Job) (status : Text) (s : State) : Prop :=
  Settled host job s ∧
    ∀ k ∈ s.sink, k.Closed host.output ∧ terminalStatus? status = some k.status

/-- **The end is told.** -/
theorem ended_complete (h : Bound host job s) (method : Text) (params : Value) :
    Session.wp (complete host job method params)
      (fun o t => (∀ status, o = some status → Ended host job status t) ∧
        (o = none → Bound host job t ∧ t.rpc = s.rpc))
      (fun _ t => Settled host job t) s := by
  unfold complete
  rw [Session.wp_bind, Session.wp_get]
  dsimp only
  split
  · next hcompletes =>
    obtain ⟨-, -, henvelope⟩ := hcompletes
    split
    · next hsome =>
      split
      · exact h.1.settled
      next terminal hterminal =>
      rw [← Option.isNone_eq_false_iff] at hsome
      simp only [hsome, Bool.false_or, decide_eq_true_eq] at henvelope
      have hstatus : terminal ≠ .running := by
        rintro rfl
        unfold terminalStatus? at hterminal
        split_ifs at hterminal <;> simp at hterminal
      have hfinish : ∀ k ∈ s.sink,
          let k' := (k.finish host.output terminal [] [] true).1
          k'.turnId = s.turnId ∧
            (job.nativeSessionId ≠ [] → k'.nativeThreadId = job.nativeSessionId) ∧
            k'.status = terminal ∧ (k'.Closed host.output ∨ k'.Open host.output ∧
              (k.finish host.output terminal [] [] true).2.isSome = true) := by
        intro k hk
        obtain ⟨hopen, hturn, hthread⟩ := h.1 k hk
        obtain ⟨hthread', hturn', hstatus', hends⟩ := @Sink.finish_spec host.output k terminal
          true hopen hstatus [] [] (Or.inr ⟨h.2.2 k hk ▸ h.2.1, hturn ▸ henvelope.1⟩)
        exact ⟨hturn'.trans hturn, fun hne => hthread'.trans (hthread hne), hstatus', hends⟩
      rw [Session.wp_bind]
      refine wp_tell_of (fun hnone => ?_) (fun k hk hreturned => ?_) fun k hk _ _ => ?_
      · simp [hnone] at hsome
      · obtain ⟨hturn, hthread, hends, hclosed⟩ := hfinish k hk
        have hclosed := hclosed.resolve_right fun ho => by simp [hreturned] at ho
        refine ⟨fun status h => ?_, by simp⟩
        obtain rfl := Option.some.inj h
        refine ⟨fun k' hk' => ?_, fun k' hk' => ?_⟩
        all_goals obtain rfl := Option.mem_some.mp hk'
        · exact ⟨Or.inr hclosed, hturn, hthread⟩
        · exact ⟨hclosed, hterminal.trans (congrArg some hends.symm)⟩
      · obtain ⟨hturn, hthread, -, hclosed⟩ := hfinish k hk
        intro k' hk'
        obtain rfl := Option.mem_some.mp hk'
        exact ⟨hclosed.symm.imp_left And.left, hturn, hthread⟩
    · next hsome =>
      refine ⟨fun status _ => ⟨h.1.settled, fun k hk => ?_⟩, by simp⟩
      exact absurd (Option.isSome_iff_exists.mpr ⟨k, hk⟩) hsome
  · exact ⟨by simp, fun _ => ⟨h, rfl⟩⟩

/-- **The loop of a turn** keeps the sink of the turn. -/
theorem bound_event (h : Bound host job s) (hdurable : job.durable = true) (id : ℕ)
    (name : String) (value : Items) :
    Session.wp (event host job id name value)
      (fun o t => (∀ status, o = some status → Ended host job status t) ∧
        (o = none → Bound host job t ∧ t.rpc.incoming = s.rpc.incoming.tail))
      (fun _ t => Settled host job t) { s with rpc := s.rpc.pop } := by
  have hkept : ∀ rpc count, Bound host job { s with rpc, eventCount := count } := fun _ _ =>
    h.congr rfl rfl rfl
  unfold event
  split
  · rw [Session.wp_bind]
    refine Session.wp_mono (bound_accept (hkept s.rpc.pop _) hdurable name value) ?_
      fun _ _ ht => ht.1.settled
    exact fun _ t ht => ⟨by simp, fun _ => ⟨ht.1, ht.2 ▸ rfl⟩⟩
  rw [Session.wp_bind, wp_onRpc]
  refine wp_handleServerRequest value ?_ fun _ => (hkept _ _).1.settled
  split
  · exact ⟨by simp, fun _ => ⟨hkept _ _, (replied_eq value).1⟩⟩
  next hrequest =>
  rw [Bool.not_eq_true, Option.isSome_eq_false_iff, Option.isNone_iff_eq_none] at hrequest
  rw [replied_of_none hrequest, Session.wp_bind, Session.wp_modify]
  have hincoming : (s.rpc.pop.observeNotification host value).incoming = s.rpc.incoming.tail := by
    rw [observeNotification_eq]
    rfl
  generalize s.rpc.pop.observeNotification host value = p at hincoming
  have hobserved : Session.wp (observeEvent host job (textOf host value "method")
        ((get? value "params").getD (.dict [])))
      (fun _ t => Bound host job t ∧ t.rpc = p) (fun _ t => Settled host job t)
      { s with rpc := p, eventCount := s.eventCount + 1 } := by
    unfold observeEvent
    split
    · rw [Session.wp_bind]
      refine Session.wp_mono (bound_bindTurn (hkept p _) _ _) ?_ fun _ _ ht => ht.1.settled
      rintro _ t ⟨ht, rfl⟩
      exact Session.wp_mono (bound_observeItem ht _ _) (fun _ _ hu => hu) fun _ _ hu => hu.1.settled
    · exact ⟨hkept p _, rfl⟩
  rw [Session.wp_bind]
  refine Session.wp_mono hobserved ?_ fun _ _ ht => ht
  rintro _ t ⟨ht, rfl⟩
  refine Session.wp_mono (ended_complete ht _ _) ?_ fun _ _ hu => hu
  rintro o u ⟨hends, hgoes⟩
  exact ⟨hends, fun hnone => ⟨(hgoes hnone).1, (hgoes hnone).2 ▸ hincoming⟩⟩

/-- **The turn ends** for the sink, or something fails before. -/
theorem ended_deliver (h : Bound host job s) (hdurable : job.durable = true) :
    Session.wp (deliver host job) (fun ret t => Ended host job ret.turnStatus t)
      (fun _ t => Settled host job t) s := by
  have hlistening : ∀ {t : State} (id : ℕ), Bound host job t →
      Session.wp (listening (event host job id job.deliveryMethod)
        (onRpc (ended host fun s => s.timeoutDiagnostic "turn")))
      (fun status t => Ended host job status t) (fun _ t => Settled host job t) t := by
    intro t id ht
    refine Session.wp_receive (Bound host job) ?_ ?_ ht
    · exact fun value u hu _ => bound_event hu hdurable id _ value
    · intro u hu
      rw [wp_onRpc]
      exact wp_ended fun _ => hu.1.settled
  have hsubmitted : ∀ method params, Session.wp (submit host method params)
      (fun _ t => Bound host job t) (fun _ t => Settled host job t)
      { s with methodName := job.deliveryMethodName } := by
    intro method params
    unfold submit
    simp only [Session.wp_bind, Session.wp_get, Session.wp_modify]
    refine Session.wp_mono wp_used ?_ ?_
    · rintro _ t ⟨rpc, rfl⟩
      exact h.congr rfl rfl rfl
    · rintro _ t ⟨rpc, rfl⟩
      exact (h.1.congr rfl rfl).settled
  unfold deliver
  simp only [Session.wp_bind, Session.wp_get, Session.wp_modify]
  refine Session.wp_mono (hsubmitted _ _) ?_ fun _ _ ht => ht
  intro id t ht
  split
  all_goals
    simp only [Session.wp_bind, Session.wp_get, Session.wp_modify, Session.wp_pure]
    refine Session.wp_mono (hlistening id (ht.congr rfl rfl rfl)) (fun status u hu => ?_)
      fun _ _ hu => hu
    exact hu

/-! ## The dispatch -/

theorem held_start (incoming : List Items) : Held host job (job.start incoming) := by
  intro k hk
  unfold Job.start at hk
  dsimp only at hk
  split at hk
  · obtain rfl := Option.mem_some.mp hk
    exact ⟨⟨rfl, by simp, by simp, by simp, by simp, by simp⟩, rfl, fun _ => rfl⟩
  · simp at hk

theorem ended_converse (hwake : job.desktopCaoWake = false) (hdurable : job.durable = true)
    (incoming : List Items) : Session.wp (converse host job)
      (fun ret t => Ended host job ret.turnStatus t) (fun _ t => Settled host job t)
      (job.start incoming) := by
  have hheld := @held_start host job incoming
  unfold converse
  rw [Session.wp_bind]
  refine Session.wp_mono used_sayHello ?_ ?_
  · rintro _ t ⟨rpc, rfl⟩
    rw [Session.wp_bind, Session.wp_get, if_neg (by simp [hwake]), Session.wp_bind]
    refine Session.wp_mono (bound_bindThread (hheld.congr rfl rfl)) ?_ fun _ _ hu => hu.settled
    intro _ u hu
    rw [Session.wp_bind]
    refine Session.wp_mono (bound_awaitTools hu) (fun _ v hv => ended_deliver hv hdurable)
      fun _ _ hv => hv.1.settled
  · rintro _ t ⟨rpc, rfl⟩
    exact (hheld.congr rfl rfl).settled

/-- A turn that was not ended is ended by what failed. -/
theorem settled_conclude (h : Settled host job s) (failure : Failure) :
    let d := conclude host job failure s
    Settled host job d.2 ∧ (d.1 ≠ .raised → ∀ k ∈ d.2.sink, k.Closed host.output) := by
  let status := if failure = .canceled then TurnStatus.interrupted else .failed
  have hstatus : status ≠ .running ∧ status ≠ .completed := by
    show ite _ _ _ ≠ _ ∧ ite _ _ _ ≠ _
    split_ifs <;> simp
  have hfinish : ∀ k ∈ s.sink, let r := k.finish host.output status [] [] false
      (r.1.Open host.output ∨ r.1.Closed host.output) ∧ r.1.turnId = s.turnId ∧
        (job.nativeSessionId ≠ [] → r.1.nativeThreadId = job.nativeSessionId) ∧
        (r.2 = none → r.1.Closed host.output) := by
    intro k hk
    obtain ⟨hopen | hclosed, hturn, hthread⟩ := h k hk
    · obtain ⟨hthread', hturn', -, hends⟩ := @Sink.finish_spec host.output k status false hopen
        hstatus.1 [] [] (Or.inl ⟨rfl, hstatus.2⟩)
      refine ⟨hends.symm.imp_left And.left, hturn'.trans hturn,
        fun hne => hthread'.trans (hthread hne), fun hnone => hends.resolve_right fun ho => ?_⟩
      simp [hnone] at ho
    · have hkept : k.finish host.output status [] [] false = (k, none) := by
        rw [Sink.finish, hclosed.terminal, if_pos rfl]
      dsimp only
      rw [hkept]
      exact ⟨Or.inr hclosed, hturn, hthread, fun _ => hclosed⟩
  have htell : Session.wp (tell fun k => k.finish host.output status [] [] false)
      (fun _ t => Settled host job t ∧ ∀ k ∈ t.sink, k.Closed host.output)
      (fun _ t => Settled host job t) s := by
    refine wp_tell_of (fun hnone => ⟨h, by simp [hnone]⟩) (fun k hk hreturned => ?_)
      fun k hk _ _ k' hk' => ?_
    · obtain ⟨hsettled, hturn, hthread, hclosed⟩ := hfinish k hk
      refine ⟨fun k' hk' => ?_, fun k' hk' => ?_⟩
      all_goals obtain rfl := Option.mem_some.mp hk'
      · exact ⟨hsettled, hturn, hthread⟩
      · exact hclosed hreturned
    · obtain ⟨hsettled, hturn, hthread, -⟩ := hfinish k hk
      obtain rfl := Option.mem_some.mp hk'
      exact ⟨hsettled, hturn, hthread⟩
  unfold Session.wp at htell
  unfold conclude
  dsimp only
  split at htell
  · next heq =>
    rw [heq]
    exact ⟨htell.1, fun _ => htell.2⟩
  · next heq =>
    rw [heq]
    exact ⟨htell, fun hne => absurd rfl hne⟩

/-- **The sink when a dispatch has ended.** -/
theorem settled_dispatch (hwake : job.desktopCaoWake = false) (hdurable : job.durable = true)
    (incoming : List Items) :
    let d := dispatch host job incoming
    Settled host job d.2 ∧ (d.1 ≠ .raised → ∀ k ∈ d.2.sink, k.Closed host.output) ∧
      ∀ ret, d.1 = .returned ret → ∀ k ∈ d.2.sink,
        terminalStatus? ret.turnStatus = some k.status := by
  have hconverse := @ended_converse host job hwake hdurable incoming
  unfold Session.wp at hconverse
  unfold dispatch
  split at hconverse
  · next ret t hrun =>
    rw [hrun]
    obtain ⟨hsettled, hends⟩ := hconverse
    refine ⟨hsettled, fun _ k hk => (hends k hk).1, fun ret' hret k hk => ?_⟩
    obtain rfl := Outcome.returned.inj hret
    exact (hends k hk).2
  · next failure t hrun =>
    rw [hrun]
    obtain ⟨hsettled, hclosed⟩ := settled_conclude hconverse failure
    refine ⟨hsettled, hclosed, fun ret hret => ?_⟩
    have hreport : ∀ u, (conclude host job failure u).1 ≠ .returned ret := by
      intro u
      unfold conclude report
      dsimp only
      split
      · simp
      · dsimp only
        split_ifs <;> simp
    exact absurd hret (hreport t)

variable (incoming : List Items)

/-- **The end of the turn is told**, unless the callback raises when it is told that something
has failed; and a dispatch that returns has told of the end that it returns. -/
theorem turn_ends (hwake : job.desktopCaoWake = false) (hdurable : job.durable = true) {k : Sink}
    (hk : (dispatch host job incoming).2.sink = some k)
    (h : (dispatch host job incoming).1 ≠ .raised) :
    ∃ messages e, k.delivered = messages ++ [e] ∧ k.Ends host.output messages e ∧
      ∀ ret, (dispatch host job incoming).1 = .returned ret →
        terminalStatus? ret.turnStatus = some e.status := by
  obtain ⟨-, hclosed, hreturned⟩ := @settled_dispatch host job hwake hdurable incoming
  obtain ⟨-, t, e, -, -, -, hdelivered, hends⟩ := hclosed h k hk
  refine ⟨t.delivered, e, hdelivered, hends, fun ret hret => ?_⟩
  rw [hends.status]
  exact hreturned ret hret k hk

/-! ### A turn that completes -/

/-- The message of a Worker whose tools are served. -/
def workerJob : Job :=
  { sampleJob with
    desktopCaoWake := false
    nativeSessionId := []
    broker := some ⟨true, Text.ofString "cao", .null⟩
    observed := true }

/-- A notification. -/
def notification (method : String) (params : List (Text × Value)) : Items :=
  [item "method" (string method), item "params" (.dict params)]

/-- What the server says to it. -/
def workerTurn : List Items :=
  [[item "id" (.int 1), item "result" (.dict [])],
    [item "id" (.int 2), item "result" (.dict [item "id" (string "t")])],
    notification "mcpServer/startupStatus/updated" [item "name" (string "cao"),
      item "status" (string "ready"), item "threadId" (string "t")],
    notification "item/started" [item "threadId" (string "t"), item "turnId" (string "u"),
      item "item" (.dict [item "type" (string "userMessage"), item "clientId" (string "m")])],
    notification "item/completed" [item "threadId" (string "t"), item "turnId" (string "u"),
      item "item" (.dict [item "type" (string "agentMessage"), item "id" (string "i"),
        item "text" (string "Done.")])],
    notification "turn/completed" [item "threadId" (string "t"),
      item "turn" (.dict [item "id" (string "u"), item "status" (string "completed")])]]

theorem turn_ends_completed : ∃ k messages e,
    (dispatch sampleHost workerJob workerTurn).2.sink = some k ∧
      k.delivered = messages ++ [e] ∧ e.kind = .turnEnd := by
  obtain ⟨k, hk⟩ : ∃ k, (dispatch sampleHost workerJob workerTurn).2.sink = some k := ⟨_, rfl⟩
  obtain ⟨messages, e, hdelivered, hends, -⟩ :=
    @turn_ends sampleHost workerJob workerTurn rfl rfl k hk (by decide +kernel)
  exact ⟨k, messages, e, hk, hdelivered, hends.kind⟩

end AppServer
