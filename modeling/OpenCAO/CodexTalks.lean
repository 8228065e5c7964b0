import OpenCAO.AppServerTalks
import OpenCAO.ClaudeTurns
import OpenCAO.CodexDispatch

/-!
# What a dispatch says to the App Server

A dispatch is a sequence of exchanges, however it ends (`answered_once`). Before the message is
given away there is nothing that a second dispatch would repeat (`Before`); then it is given away
once, and when there are tools to wait for they were ready by then (`delivered_once`); and what
comes after it asks nothing (`After`).

A dispatch that reports its message as not submitted has not given it away, or was told by the
server that it does not take it (`unsubmitted`). One that returns was told of this message: by
the queue of the desktop, or by a turn that began with it and has completed (`returned`).
-/

namespace AppServer

open PyJson (Value)
open DesktopSocket (Items)
open ClaudeOutput (Sink equals get getOf)
open ServerSentEvents (RequestId item string)

variable (host : Host) (job : Job) (incoming : List Items)

/-- A request gives the message away. -/
def isDelivery (r : ℕ × String × Items) : Bool :=
  r.2.1 ∈ ["thread/queue/add", "turn/start"]

/-- The requests that a dispatch makes. -/
def dispatchMethods : List String :=
  ["initialize", "thread/resume", "thread/start", "thread/queue/add", "turn/start"]

/-- **A dispatch that has not given its message away.** -/
structure Before (es : List Exchange) (t : State) : Prop where
  talked : Talked host none es (job.start incoming).rpc t.rpc
  methods : ∀ r ∈ requests es, r.2.1 ∈ dispatchMethods
  undelivered : (requests es).filter isDelivery = []
  submitted : t.submitted = false
  acceptance : t.acceptance = .unset
  turn : t.turnId = []

variable {host job incoming} {es : List Exchange} {s t : State} {α : Type}

/-! ## Before the message -/

theorem wp_onRpc {m : Call α} {Q : α → State → Prop} {E : Failure → State → Prop} :
    Session.wp (onRpc m) Q E s ↔ Session.wp m (fun a r => Q a { s with rpc := r })
      (fun e r => E e { s with rpc := r }) s.rpc := Session.wp_within

theorem wp_startupRemaining {Q : PUnit → State → Prop} {E : Failure → State → Prop}
    (hQ : Q ⟨⟩ s) (hE : ∀ e, E e s) : Session.wp (startupRemaining host) Q E s := by
  unfold startupRemaining
  rw [Session.wp_bind, Session.wp_get]
  split
  · exact hE _
  · exact hQ

theorem wp_adjust {f : Sink → Sink} {Q : PUnit → State → Prop} {E : Failure → State → Prop} :
    Session.wp (adjust f) Q E s ↔ Q ⟨⟩ { s with sink := s.sink.map f } := Iff.rfl

/-- Something that gives nothing away. -/
theorem Before.more {es' : List Exchange} {r : Rpc} (h : Before host job incoming es s)
    (ht : Talked host (awaiting none es) es' s.rpc r)
    (hmethods : ∀ q ∈ requests es', q.2.1 ∈ dispatchMethods ∧ isDelivery q = false) :
    Before host job incoming (es ++ es') { s with rpc := r } where
  talked := h.talked.trans ht
  methods := fun q hq => by
    rw [requests_append, List.mem_append] at hq
    exact hq.elim (h.methods q) fun hq => (hmethods q hq).1
  undelivered := by
    rw [requests_append, List.filter_append, h.undelivered, List.nil_append,
      List.filter_eq_nil_iff]
    exact fun q hq => by simp [(hmethods q hq).2]
  submitted := h.submitted
  acceptance := h.acceptance
  turn := h.turn

theorem wp_startupRequest (h : Before host job incoming es s) {method : String} {params : Items}
    (hmethod : method ∈ ["initialize", "thread/resume", "thread/start"]) :
    Session.wp (startupRequest host method params)
      (fun _ t => (∃ es', Before host job incoming es' t) ∧ ∃ r, t = { s with rpc := r })
      (fun _ t => ∃ es', Before host job incoming es' t) s := by
  have hmore : ∀ r, Asked host (awaiting none es) method params s.rpc r →
      ∃ es', Before host job incoming es' { s with rpc := r } := by
    rintro r ⟨es', htalked, hrequests⟩
    refine ⟨es ++ es', h.more htalked fun q hq => ?_⟩
    rw [hrequests, List.mem_singleton] at hq
    subst hq
    revert method
    simp [dispatchMethods, isDelivery]
  unfold startupRequest
  rw [Session.wp_bind]
  refine wp_startupRemaining ?_ fun _ => ⟨es, h⟩
  rw [wp_onRpc]
  exact Session.wp_mono (wp_request (awaiting none es) method params _)
    (fun _ r hr => ⟨hmore r hr, r, rfl⟩) fun _ r hr => hmore r hr

theorem wp_sayHello (h : Before host job incoming es s) :
    Session.wp (sayHello host job)
      (fun _ t => (∃ es', Before host job incoming es' t) ∧ ∃ r, t = { s with rpc := r })
      (fun _ t => ∃ es', Before host job incoming es' t) s := by
  unfold sayHello
  rw [Session.wp_bind]
  refine Session.wp_mono (wp_startupRequest h (by simp)) ?_ fun _ _ h => h
  rintro _ t ⟨⟨es', ht⟩, r, rfl⟩
  have hmore := ht.more talked_initialized (by simp [requests, Exchange.request?])
  rw [wp_onRpc]
  exact wp_send _ ⟨⟨_, hmore⟩, _, rfl⟩ fun _ => ⟨_, hmore⟩

theorem wp_openThread (h : Before host job incoming es s) (before : Text) :
    Session.wp (openThread host job before)
      (fun _ t => (∃ es', Before host job incoming es' t) ∧ ∃ r, t = { s with rpc := r })
      (fun _ t => ∃ es', Before host job incoming es' t) s := by
  unfold openThread
  split
  · exact wp_startupRequest h (by simp)
  · exact wp_startupRequest h (by simp)

/-- **A thread has a name** when it is bound. -/
theorem wp_bindThread (h : Before host job incoming es s) :
    Session.wp (bindThread host job)
      (fun _ t => (∃ es', Before host job incoming es' t) ∧ t.nativeThreadId ≠ [])
      (fun _ t => ∃ es', Before host job incoming es' t) s := by
  have hphase : Before host job incoming es { s with phase := .threadBinding } := { h with }
  unfold bindThread
  simp only [Session.wp_bind, Session.wp_modify, Session.wp_get]
  refine Session.wp_mono (wp_openThread hphase s.nativeThreadId) ?_ fun _ _ h => h
  rintro result t ⟨⟨es', ht⟩, -⟩
  have hnamed : Before host job incoming es'
      { t with nativeThreadId := threadId host result s.nativeThreadId } := { ht with }
  unfold nameThread
  rw [Session.wp_bind, Session.wp_modify]
  split
  · exact ⟨es', hnamed⟩
  next hid =>
  rw [Session.wp_bind, Session.wp_get]
  split
  · exact ⟨es', hnamed⟩
  · exact ⟨⟨es', { hnamed with }⟩, hid⟩

/-- **The tools are ready.** -/
theorem wp_awaitTools (h : Before host job incoming es s) :
    Session.wp (awaitTools host job)
      (fun _ t => (∃ es', Before host job incoming es' t) ∧
        t.nativeThreadId = s.nativeThreadId ∧
        ∀ broker ∈ job.broker, t.rpc.ready broker.serverName s.nativeThreadId = true)
      (fun _ t => ∃ es', Before host job incoming es' t) s := by
  have hphase : Before host job incoming es { s with phase := .mcpStartup } := { h with }
  unfold awaitTools
  cases hbroker : job.broker with
  | none => exact ⟨⟨es, h⟩, rfl, by simp⟩
  | some broker =>
    simp only [Session.wp_bind, Session.wp_modify]
    refine wp_startupRemaining ?_ fun _ => ⟨es, hphase⟩
    rw [Session.wp_get, wp_onRpc]
    have hmore : ∀ r, Listened host (awaiting none es) s.rpc r →
        ∃ es', Before host job incoming es' { s with phase := .mcpStartup, rpc := r } := by
      rintro r ⟨es', htalked, hrequests⟩
      exact ⟨es ++ es', hphase.more htalked (by simp [hrequests])⟩
    refine Session.wp_mono
      (wp_waitForMcpServerReady (awaiting none es) broker.serverName s.nativeThreadId) ?_
      fun _ r hr => hmore r hr
    rintro _ r ⟨hr, hready⟩
    refine ⟨hmore r hr, rfl, fun b hb => ?_⟩
    obtain rfl := Option.mem_some.mp hb
    exact hready

/-! ## The message -/

/-- The server does not take a message. -/
def Refused (host : Host) (id : ℕ) (es : List Exchange) : Prop :=
  ∃ value error, .answered value ∈ es ∧ isResponse id value = true ∧
    get? value "error" = some error ∧ rejectedBeforeSubmission host error = true

/-- **A turn begins with a message.** -/
def Begins (host : Host) (clientUserMessageId turnId : Text) (value : Items) : Prop :=
  textOf host value "method" = Text.ofString "item/started" ∧
    let params := (get? value "params").getD (.dict [])
    textOr host (getOf (getOf params "item") "type") = Text.ofString "userMessage" ∧
      textOr host (getOf (getOf params "item") "clientId") = clientUserMessageId ∧
      textOr host (getOf params "turnId") = turnId

/-- **A turn has completed.** -/
def Completes (host : Host) (turnId status : Text) (value : Items) : Prop :=
  textOf host value "method" = Text.ofString "turn/completed" ∧
    let params := (get? value "params").getD (.dict [])
    textOf host (candidate params) "id" = turnId ∧
      textOr host (get (candidate params) "status") = status

/-- **A dispatch that has given its message away**, once. -/
structure After (host : Host) (job : Job) (incoming : List Items) (es₁ : List Exchange)
    (r : ℕ × String × Items) (es₂ : List Exchange) (t : State) : Prop where
  talked : Talked host none (es₁ ++ .request r.1 r.2.1 r.2.2 :: es₂) (job.start incoming).rpc t.rpc
  methods : ∀ q ∈ requests es₁, q.2.1 ∈ dispatchMethods
  undelivered : (requests es₁).filter isDelivery = []
  quiet : requests es₂ = []
  unsubmitted : t.submitted = false ∨ t.acceptance = .unset ∨ t.acceptance = .notSubmitted →
    Refused host r.1 es₂
  turn : job.durable = true → t.turnId ≠ [] →
    ∃ value, .heard value ∈ es₂ ∧ Begins host job.clientUserMessageId t.turnId value

variable {es₁ es₂ : List Exchange} {r : ℕ × String × Items}

theorem After.requests_eq (h : After host job incoming es₁ r es₂ s) :
    requests (es₁ ++ .request r.1 r.2.1 r.2.2 :: es₂) = requests es₁ ++ [r] := by
  rw [requests_append]
  show requests es₁ ++ r :: requests es₂ = _
  rw [h.quiet]

theorem Refused.mono {id : ℕ} {es es' : List Exchange} (h : Refused host id es) (hsub : es ⊆ es') :
    Refused host id es' := by
  obtain ⟨value, error, hmem, hrefused⟩ := h
  exact ⟨value, error, hsub hmem, hrefused⟩

/-- Something is exchanged behind the message. -/
theorem After.snoc (h : After host job incoming es₁ r es₂ s) {e : Exchange} {p : Rpc}
    (hr : requests [e] = []) (ht : Talked host (some r.1) [e] s.rpc p) :
    After host job incoming es₁ r (es₂ ++ [e]) { s with rpc := p } where
  talked := by
    have hawaiting : awaiting none (es₁ ++ .request r.1 r.2.1 r.2.2 :: es₂) = some r.1 := by
      rw [awaiting, h.requests_eq, List.getLast?_concat]
      rfl
    have htalked := h.talked.trans (hawaiting ▸ ht)
    rwa [List.append_assoc, List.cons_append] at htalked
  methods := h.methods
  undelivered := h.undelivered
  quiet := by rw [requests_append, h.quiet, hr]; rfl
  unsubmitted := fun hs => (h.unsubmitted hs).mono (List.subset_append_left _ _)
  turn := fun hd hne => by
    obtain ⟨value, hmem, hbegins⟩ := h.turn hd hne
    exact ⟨value, List.mem_append_left _ hmem, hbegins⟩

/-- The dispatch goes on. -/
theorem After.onward (h : After host job incoming es₁ r es₂ s) (hrpc : t.rpc = s.rpc)
    (hsubmitted : t.submitted = s.submitted)
    (hacceptance : t.acceptance = .unset ∨ t.acceptance = .notSubmitted →
      t.acceptance = s.acceptance)
    (hturn : t.turnId = s.turnId ∨ (job.durable = true →
      ∃ value, .heard value ∈ es₂ ∧ Begins host job.clientUserMessageId t.turnId value)) :
    After host job incoming es₁ r es₂ t where
  talked := hrpc ▸ h.talked
  methods := h.methods
  undelivered := h.undelivered
  quiet := h.quiet
  unsubmitted := fun ht => h.unsubmitted <|
    ht.imp hsubmitted.symm.trans fun ht => hacceptance ht ▸ ht
  turn := fun hd hne =>
    hturn.elim (fun heq => heq ▸ h.turn hd (heq ▸ hne)) fun hbegins => hbegins hd

/-- **The message is given away.** -/
theorem wp_submit (h : Before host job incoming es s) (method : String) (params : Items) :
    Session.wp (submit host method params)
      (fun id t => After host job incoming es (id, method, params) [] t)
      (fun _ t => ∃ id, After host job incoming es (id, method, params) [] t) s := by
  have hafter : After host job incoming es (s.rpc.nextId, method, params) [] { s with
      rpc := { s.rpc with
        nextId := s.rpc.nextId + 1
        sent := s.rpc.sent ++ [requestOf s.rpc.nextId method params] }
      phase := .deliverySubmit, submitted := true, acceptance := .submitted } :=
    { talked := h.talked.trans talked_request
      methods := h.methods
      undelivered := h.undelivered
      quiet := rfl
      unsubmitted := by simp
      turn := fun _ hne => absurd h.turn hne }
  unfold submit
  simp only [Session.wp_bind, Session.wp_get, Session.wp_modify]
  rw [wp_onRpc]
  exact wp_send _ hafter fun _ => ⟨_, hafter⟩

/-- What is said to a message that is not a request of the server: nothing. -/
theorem replied_of_none {p : Rpc} {value : Items} (h : serverRequest? host value = none) :
    p.replied host value = p := by
  unfold Rpc.replied reply?
  rw [h]
  rfl

/-- **A message that is no response** is passed over, or it is heard. -/
theorem wp_notResponse (h : After host job incoming es₁ r es₂ s) {value : Items}
    (hv : s.rpc.incoming.head? = some value) {f : Bool → Run α} {Q : α → State → Prop}
    {E : Failure → State → Prop}
    (hpassed : ∀ p : Rpc, p.incoming = s.rpc.incoming.tail →
      After host job incoming es₁ r (es₂ ++ [.passed value]) { s with rpc := p } →
      Session.wp (f true) Q E { s with rpc := p })
    (hheard : s.rpc.pop.observeNotification host value = { s.rpc.pop with
        mcpServerStates := (s.rpc.pop.observeNotification host value).mcpServerStates } →
      After host job incoming es₁ r (es₂ ++ [.heard value])
        { s with rpc := s.rpc.pop.observeNotification host value } →
      Session.wp (f false) Q E { s with rpc := s.rpc.pop })
    (hE : ∀ e p, After host job incoming es₁ r (es₂ ++ [.passed value]) { s with rpc := p } →
      E e { s with rpc := p }) :
    Session.wp (onRpc (handleServerRequest host value) >>= f) Q E { s with rpc := s.rpc.pop } := by
  have hpass := h.snoc (e := .passed value) rfl (talked_passed (head_eq hv))
  rw [Session.wp_bind, wp_onRpc]
  refine wp_handleServerRequest value ?_ fun e => hE e _ hpass
  cases hrequest : serverRequest? host value with
  | some id => exact hpassed _ (replied_eq value).1 hpass
  | none =>
    have hhear := h.snoc (e := .heard value) rfl (talked_heard (head_eq hv))
    rw [replied_of_none hrequest] at hhear ⊢
    refine hheard ?_ hhear
    rw [observeNotification_eq]

/-- **The desktop has queued the message**, if it says so. -/
theorem wp_wakeDesktop (h : Before host job incoming es s) :
    let r := fun id => (id, "thread/queue/add", job.queueParams s.nativeThreadId)
    Session.wp (wakeDesktop host job)
      (fun ret t => ∃ id es₂, After host job incoming es (r id) es₂ t ∧
        ret.acceptance = .queued ∧ ∃ value, .answered value ∈ es₂ ∧ isResponse id value = true ∧
          preservesIdentity host job ((get? value "result").getD (.dict [])) = true)
      (fun _ t => ∃ id es₂, After host job incoming es (r id) es₂ t) s := by
  intro r
  have hnamed : Before host job incoming es
      { s with methodName := Text.ofString "thread_queue" } := { h with }
  unfold wakeDesktop
  simp only [Session.wp_bind, Session.wp_get, Session.wp_modify]
  refine Session.wp_mono (wp_submit hnamed _ _) ?_ fun _ _ h => h.imp fun _ ht => ⟨[], ht⟩
  intro id t ht
  refine Session.wp_receive (fun u => ∃ es₂, After host job incoming es (r id) es₂ u) ?_ ?_
    ⟨[], ht⟩
  · rintro value u ⟨es₂, hu⟩ hv
    split
    · next hresponse =>
      have hanswered := hu.snoc (e := .answered value) rfl (talked_answered (head_eq hv) hresponse)
      split
      · next error herror =>
        split
        · next hrejected =>
          refine ⟨id, _, { hanswered with unsubmitted := fun _ => ?_ }⟩
          exact ⟨value, error, by simp, hresponse, herror, hrejected⟩
        · exact ⟨id, _, hanswered⟩
      · split
        · next hpreserved =>
          refine ⟨fun ret hret => ?_, by simp⟩
          obtain rfl := Option.some.inj hret
          refine ⟨id, _, hanswered.onward rfl rfl (by simp) (Or.inl rfl), rfl, value, by simp,
            hresponse, hpreserved⟩
        · exact ⟨id, _, hanswered⟩
    · refine wp_notResponse hu hv ?_ ?_ fun _ p hp => ⟨id, _, hp⟩
      · exact fun p hp hpassed => ⟨by simp, fun _ => ⟨⟨_, hpassed⟩, hp⟩⟩
      · intro hobserved hheard
        refine ⟨by simp, fun _ => ⟨⟨_, hheard⟩, ?_⟩⟩
        show (u.rpc.pop.observeNotification host value).incoming = _
        rw [hobserved]
        rfl
  · rintro u ⟨es₂, hu⟩
    rw [Session.wp_bind]
    refine wp_startupRemaining ?_ fun _ => ⟨id, es₂, hu⟩
    rw [wp_onRpc]
    exact wp_ended fun _ => ⟨id, es₂, hu⟩

/-! ## The turn -/

section Turn

variable {value : Items} {method : Text} {params : Items} {E : Failure → State → Prop}

/-- A response to the message. -/
theorem wp_accept (h : After host job incoming es₁ r es₂ s) (hmem : .answered value ∈ es₂)
    (hresponse : isResponse r.1 value = true) (name : String) :
    Session.wp (accept host job name value)
      (fun _ t => After host job incoming es₁ r es₂ t ∧ t.rpc = s.rpc)
      (fun _ t => After host job incoming es₁ r es₂ t) s := by
  unfold accept
  split
  · next error herror =>
    split
    · next hrejected =>
      refine { h with unsubmitted := fun _ => ?_ }
      exact ⟨value, error, hmem, hresponse, herror, (Bool.and_eq_true_iff.mp hrejected).2⟩
    · exact h
  · split
    · split
      · split
        · exact ⟨h.onward rfl rfl (by simp) (Or.inl rfl), rfl⟩
        · exact h
      · next hdurable =>
        split
        · exact ⟨h.onward rfl rfl (by simp) (Or.inr fun hd => absurd hd hdurable), rfl⟩
        · exact ⟨h, rfl⟩
    · exact ⟨h, rfl⟩

/-- **A turn is bound by its message.** -/
theorem wp_bindTurn {Q : PUnit → State → Prop} (hkeep : Q ⟨⟩ s)
    (hbind : method = Text.ofString "item/started" →
      textOr host (getOf (get params "item") "type") = Text.ofString "userMessage" →
      textOr host (getOf (get params "item") "clientId") = job.clientUserMessageId →
      (s.sink.isNone = true ∨ textOr host (get params "threadId") = s.nativeThreadId) →
      (s.sink.isSome = true → s.turnId ≠ [] → textOr host (get params "turnId") = s.turnId) →
      Q ⟨⟩ { s with
        turnId := textOr host (get params "turnId"), acceptance := .started
        sink := s.sink.map fun sink => { sink with turnId := textOr host (get params "turnId") } })
    (hE : ∀ e, E e s) : Session.wp (bindTurn host job method params) Q E s := by
  unfold bindTurn
  rw [Session.wp_bind, Session.wp_get]
  split
  · next h =>
    dsimp only
    split
    · exact hE _
    · next hsame =>
      refine hbind h.1 h.2.1 h.2.2.1 h.2.2.2 fun hsome hne => ?_
      by_contra hother
      exact hsame ⟨hsome, hne, hother⟩
  · exact hkeep

theorem wp_tell {f : Sink → Sink × Option ClaudeOutput.Failure} {Q : PUnit → State → Prop}
    (hQ : ∀ k, Q ⟨⟩ { s with sink := k }) (hE : ∀ e k, E e { s with sink := k }) :
    Session.wp (tell f) Q E s := by
  obtain ⟨rpc, sink, thread, turn, count, submitted, name, acceptance, phase⟩ := s
  unfold Session.wp tell
  cases sink with
  | none => exact hQ none
  | some sink =>
    dsimp only
    cases (f sink).2 with
    | none => exact hQ _
    | some failure => exact hE _ _

/-- What the assistant says is between the sink and its callback. -/
theorem wp_observeItem {Q : PUnit → State → Prop} (hQ : ∀ k, Q ⟨⟩ { s with sink := k })
    (hE : ∀ e k, E e { s with sink := k }) :
    Session.wp (observeItem host method params) Q E s := by
  have hkeep : Q ⟨⟩ s := hQ s.sink
  unfold observeItem
  rw [Session.wp_bind, Session.wp_get]
  dsimp only
  split
  · split
    · exact hQ _
    split
    · split
      · exact hQ _
      · split
        · split
          · exact hQ _
          · exact wp_tell hQ hE
        · exact hQ _
    · exact hkeep
  · exact hkeep

/-- **A turn completes.** -/
theorem wp_complete {params : Value} {Q : Option Text → State → Prop} (hnone : Q none s)
    (hsome : method = Text.ofString "turn/completed" →
      (job.durable = true ∨ s.sink.isSome = true → s.turnId ≠ [] ∧
        textOf host (candidate params) "id" = s.turnId) →
      ∀ k, Q (some (textOr host (get (candidate params) "status")))
        { s with sink := k, acceptance := .completed })
    (hE : ∀ e k, E e { s with sink := k }) :
    Session.wp (complete host job method params) Q E s := by
  unfold complete
  rw [Session.wp_bind, Session.wp_get]
  dsimp only
  split
  · next h =>
    obtain ⟨hmethod, hturn, henvelope⟩ := h
    have hbound : job.durable = true ∨ s.sink.isSome = true → s.turnId ≠ [] ∧
        textOf host (candidate params) "id" = s.turnId := by
      rintro (hdurable | hsink)
      · simpa [hdurable] using hturn
      · rw [← Option.isNone_eq_false_iff] at hsink
        simp only [hsink, Bool.false_or, decide_eq_true_eq] at henvelope
        exact ⟨henvelope.1, henvelope.2.1⟩
    split
    · split
      · exact hE _ s.sink
      · rw [Session.wp_bind]
        exact wp_tell (hsome hmethod hbound) hE
    · exact hsome hmethod hbound s.sink
  · exact hnone

/-- **The loop of a turn** goes on behind the message, until the turn has completed. -/
theorem wp_event (h : After host job incoming es₁ r es₂ s)
    (hv : s.rpc.incoming.head? = some value) (name : String) :
    Session.wp (event host job r.1 name value)
      (fun o t => (∃ es₂, After host job incoming es₁ r es₂ t ∧
        ∀ status, o = some status → job.durable = true → t.turnId ≠ [] ∧
          ∃ value, .heard value ∈ es₂ ∧ Completes host t.turnId status value) ∧
        (o = none → t.rpc.incoming = s.rpc.incoming.tail))
      (fun _ t => ∃ es₂, After host job incoming es₁ r es₂ t) { s with rpc := s.rpc.pop } := by
  unfold event
  split
  · next hresponse =>
    have hanswered := h.snoc (e := .answered value) rfl (talked_answered (head_eq hv) hresponse)
    rw [Session.wp_bind]
    refine Session.wp_mono (wp_accept hanswered (by simp) hresponse name) ?_ fun _ _ ht => ⟨_, ht⟩
    exact fun _ t ht => ⟨⟨_, ht.1, by simp⟩, fun _ => ht.2 ▸ rfl⟩
  refine wp_notResponse h hv ?_ ?_ fun _ p hp => ⟨_, hp⟩
  · exact fun p hp hpassed => ⟨⟨_, hpassed, by simp⟩, fun _ => hp⟩
  intro hobserved hheard
  have hincoming : (s.rpc.pop.observeNotification host value).incoming = s.rpc.incoming.tail := by
    rw [hobserved]
    rfl
  rw [if_neg Bool.false_ne_true, Session.wp_bind, Session.wp_modify]
  generalize s.rpc.pop.observeNotification host value = p at hheard hincoming
  have hrest : ∀ {t : State}, After host job incoming es₁ r (es₂ ++ [.heard value]) t →
      t.rpc.incoming = s.rpc.incoming.tail →
      Session.wp (complete host job (textOf host value "method")
          ((get? value "params").getD (.dict [])))
        (fun o t => (∃ es₂, After host job incoming es₁ r es₂ t ∧
          ∀ status, o = some status → job.durable = true → t.turnId ≠ [] ∧
            ∃ value, .heard value ∈ es₂ ∧ Completes host t.turnId status value) ∧
          (o = none → t.rpc.incoming = s.rpc.incoming.tail))
        (fun _ t => ∃ es₂, After host job incoming es₁ r es₂ t) t := by
    intro t ht hincoming
    refine wp_complete ⟨⟨_, ht, by simp⟩, fun _ => hincoming⟩ ?_
      fun _ _ => ⟨_, ht.onward rfl rfl (fun _ => rfl) (Or.inl rfl)⟩
    intro hmethod hbound k
    refine ⟨⟨_, ht.onward rfl rfl (by simp) (Or.inl rfl), ?_⟩, by simp⟩
    intro status hstatus hdurable
    obtain rfl := Option.some.inj hstatus
    obtain ⟨hne, hid⟩ := hbound (Or.inl hdurable)
    exact ⟨hne, value, by simp, hmethod, hid, rfl⟩
  have hkept := fun count k => hheard.onward
    (t := { s with rpc := p, eventCount := count, sink := k }) rfl rfl (fun _ => rfl) (Or.inl rfl)
  unfold observeEvent
  rw [Session.wp_bind]
  split
  · next items hitems =>
    rw [Session.wp_bind]
    refine wp_bindTurn ?_ ?_ fun _ => ⟨_, hkept _ _⟩
    · exact wp_observeItem (fun k => hrest (hkept _ k) hincoming) fun _ k => ⟨_, hkept _ k⟩
    · intro hmethod htype hclient _ _
      have hbegins : ∀ k, After host job incoming es₁ r (es₂ ++ [.heard value]) { s with
          rpc := p, eventCount := s.eventCount + 1, acceptance := .started
          turnId := textOr host (get items "turnId"), sink := k } := fun k => by
        refine hheard.onward rfl rfl (by simp) (Or.inr fun _ => ⟨value, by simp, hmethod, ?_⟩)
        dsimp only
        rw [hitems]
        exact ⟨htype, hclient, rfl⟩
      exact wp_observeItem (fun k => hrest (hbegins k) hincoming) fun _ k => ⟨_, hbegins k⟩
  · exact hrest (hkept _ _) hincoming

/-- **The message is handed over, and its turn is followed.** -/
theorem wp_deliver (h : Before host job incoming es s) :
    let r := fun id => (id, job.deliveryMethod,
      if job.durable then job.queueParams s.nativeThreadId else job.turnParams s.nativeThreadId)
    Session.wp (deliver host job)
      (fun ret t => ∃ id es₂, After host job incoming es (r id) es₂ t ∧
        (job.durable = true → t.turnId ≠ [] ∧
          ∃ value, .heard value ∈ es₂ ∧ Completes host t.turnId ret.turnStatus value))
      (fun _ t => ∃ id es₂, After host job incoming es (r id) es₂ t) s := by
  intro r
  have hnamed : Before host job incoming es
      { s with methodName := job.deliveryMethodName } := { h with }
  unfold deliver
  simp only [Session.wp_bind, Session.wp_get, Session.wp_modify]
  refine Session.wp_mono (wp_submit hnamed _ _) ?_ fun _ _ h => h.imp fun _ ht => ⟨[], ht⟩
  intro id t ht
  have hlistening : ∀ {t : State}, After host job incoming es (r id) [] t →
      Session.wp (listening (event host job id job.deliveryMethod)
        (onRpc (ended host fun s => s.timeoutDiagnostic "turn")))
      (fun status t => ∃ es₂, After host job incoming es (r id) es₂ t ∧
        (job.durable = true → t.turnId ≠ [] ∧
          ∃ value, .heard value ∈ es₂ ∧ Completes host t.turnId status value))
      (fun _ t => ∃ es₂, After host job incoming es (r id) es₂ t) t := by
    intro t ht
    refine Session.wp_receive (fun u => ∃ es₂, After host job incoming es (r id) es₂ u) ?_ ?_
      ⟨[], ht⟩
    · rintro value u ⟨es₂, hu⟩ hv
      refine Session.wp_mono (wp_event hu hv job.deliveryMethod) ?_ fun _ _ h => h
      rintro o v ⟨⟨es₂, hv, hcompleted⟩, hincoming⟩
      exact ⟨fun status hstatus => ⟨es₂, hv, hcompleted status hstatus⟩,
        fun hnone => ⟨⟨es₂, hv⟩, hincoming hnone⟩⟩
    · rintro u ⟨es₂, hu⟩
      rw [wp_onRpc]
      exact wp_ended fun _ => ⟨es₂, hu⟩
  split
  all_goals
    simp only [Session.wp_bind, Session.wp_get, Session.wp_modify, Session.wp_pure]
    refine Session.wp_mono (hlistening (ht.onward rfl rfl (fun _ => rfl) (Or.inl rfl))) ?_
      fun _ _ hu => ⟨id, hu⟩
    exact fun status u hu => ⟨id, hu⟩

end Turn

/-! ## The dispatch -/

/-- What the message is given away with: the thread of CAO, or a thread whose tools are ready. -/
def Handed (host : Host) (job : Job) (es : List Exchange) (r : ℕ × String × Items) : Prop :=
  r.2 = ("thread/queue/add", job.queueParams job.nativeSessionId) ∧
      job.desktopCaoWake = true ∧ job.nativeSessionId ≠ [] ∨
    ∃ threadId, threadId ≠ [] ∧
      r.2 = (job.deliveryMethod,
        if job.durable then job.queueParams threadId else job.turnParams threadId) ∧
      ∀ broker ∈ job.broker, lastSaid (es.filterMap (Exchange.announced? host))
        (threadId, broker.serverName) = some (Text.ofString "ready")

theorem Handed.method {es : List Exchange} {r : ℕ × String × Items} (h : Handed host job es r) :
    r.2.1 ∈ dispatchMethods ∧ isDelivery r = true := by
  rcases h with ⟨hr, -⟩ | ⟨threadId, -, hr, -⟩
  · simp [isDelivery, dispatchMethods, hr]
  · cases hdurable : job.durable <;>
      simp [isDelivery, dispatchMethods, hr, Job.deliveryMethod, hdurable]

/-- The message is given away once. -/
theorem After.delivery (h : After host job incoming es₁ r es₂ s) (hr : Handed host job es₁ r) :
    (requests (es₁ ++ .request r.1 r.2.1 r.2.2 :: es₂)).filter isDelivery = [r] := by
  rw [h.requests_eq, List.filter_append, h.undelivered, List.nil_append, List.filter_singleton,
    hr.method.2]
  rfl

/-- **Where a dispatch is.** -/
def Stands (host : Host) (job : Job) (incoming : List Items) (t : State) : Prop :=
  (∃ es, Before host job incoming es t) ∨
    ∃ es₁ r es₂, After host job incoming es₁ r es₂ t ∧ Handed host job es₁ r

/-- What a dispatch was told when it returns. -/
def Confirmed (host : Host) (job : Job) (incoming : List Items) (ret : Returned) (t : State) :
    Prop :=
  ∃ es₁ r es₂, After host job incoming es₁ r es₂ t ∧ Handed host job es₁ r ∧
    if job.desktopCaoWake = true ∧ job.nativeSessionId ≠ [] then
      ret.acceptance = .queued ∧ ∃ value, .answered value ∈ es₂ ∧ isResponse r.1 value = true ∧
        preservesIdentity host job ((get? value "result").getD (.dict [])) = true
    else
      job.durable = true → t.turnId ≠ [] ∧
        ∃ value, .heard value ∈ es₂ ∧ Completes host t.turnId ret.turnStatus value

/-- **What a dispatch does**, step by step. -/
theorem wp_converse : Session.wp (converse host job) (Confirmed host job incoming)
    (fun _ => Stands host job incoming) (job.start incoming) := by
  have hstart : Before host job incoming [] (job.start incoming) :=
    ⟨.refl _, by simp [requests], rfl, rfl, rfl, rfl⟩
  unfold converse
  rw [Session.wp_bind]
  refine Session.wp_mono (wp_sayHello hstart) ?_ fun _ t ht => Or.inl ht
  rintro _ t ⟨⟨es, ht⟩, p, rfl⟩
  rw [Session.wp_bind, Session.wp_get]
  split
  · next hwake =>
    have hhanded : ∀ id, Handed host job es
        (id, "thread/queue/add", job.queueParams job.nativeSessionId) := fun id =>
      Or.inl ⟨rfl, hwake.1, hwake.2⟩
    refine Session.wp_mono (wp_wakeDesktop ht) ?_ ?_
    · rintro ret u ⟨id, es₂, hu, hqueued, hanswered⟩
      exact ⟨es, _, es₂, hu, hhanded id, (if_pos hwake).mpr ⟨hqueued, hanswered⟩⟩
    · rintro _ u ⟨id, es₂, hu⟩
      exact Or.inr ⟨es, _, es₂, hu, hhanded id⟩
  · next hwake =>
    rw [Session.wp_bind]
    refine Session.wp_mono (wp_bindThread ht) ?_ fun _ u hu => Or.inl hu
    rintro _ u ⟨⟨es, hu⟩, hthread⟩
    rw [Session.wp_bind]
    refine Session.wp_mono (wp_awaitTools hu) ?_ fun _ v hv => Or.inl hv
    rintro _ v ⟨⟨es, hv⟩, hsame, hready⟩
    have hhanded : ∀ id, Handed host job es (id, job.deliveryMethod,
        if job.durable then job.queueParams v.nativeThreadId
        else job.turnParams v.nativeThreadId) := fun id => by
      refine Or.inr ⟨v.nativeThreadId, hsame ▸ hthread, rfl, fun broker hbroker => ?_⟩
      have hstates := congrFun hv.talked.states (v.nativeThreadId, broker.serverName)
      rw [afterwards_apply, show (job.start incoming).rpc.mcpServerStates _ = none from rfl,
        Option.or_none] at hstates
      rw [← hstates, hsame]
      exact of_decide_eq_true (hready broker hbroker)
    refine Session.wp_mono (wp_deliver hv) ?_ ?_
    · rintro ret w ⟨id, es₂, hw, hcompleted⟩
      exact ⟨es, _, es₂, hw, hhanded id, (if_neg hwake).mpr hcompleted⟩
    · rintro _ w ⟨id, es₂, hw⟩
      exact Or.inr ⟨es, _, es₂, hw, hhanded id⟩

/-- The sink is told, and nothing else happens. -/
theorem tell_eq (f : Sink → Sink × Option ClaudeOutput.Failure) (s : State) :
    (tell f s).2 = { s with sink := (tell f s).2.sink } := by
  unfold tell
  split <;> rfl

theorem Stands.sink (h : Stands host job incoming s) (sink : Option Sink) :
    Stands host job incoming { s with sink } := by
  rcases h with ⟨es, h⟩ | ⟨es₁, r, es₂, h, hhanded⟩
  · exact Or.inl ⟨es, { h with }⟩
  · exact Or.inr ⟨es₁, r, es₂, { h with }, hhanded⟩

/-- What is reported of a failure, unless it is a cancellation, or the callback raises. -/
theorem conclude_spec (h : Stands host job incoming s) (failure : Failure) :
    let d := conclude host job failure s
    Stands host job incoming d.2 ∧
      (d.1 = .raised ∨ d.1 = .canceled ∨ d.1 = report job failure d.2) := by
  unfold conclude
  dsimp only
  have heq := tell_eq (fun sink => sink.finish host.output
    (if failure = .canceled then .interrupted else .failed) [] [] false) s
  have hstands := h.sink (tell (fun sink => sink.finish host.output
    (if failure = .canceled then .interrupted else .failed) [] [] false) s).2.sink
  rw [← heq] at hstands
  split
  · next htell =>
    rw [htell] at hstands
    exact ⟨hstands, Or.inl rfl⟩
  · next htell =>
    rw [htell] at hstands
    refine ⟨hstands, Or.inr ?_⟩
    split_ifs
    · exact Or.inl rfl
    · exact Or.inr rfl

/-- **How a dispatch ends**: it returns, or something failed and the sink was told. -/
theorem dispatch_cases (host : Host) (job : Job) (incoming : List Items) :
    let d := dispatch host job incoming
    (∃ ret, d.1 = .returned ret ∧ Confirmed host job incoming ret d.2) ∨
      Stands host job incoming d.2 ∧
        (d.1 = .raised ∨ d.1 = .canceled ∨ ∃ failure, d.1 = report job failure d.2) := by
  have hconverse := @wp_converse host job incoming
  unfold Session.wp at hconverse
  unfold dispatch
  split at hconverse
  · next ret t hrun =>
    rw [hrun]
    exact Or.inl ⟨ret, rfl, hconverse⟩
  · next failure t hrun =>
    rw [hrun]
    obtain ⟨hstands, hends⟩ := conclude_spec hconverse failure
    exact Or.inr ⟨hstands, hends.imp_right fun h => h.imp_right fun h => ⟨failure, h⟩⟩

/-- **What was read and written by a dispatch** is what its exchanges read and write. -/
structure Conversation (host : Host) (job : Job) (incoming : List Items) (es : List Exchange)
    (t : State) : Prop where
  read : es.filterMap Exchange.message? <+: incoming
  sent : t.rpc.sent
    = es.flatMap (Exchange.written host (job.broker.map Broker.serverName).toList)
  orderly : Orderly 1 none es

theorem Conversation.of_talked (h : Talked host none es (job.start incoming).rpc t.rpc) :
    Conversation host job incoming es t :=
  ⟨⟨t.rpc.incoming, h.incoming.symm⟩, h.sent, h.orderly⟩

theorem stands_dispatch (host : Host) (job : Job) (incoming : List Items) :
    Stands host job incoming (dispatch host job incoming).2 := by
  rcases dispatch_cases host job incoming with ⟨ret, -, es₁, r, es₂, h, hhanded, -⟩ | ⟨h, -⟩
  · exact Or.inr ⟨es₁, r, es₂, h, hhanded⟩
  · exact h

variable (host job incoming)

/-- The answers that grant nothing. -/
def refusals : List Value :=
  [declined, denied, nothingPermitted, elicitation false, noAnswers]

/-- **What is answered to a request of the server**: that there is no handler, a refusal, or that
a tool of a trusted server may be called. -/
theorem answer_cases (trusted : List Text) (value : Items) (id : Value) :
    answer host trusted value id = .dict [item "id" id, item "error" noHandler] ∨
      (∃ result ∈ refusals,
        answer host trusted value id = .dict [item "id" id, item "result" result]) ∨
      answer host trusted value id = .dict [item "id" id, item "result" (elicitation true)] ∧
        textOf host value "method" = Text.ofString "mcpServer/elicitation/request" ∧
        approves host trusted value = true := by
  have hrefused : ∀ result ∈ refusals, ∃ result' ∈ refusals,
      Value.dict [item "id" id, item "result" result]
        = .dict [item "id" id, item "result" result'] := fun result h => ⟨result, h, rfl⟩
  unfold answer
  split
  · next result hresult =>
    refine Or.inr ?_
    unfold result? at hresult
    split_ifs at hresult with _ _ _ helicit
    · exact Or.inl (hrefused _ (Option.some.inj hresult ▸ by simp [refusals]))
    · exact Or.inl (hrefused _ (Option.some.inj hresult ▸ by simp [refusals]))
    · exact Or.inl (hrefused _ (Option.some.inj hresult ▸ by simp [refusals]))
    · obtain rfl := Option.some.inj hresult
      cases happroves : approves host trusted value with
      | false => exact Or.inl (hrefused _ (by simp [refusals]))
      | true => exact Or.inr ⟨rfl, helicit, rfl⟩
    · exact Or.inl (hrefused _ (Option.some.inj hresult ▸ by simp [refusals]))
  · exact Or.inl rfl

/-- **A modest answer** to a request of the server, which grants nothing but a call of a tool of
the broker. -/
def Modest (host : Host) (job : Job) (value : Items) (m : Value) : Prop :=
  ∃ id, serverRequest? host value = some id ∧
    (m = .dict [item "id" id, item "error" noHandler] ∨
      (∃ result ∈ refusals, m = .dict [item "id" id, item "result" result]) ∨
      m = .dict [item "id" id, item "result" (elicitation true)] ∧
        textOf host value "method" = Text.ofString "mcpServer/elicitation/request" ∧
        ∃ broker ∈ job.broker, approves host [broker.serverName] value = true)

/-- **Nothing is granted but calls of the tools that the dispatch has injected.** Whatever the
server asks for, all that is written to it is a request of the dispatch, its greeting, a refusal,
or the consent to call a tool of the one server that the broker serves. -/
theorem nothing_granted : ∀ m ∈ (dispatch host job incoming).2.rpc.sent,
    (∃ id method params, method ∈ dispatchMethods ∧ m = requestOf id method params) ∨
      m = initialized ∨
      ∃ value ∈ incoming, Modest host job value m := by
  obtain ⟨es, hconversation, hmethods⟩ : ∃ es,
      Conversation host job incoming es (dispatch host job incoming).2 ∧
        ∀ r ∈ requests es, r.2.1 ∈ dispatchMethods := by
    rcases stands_dispatch host job incoming with ⟨es, h⟩ | ⟨es₁, r, es₂, h, hhanded⟩
    · exact ⟨es, .of_talked h.talked, h.methods⟩
    · refine ⟨_, .of_talked h.talked, fun q hq => ?_⟩
      rcases List.mem_append.mp (h.requests_eq ▸ hq) with hq | hq
      · exact h.methods q hq
      · rw [List.mem_singleton.mp hq]
        exact hhanded.method.1
  intro m hm
  rw [hconversation.sent] at hm
  obtain ⟨e, he, hwritten⟩ := List.mem_flatMap.mp hm
  have hreplied : ∀ value, e.message? = some value →
      m ∈ (reply? host (job.broker.map Broker.serverName).toList value).toList →
      ∃ value ∈ incoming, Modest host job value m := by
    intro value hvalue hreply
    have hread : value ∈ incoming :=
      hconversation.read.subset (List.mem_filterMap.mpr ⟨e, he, hvalue⟩)
    obtain ⟨id, hid, rfl⟩ := Option.map_eq_some_iff.mp (Option.mem_toList.mp hreply)
    refine ⟨value, hread, id, hid, ?_⟩
    rcases answer_cases host (job.broker.map Broker.serverName).toList value id with
      h | h | ⟨h, hmethod, happroves⟩
    · exact Or.inl h
    · exact Or.inr (Or.inl h)
    · refine Or.inr (Or.inr ⟨h, hmethod, ?_⟩)
      cases hbroker : job.broker with
      | none => simp [hbroker, approves] at happroves
      | some broker => exact ⟨broker, rfl, by simpa [hbroker] using happroves⟩
  cases e with
  | request id method params =>
    refine Or.inl ⟨id, method, params, ?_, List.mem_singleton.mp hwritten⟩
    exact hmethods (id, method, params) (List.mem_filterMap.mpr ⟨_, he, rfl⟩)
  | initialized => exact Or.inr (Or.inl (List.mem_singleton.mp hwritten))
  | answered value => simp [Exchange.written] at hwritten
  | heard value => exact Or.inr (Or.inr (hreplied value rfl hwritten))
  | passed value => exact Or.inr (Or.inr (hreplied value rfl hwritten))

/-- **What is reported as not submitted was not submitted**: the message was not given away, or
the server said that it does not take it. -/
theorem unsubmitted (h : (dispatch host job incoming).1 = .preStart ∨
      ∃ error methodName phase,
        (dispatch host job incoming).1 = .failed error methodName .notSubmitted phase) :
    ∃ es, Conversation host job incoming es (dispatch host job incoming).2 ∧
      ((requests es).filter isDelivery = [] ∨
        ∃ r, (requests es).filter isDelivery = [r] ∧ Refused host r.1 es) := by
  have hreport : ∀ {failure s}, report job failure s = .preStart ∨
      (∃ error methodName phase,
        report job failure s = .failed error methodName .notSubmitted phase) →
      s.submitted = false ∨ s.acceptance = .unset ∨ s.acceptance = .notSubmitted := by
    intro failure s h
    unfold report at h
    split_ifs at h with hwake hunset
    · exact Or.inl hwake.2
    · exact Or.inr (Or.inl hunset)
    · simp only [false_or, Outcome.failed.injEq] at h
      obtain ⟨_, _, _, -, -, hacceptance, -⟩ := h
      exact Or.inr (Or.inr hacceptance)
  rcases dispatch_cases host job incoming with ⟨ret, hreturned, -⟩ | ⟨hstands, hends⟩
  · simp [hreturned] at h
  · rcases hends with hends | hends | ⟨failure, hends⟩
    · simp [hends] at h
    · simp [hends] at h
    rw [hends] at h
    rcases hstands with ⟨es, hbefore⟩ | ⟨es₁, r, es₂, hafter, hhanded⟩
    · exact ⟨es, .of_talked hbefore.talked, Or.inl hbefore.undelivered⟩
    · refine ⟨_, .of_talked hafter.talked, Or.inr ⟨r, hafter.delivery hhanded, ?_⟩⟩
      refine (hafter.unsubmitted (hreport h)).mono fun e he => ?_
      exact List.mem_append_right _ (List.mem_cons_of_mem _ he)

/-- **A dispatch that returns has been told of its message**: that it is in the queue of the
desktop, or, for a Worker, of a turn that began with it and has completed. -/
theorem confirmed {ret : Returned} (h : (dispatch host job incoming).1 = .returned ret) :
    ∃ es, Conversation host job incoming es (dispatch host job incoming).2 ∧
      if job.desktopCaoWake = true ∧ job.nativeSessionId ≠ [] then
        ∃ value, .answered value ∈ es ∧
          preservesIdentity host job ((get? value "result").getD (.dict [])) = true
      else
        job.durable = true → ∃ turnId ≠ [], (∃ value, .heard value ∈ es ∧
            Begins host job.clientUserMessageId turnId value) ∧
          ∃ value, .heard value ∈ es ∧ Completes host turnId ret.turnStatus value := by
  have hreport : ∀ failure s, report job failure s ≠ .returned ret := by
    intro failure s
    unfold report
    split_ifs <;> simp
  rcases dispatch_cases host job incoming with ⟨ret', hreturned, hconfirmed⟩ | ⟨-, hends⟩
  · obtain rfl : ret' = ret := Outcome.returned.inj (hreturned.symm.trans h)
    obtain ⟨es₁, r, es₂, hafter, -, htold⟩ := hconfirmed
    have hmem : ∀ {e : Exchange}, e ∈ es₂ → e ∈ es₁ ++ .request r.1 r.2.1 r.2.2 :: es₂ :=
      fun he => List.mem_append_right _ (List.mem_cons_of_mem _ he)
    refine ⟨_, .of_talked hafter.talked, ?_⟩
    split_ifs at htold ⊢ with hwake
    · obtain ⟨-, value, hvalue, -, hpreserved⟩ := htold
      exact ⟨value, hmem hvalue, hpreserved⟩
    · intro hdurable
      obtain ⟨hne, value, hvalue, hcompletes⟩ := htold hdurable
      obtain ⟨first, hfirst, hbegins⟩ := hafter.turn hdurable hne
      exact ⟨_, hne, ⟨first, hmem hfirst, hbegins⟩, value, hmem hvalue, hcompletes⟩
  · rcases hends with hends | hends | ⟨failure, hends⟩
    · simp [hends] at h
    · simp [hends] at h
    · exact absurd (hends.symm.trans h) (hreport _ _)

/-! ### Two dispatches -/

/-- A host that takes what is written, and says nothing more than it says. -/
def sampleHost : Host where
  unwritten := fun _ _ => none
  unread := .timeout
  late := fun _ => false
  str := fun _ => []
  lower := id
  output := ClaudeOutput.sampleHost

/-- The message of CAO for its thread at the desktop. -/
def sampleJob : Job where
  desktopCaoWake := true
  nativeSessionId := Text.ofString "t"
  metadata := []
  effectiveModel := none
  effectiveEffort := none
  broker := none
  rendered := []
  clientUserMessageId := Text.ofString "m"
  serverVersion := []
  monitored := false
  observed := false

theorem unsubmitted_silent : ∃ es,
    Conversation sampleHost sampleJob [] es (dispatch sampleHost sampleJob []).2 ∧
      ((requests es).filter isDelivery = [] ∨
        ∃ r, (requests es).filter isDelivery = [r] ∧ Refused sampleHost r.1 es) :=
  unsubmitted sampleHost sampleJob [] (Or.inl (by decide +kernel))

/-- The server answers, and has queued the message. -/
def sampleAnswers : List Items :=
  [[item "id" (.int 1), item "result" (.dict [])],
    [item "id" (.int 2), item "result" (.dict [item "queuedSubmission"
      (.dict [item "clientUserMessageId" (string "m")])])]]

theorem confirmed_queued : ∃ es,
    Conversation sampleHost sampleJob sampleAnswers es
        (dispatch sampleHost sampleJob sampleAnswers).2 ∧
      ∃ value, .answered value ∈ es ∧
        preservesIdentity sampleHost sampleJob ((get? value "result").getD (.dict [])) = true := by
  obtain ⟨ret, hret⟩ : ∃ ret, (dispatch sampleHost sampleJob sampleAnswers).1 = .returned ret :=
    ⟨_, rfl⟩
  obtain ⟨es, hconversation, htold⟩ := confirmed sampleHost sampleJob sampleAnswers hret
  exact ⟨es, hconversation, (if_pos ⟨rfl, by simp [sampleJob, Text.ofString]⟩).mp htold⟩

/-- What is written to it. -/
theorem sent_sample : (dispatch sampleHost sampleJob sampleAnswers).2.rpc.sent
    = [requestOf 1 "initialize" [item "clientInfo" (.dict [
        item "name" (string "cao-a2a-control-plane"), item "version" (string "")]),
        item "capabilities" (.dict [item "experimentalApi" (.bool true)])],
      initialized, requestOf 2 "thread/queue/add" (sampleJob.queueParams (Text.ofString "t"))] :=
  rfl

theorem nothing_granted_greeting :
    (∃ id method params, method ∈ dispatchMethods ∧ initialized = requestOf id method params) ∨
      initialized = initialized ∨
      ∃ value ∈ sampleAnswers, Modest sampleHost sampleJob value initialized :=
  nothing_granted sampleHost sampleJob sampleAnswers initialized (by simp [sent_sample])

end AppServer
