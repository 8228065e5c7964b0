import OpenCAO.AppServer

/-!
# What is said to the App Server

A session with the App Server is a sequence of exchanges (`Exchange`): the client asks or
notifies, a message is taken for the response to what was asked last, or it is heard, and then
answered if it is a request of the server. What was written is what these exchanges write, in
order (`Exchange.written`), so that a request of the server is answered once, and at once.

A message is taken for a response by its identifier alone. The server numbers its requests
itself; one that has the number of the request that waits is taken for the response, and is not
answered.

Each session of a connection consists of exchanges (`Talked`), also one that fails.
-/

namespace AppServer

open PyJson (Value)
open DesktopSocket (Items)
open ServerSentEvents (RequestId item string)

/-- **A step of a conversation.** What is passed over is answered, but not looked at. -/
inductive Exchange where
  | request (id : ℕ) (method : String) (params : Items)
  | initialized
  | answered (value : Items)
  | heard (value : Items)
  | passed (value : Items)

variable (host : Host)

/-- What is said to a message of the server, if it is a request. -/
def reply? (trusted : List Text) (value : Items) : Option Value :=
  (serverRequest? host value).map (answer host trusted value)

namespace Exchange

/-- The message that is read. -/
def message? : Exchange → Option Items
  | answered value | heard value | passed value => some value
  | _ => none

/-- The request of the client. -/
def request? : Exchange → Option (ℕ × String × Items)
  | request id method params => some (id, method, params)
  | _ => none

/-- What a notification says of a server of tools. -/
def announced? : Exchange → Option ((Text × Text) × Text)
  | heard value => announcement? host value
  | _ => none

/-- **What is written.** -/
def written (trusted : List Text) : Exchange → List Value
  | request id method params => [requestOf id method params]
  | initialized => [AppServer.initialized]
  | answered _ => []
  | heard value | passed value => (reply? host trusted value).toList

end Exchange

/-- The requests of a conversation. -/
def requests (es : List Exchange) : List (ℕ × String × Items) := es.filterMap Exchange.request?

/-- The request that was made last, after one that may have been made before. -/
def awaiting (before : Option ℕ) (es : List Exchange) : Option ℕ :=
  ((requests es).getLast?.map Prod.fst).or before

/-- **The requests are numbered**, and what is taken for a response has the number of the last
of them. -/
def Orderly : ℕ → Option ℕ → List Exchange → Prop
  | _, _, [] => True
  | next, _, .request id _ _ :: es => id = next ∧ Orderly (next + 1) (some id) es
  | next, awaited, .answered value :: es =>
    (∃ id ∈ awaited, isResponse id value = true) ∧ Orderly next awaited es
  | next, awaited, _ :: es => Orderly next awaited es

/-- The states of the servers of tools after what was said of them. -/
def afterwards (states : Text × Text → Option Text) (said : List ((Text × Text) × Text)) :
    Text × Text → Option Text :=
  said.foldl (fun states a => Function.update states a.1 (some a.2)) states

/-- **A session consists of exchanges**, that follow a request. -/
structure Talked (awaited : Option ℕ) (es : List Exchange) (s t : Rpc) : Prop where
  incoming : s.incoming = es.filterMap Exchange.message? ++ t.incoming
  sent : t.sent = s.sent ++ es.flatMap (Exchange.written host s.trustedMcpServers)
  trusted : t.trustedMcpServers = s.trustedMcpServers
  states : t.mcpServerStates
    = afterwards s.mcpServerStates (es.filterMap (Exchange.announced? host))
  nextId : t.nextId = s.nextId + (requests es).length
  orderly : Orderly s.nextId awaited es

variable {host} {awaited : Option ℕ} {es es' : List Exchange} {s t u : Rpc}

/-! ## Exchanges one after the other -/

@[simp] theorem requests_append : requests (es ++ es') = requests es ++ requests es' :=
  List.filterMap_append

@[simp] theorem awaiting_nil (before : Option ℕ) : awaiting before [] = before := rfl

theorem awaiting_of_requests (h : requests es = []) : awaiting awaited es = awaited := by
  simp [awaiting, h]

theorem awaiting_cons_request {before : Option ℕ} {id : ℕ} {method : String} {params : Items} :
    awaiting before (.request id method params :: es) = awaiting (some id) es := by
  have hrequests : requests (.request id method params :: es)
      = (id, method, params) :: requests es := rfl
  rw [awaiting, awaiting, hrequests, List.getLast?_cons]
  cases (requests es).getLast? with
  | none => rfl
  | some r => rfl

theorem orderly_append : ∀ (es : List Exchange) (next : ℕ) (awaited : Option ℕ),
    Orderly next awaited (es ++ es') ↔ Orderly next awaited es ∧
      Orderly (next + (requests es).length) (awaiting awaited es) es'
  | [], _, _ => by simp [Orderly, requests]
  | .request id method params :: es, next, awaited => by
    have hlength : (requests (.request id method params :: es)).length
        = (requests es).length + 1 := rfl
    rw [List.cons_append, Orderly, Orderly, orderly_append es, awaiting_cons_request, hlength,
      and_assoc, Nat.add_right_comm, Nat.add_assoc]
  | .answered value :: es, next, awaited => by
    rw [List.cons_append, Orderly, Orderly, orderly_append es, and_assoc]
    rfl
  | .initialized :: es, next, awaited => orderly_append es next awaited
  | .heard value :: es, next, awaited => orderly_append es next awaited
  | .passed value :: es, next, awaited => orderly_append es next awaited

theorem Talked.refl (s : Rpc) : Talked host awaited [] s s :=
  ⟨rfl, (List.append_nil _).symm, rfl, rfl, rfl, trivial⟩

/-- **Sessions one after the other.** -/
theorem Talked.trans (h : Talked host awaited es s t)
    (h' : Talked host (awaiting awaited es) es' t u) : Talked host awaited (es ++ es') s u where
  incoming := by rw [h.incoming, h'.incoming, List.filterMap_append, List.append_assoc]
  sent := by rw [h'.sent, h.sent, h.trusted, List.flatMap_append, List.append_assoc]
  trusted := h'.trusted.trans h.trusted
  states := by
    rw [h'.states, h.states, List.filterMap_append, afterwards, afterwards, afterwards,
      List.foldl_append]
  nextId := by rw [h'.nextId, h.nextId, requests_append, List.length_append, Nat.add_assoc]
  orderly := (orderly_append es s.nextId awaited).mpr ⟨h.orderly, h.nextId ▸ h'.orderly⟩

/-- A session without a request follows another. -/
theorem Talked.snoc (h : Talked host awaited es s t) (hr : requests es = [])
    (h' : Talked host awaited es' t u) : Talked host awaited (es ++ es') s u :=
  h.trans (awaiting_of_requests hr ▸ h')

/-! ## Single exchanges -/

/-- The connection after a request of the server was answered. -/
def Rpc.replied (host : Host) (s : Rpc) (value : Items) : Rpc :=
  match reply? host s.trustedMcpServers value with
  | none => s
  | some m => { s with
    serverRequestMethods := s.serverRequestMethods ++ [textOf host value "method"]
    sent := s.sent ++ [m] }

/-- A message is taken. -/
def Rpc.pop (s : Rpc) : Rpc := { s with incoming := s.incoming.tail }

theorem replied_sent (value : Items) :
    (s.replied host value).sent
      = s.sent ++ (reply? host s.trustedMcpServers value).toList := by
  unfold Rpc.replied
  cases reply? host s.trustedMcpServers value <;> simp

/-- An answer changes nothing else. -/
theorem replied_eq (value : Items) :
    (s.replied host value).incoming = s.incoming ∧ (s.replied host value).nextId = s.nextId ∧
      (s.replied host value).trustedMcpServers = s.trustedMcpServers ∧
      (s.replied host value).mcpServerStates = s.mcpServerStates := by
  unfold Rpc.replied
  cases reply? host s.trustedMcpServers value <;> exact ⟨rfl, rfl, rfl, rfl⟩

/-- An announcement changes the states of the servers of tools only. -/
theorem observeNotification_eq (value : Items) :
    s.observeNotification host value = { s with
      mcpServerStates := afterwards s.mcpServerStates (announcement? host value).toList } := by
  unfold Rpc.observeNotification
  cases announcement? host value <;> rfl

theorem talked_request {method : String} {params : Items} :
    Talked host awaited [.request s.nextId method params] s
      { s with nextId := s.nextId + 1, sent := s.sent ++ [requestOf s.nextId method params] } :=
  ⟨rfl, rfl, rfl, rfl, rfl, rfl, trivial⟩

theorem talked_initialized :
    Talked host awaited [.initialized] s { s with sent := s.sent ++ [initialized] } :=
  ⟨rfl, rfl, rfl, rfl, rfl, trivial⟩

theorem talked_answered {value : Items} {rest : List Items} {id : ℕ}
    (hs : s.incoming = value :: rest) (h : isResponse id value = true) :
    Talked host (some id) [.answered value] s s.pop :=
  ⟨by simp [Rpc.pop, hs, Exchange.message?], by simp [Rpc.pop, Exchange.written], rfl, rfl, rfl,
    ⟨id, rfl, h⟩, trivial⟩

theorem talked_heard {value : Items} {rest : List Items} (hs : s.incoming = value :: rest) :
    Talked host awaited [.heard value] s
      ((s.pop.observeNotification host value).replied host value) := by
  obtain ⟨hincoming, hnext, htrusted, hstates⟩ :=
    @replied_eq host (s.pop.observeNotification host value) value
  have hobserved := @observeNotification_eq host s.pop value
  refine ⟨?_, ?_, ?_, ?_, ?_, trivial⟩
  · rw [hincoming, hobserved]
    simp [Rpc.pop, hs, Exchange.message?]
  · rw [replied_sent, hobserved]
    simp [Rpc.pop, Exchange.written]
  · rw [htrusted, hobserved]
    rfl
  · rw [hstates, hobserved]
    cases h : announcement? host value <;> simp [Rpc.pop, Exchange.announced?, h]
  · rw [hnext, hobserved]
    rfl

theorem talked_passed {value : Items} {rest : List Items} (hs : s.incoming = value :: rest) :
    Talked host awaited [.passed value] s (s.pop.replied host value) := by
  obtain ⟨hincoming, hnext, htrusted, hstates⟩ := @replied_eq host s.pop value
  refine ⟨?_, ?_, htrusted, hstates, hnext, trivial⟩
  · rw [hincoming]
    simp [Rpc.pop, hs, Exchange.message?]
  · rw [replied_sent]
    simp [Rpc.pop, Exchange.written]

/-! ## The sessions of a connection -/

theorem wp_send (m : Value) {Q : PUnit → Rpc → Prop} {E : Failure → Rpc → Prop}
    (hQ : Q ⟨⟩ { s with sent := s.sent ++ [m] })
    (hE : ∀ e, E e { s with sent := s.sent ++ [m] }) : Session.wp (send host m) Q E s := by
  unfold send
  simp only [Session.wp_bind, Session.wp_get, Session.wp_modify]
  cases host.unwritten s.sent m with
  | none => exact hQ
  | some failure => exact hE failure

/-- **A request of the server is answered.** -/
theorem wp_handleServerRequest (value : Items) {Q : Bool → Rpc → Prop}
    {E : Failure → Rpc → Prop}
    (hQ : Q (serverRequest? host value).isSome (s.replied host value))
    (hE : ∀ e, E e (s.replied host value)) :
    Session.wp (handleServerRequest host value) Q E s := by
  unfold handleServerRequest
  unfold Rpc.replied reply? at hQ hE
  cases h : serverRequest? host value with
  | none =>
    rw [h] at hQ
    exact hQ
  | some id =>
    rw [h] at hQ hE
    simp only [Session.wp_bind, Session.wp_get, Session.wp_modify]
    exact wp_send _ hQ hE

/-- There is no answer when reading ends. -/
theorem wp_ended {α : Type} {timedOut : Rpc → Text} {Q : α → Rpc → Prop}
    {E : Failure → Rpc → Prop} (hE : ∀ e, E e s) : Session.wp (ended host timedOut) Q E s := by
  unfold ended
  cases host.unread with
  | timeout => exact hE _
  | failed failure => exact hE failure

/-- A session in which nothing is asked. -/
def Listened (host : Host) (awaited : Option ℕ) (s t : Rpc) : Prop :=
  ∃ es, Talked host awaited es s t ∧ requests es = []

theorem Listened.refl (s : Rpc) : Listened host awaited s s := ⟨[], .refl s, rfl⟩

/-- Something is exchanged after a session. -/
theorem Listened.snoc {e : Exchange} (h : Listened host awaited s t) (hr : requests [e] = [])
    (he : Talked host awaited [e] t u) : Listened host awaited s u := by
  obtain ⟨es, htalked, hrequests⟩ := h
  exact ⟨es ++ [e], htalked.snoc hrequests he, by rw [requests_append, hrequests, hr]; rfl⟩

theorem head_eq {value : Items} (h : s.incoming.head? = some value) :
    s.incoming = value :: s.incoming.tail := (List.cons_head?_tail h).symm

/-- **A message is heard.** -/
theorem Listened.heard {value : Items} (h : Listened host awaited s t)
    (hs : t.incoming.head? = some value) :
    Listened host awaited s ((t.pop.observeNotification host value).replied host value) :=
  h.snoc rfl (talked_heard (head_eq hs))

/-- What is heard is taken from what comes. -/
theorem incoming_heard (value : Items) :
    ((s.pop.observeNotification host value).replied host value).incoming = s.incoming.tail := by
  rw [(replied_eq value).1, observeNotification_eq]
  rfl

/-- **`read_until_response`** hears what comes before the response. -/
theorem wp_readUntilResponse (id : ℕ) (timeoutError : Option Text) :
    Session.wp (readUntilResponse host id timeoutError)
      (fun _ t => Listened host (some id) s t) (fun _ t => Listened host (some id) s t) s := by
  refine Session.wp_receive (Listened host (some id) s) ?_ (fun t ht => wp_ended fun _ => ht)
    (.refl s)
  intro value t ht hvalue
  split
  · next h =>
    have hanswered : Listened host (some id) s t.pop :=
      ht.snoc rfl (talked_answered (head_eq hvalue) h)
    rw [Session.wp_bind]
    exact Session.wp_ofExcept (fun _ _ => ⟨fun _ _ => hanswered, by simp⟩) fun _ _ => hanswered
  · simp only [Session.wp_bind, Session.wp_modify]
    refine wp_handleServerRequest value ⟨by simp, fun _ => ?_⟩ fun _ => ht.heard hvalue
    exact ⟨ht.heard hvalue, incoming_heard value⟩

/-- What `begin` writes. -/
theorem wp_begin (method : String) (params : Items) {Q : ℕ → Rpc → Prop}
    {E : Failure → Rpc → Prop}
    (hQ : Q s.nextId { s with
      nextId := s.nextId + 1, sent := s.sent ++ [requestOf s.nextId method params] })
    (hE : ∀ e, E e { s with
      nextId := s.nextId + 1, sent := s.sent ++ [requestOf s.nextId method params] }) :
    Session.wp (begin host method params) Q E s := by
  unfold begin
  simp only [Session.wp_bind, Session.wp_get, Session.wp_modify, Session.wp_pure]
  exact wp_send _ hQ hE

/-- A session in which one thing is asked. -/
def Asked (host : Host) (awaited : Option ℕ) (method : String) (params : Items) (s t : Rpc) :
    Prop :=
  ∃ es, Talked host awaited es s t ∧ requests es = [(s.nextId, method, params)]

/-- **`request`** asks once. -/
theorem wp_request (awaited : Option ℕ) (method : String) (params : Items)
    (timeoutError : Option Text) :
    Session.wp (request host method params timeoutError)
      (fun _ t => Asked host awaited method params s t)
      (fun _ t => Asked host awaited method params s t) s := by
  have hasked : ∀ t, Listened host (some s.nextId) { s with
      nextId := s.nextId + 1, sent := s.sent ++ [requestOf s.nextId method params] } t →
      Asked host awaited method params s t := by
    rintro t ⟨es, htalked, hrequests⟩
    exact ⟨_, talked_request.trans htalked, by rw [requests_append, hrequests]; rfl⟩
  unfold request
  rw [Session.wp_bind]
  refine wp_begin method params ?_ fun _ => hasked _ (.refl _)
  exact Session.wp_mono (wp_readUntilResponse s.nextId timeoutError) (fun _ => hasked)
    fun _ => hasked

/-- **`wait_for_mcp_server_ready`** comes back when the server is ready. -/
theorem wp_waitForMcpServerReady (awaited : Option ℕ) (name threadId : Text) :
    Session.wp (waitForMcpServerReady host name threadId)
      (fun _ t => Listened host awaited s t ∧ t.ready name threadId = true)
      (fun _ t => Listened host awaited s t) s := by
  unfold waitForMcpServerReady
  rw [Session.wp_bind, Session.wp_get]
  split
  · next h => exact ⟨.refl s, h⟩
  refine Session.wp_receive (Listened host awaited s) ?_ (fun t ht => wp_ended fun _ => ht)
    (.refl s)
  intro value t ht hvalue
  simp only [Session.wp_bind, Session.wp_modify]
  refine wp_handleServerRequest value ?_ fun _ => ht.heard hvalue
  rw [Session.wp_get, Session.wp_pure]
  split
  · next h => exact ⟨fun _ _ => ⟨ht.heard hvalue, h⟩, by simp⟩
  · exact ⟨by simp, fun _ => ⟨ht.heard hvalue, incoming_heard value⟩⟩

/-! ## What was said last -/

/-- What was said last of a server of tools. -/
def lastSaid (said : List ((Text × Text) × Text)) (key : Text × Text) : Option Text :=
  (said.filter fun a => a.1 = key).getLast?.map Prod.snd

/-- **The state of a server is what was said last of it.** -/
theorem afterwards_apply (key : Text × Text) (said : List ((Text × Text) × Text)) :
    ∀ states, afterwards states said key = (lastSaid said key).or (states key) := by
  induction said with
  | nil => exact fun _ => rfl
  | cons a said ih =>
    intro states
    show afterwards (Function.update states a.1 (some a.2)) said key = _
    rw [ih, lastSaid, lastSaid, List.filter_cons, Function.update_apply]
    by_cases h : a.1 = key
    · rw [if_pos h.symm, if_pos (decide_eq_true h), List.getLast?_cons]
      cases (said.filter fun a => a.1 = key).getLast? <;> rfl
    · rw [if_neg (Ne.symm h), if_neg (by simpa using h)]

end AppServer
