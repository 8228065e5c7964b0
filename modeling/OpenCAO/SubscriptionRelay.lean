import OpenCAO.CursorCodec
import OpenCAO.ServerSentEvents

/-!
# A subscription, from the service to the standard streams

A client of the standard streams that subscribes to resources has a bridge between itself and
the service. The service acknowledges the subscription and tells of each resource whose
revision changed (`subscription_messages`); the messages go through a stream of server-sent
events; and the bridge writes them to the client as they come
(`_relay_proxy_subscription`). The stream can end at any point, with an exception or without
one.

The client is told of the end exactly once, whatever the stream has in it: the last message
that the bridge writes ends the subscription, and none before it does; and unless it is an
error, the first one is the acknowledgment (`relay_discipline`). Of an honest service it gets
every message that arrived, and then the end (`subscription_arrives`).

A method that is a list or an object is not a member of a set, and asking is a `TypeError`; the
bridge treats this as it treats a message that does not match.
-/

namespace ServerSentEvents

open PyJson

/-- **An identifier of a request**, as `is_valid_mcp_request_id` admits it. -/
inductive RequestId where
  | int (n : ℤ)
  | str (t : Text)
  deriving DecidableEq

namespace RequestId

/-- The identifier as JSON. -/
def toValue : RequestId → Value
  | int n => .int n
  | str t => .str t

/-- `value == request_id`, where the truth values and the floats are numbers. -/
def same (id : RequestId) : Option Value → Bool
  | some (.int m) => match id with
    | int n => m == n
    | str _ => false
  | some (.bool b) => match id with
    | int n => (if b then 1 else 0) == n
    | str _ => false
  | some (.float (.finite negative m)) => match id with
    | int n => (if negative then -m else m) == n
    | str _ => false
  | some (.str t) => match id with
    | int _ => false
    | str u => t == u
  | _ => false

theorem same_toValue (id : RequestId) : id.same (some id.toValue) = true := by
  cases id <;> simp [same, toValue]

end RequestId

/-- `get` of a mapping; anything else has no items here. -/
def get (name : String) : Value → Option Value
  | .dict items => CursorCodec.lookup items (Text.ofString name)
  | _ => none

/-- An item of a mapping. -/
def item (name : String) (v : Value) : Text × Value := (Text.ofString name, v)

/-- A string. -/
def string (s : String) : Value := .str (Text.ofString s)

/-- `SUBSCRIPTION_ID_META_KEY`. -/
def subscriptionIdMetaKey : String := "io.modelcontextprotocol/subscriptionId"

/-- `SERVER_INFO_META_KEY`. -/
def serverInfoMetaKey : String := "io.modelcontextprotocol/serverInfo"

/-! ## The service -/

/-- **`_subscription_cancelled_notification`.** -/
def cancelledNotification (id : RequestId) (reason : String) : Value :=
  .dict [item "jsonrpc" (string "2.0"), item "method" (string "notifications/cancelled"),
    item "params" (.dict [item "requestId" id.toValue, item "reason" (string reason)])]

/-- **A subscription that was admitted**: the resources it honors, their revisions at its
beginning, and what the service says of itself. -/
structure Subscription where
  requestId : RequestId
  resources : List Text
  revisions : Text → Text
  serverInfo : Value

/-- What a look at the resources finds. -/
inductive Poll where
  /-- The revisions, and whether a sign of life is due. -/
  | scan (revision : Text → Text) (heartbeat : Bool)
  /-- An exception, behind the first so many resources. -/
  | failed (revision : Text → Text) (behind : ℕ)

namespace Subscription

variable (s : Subscription)

/-- `meta`. -/
def metadata : Value := .dict [item subscriptionIdMetaKey s.requestId.toValue]

/-- The honored filter. -/
def honored : Value :=
  .dict (if s.resources = [] then []
    else [item "resourceSubscriptions" (.list (s.resources.map .str))])

/-- The first message. -/
def acknowledgment : Value :=
  .dict [item "jsonrpc" (string "2.0"),
    item "method" (string "notifications/subscriptions/acknowledged"),
    item "params" (.dict [item "_meta" s.metadata, item "notifications" s.honored])]

/-- A resource has another revision. -/
def updated (uri : Text) : Value :=
  .dict [item "jsonrpc" (string "2.0"), item "method" (string "notifications/resources/updated"),
    item "params" (.dict [item "_meta" s.metadata, item "uri" (.str uri)])]

/-- The result of a subscription to nothing. -/
def result : Value :=
  .dict [item "jsonrpc" (string "2.0"), item "id" s.requestId.toValue,
    item "result" (.dict [item "resultType" (string "complete"),
      item "_meta" (.dict [item serverInfoMetaKey s.serverInfo,
        item subscriptionIdMetaKey s.requestId.toValue])])]

/-- The updates of some resources. -/
def updates (told revision : Text → Text) (uris : List Text) : List (Option Value) :=
  (uris.filter fun uri => revision uri ≠ told uri).map fun uri => some (s.updated uri)

/-- The loop, as far as it got. -/
def follow (told : Text → Text) : List Poll → List (Option Value)
  | [] => []
  | .scan revision heartbeat :: polls =>
    s.updates told revision s.resources ++ (if heartbeat then [none] else []) ++
      follow revision polls
  | .failed revision behind :: _ =>
    s.updates told revision (s.resources.take behind) ++
      [some (cancelledNotification s.requestId "Subscription stream failed")]

/-- **`subscription_messages`** of a request that is valid. -/
def messages (polls : List Poll) : List (Option Value) :=
  some s.acknowledgment ::
    if s.resources = [] then [some s.result] else s.follow s.revisions polls

end Subscription

/-! ## The bridge -/

/-- **`_subscription_message_matches`.** -/
def subscriptionMessageMatches (id : RequestId) (message : Value) : Bool :=
  match get "jsonrpc" message with
  | some (.str version) =>
    if version ≠ Text.ofString "2.0" then false
    else if id.same (get "id" message) then
      (get "result" message).isSome != (get "error" message).isSome
    else
      match get "method" message with
      | some (.str method) =>
        if method = Text.ofString "notifications/cancelled" then
          id.same ((get "params" message).bind (get "requestId"))
        else if method ∈ ["notifications/subscriptions/acknowledged",
            "notifications/tools/list_changed", "notifications/prompts/list_changed",
            "notifications/resources/list_changed", "notifications/resources/updated"].map
              Text.ofString then
          id.same (((get "params" message).bind (get "_meta")).bind (get subscriptionIdMetaKey))
        else false
      | _ => false
  | _ => false

/-- The method of a message. -/
def hasMethod (name : String) (message : Value) : Bool :=
  match get "method" message with
  | some (.str method) => method = Text.ofString name
  | _ => false

/-- **`_pending_bridge_error`** of a modern request. -/
def pendingBridgeError (serverInfo : Value) (id : RequestId) (message : String) : Value :=
  .dict [item "jsonrpc" (string "2.0"),
    item "error" (.dict [item "code" (.int (-32603)), item "message" (string message),
      item "data" (.dict [item "_meta" (.dict [item serverInfoMetaKey serverInfo])])]),
    item "id" id.toValue]

/-- What is written when an exception is caught. -/
def onFailure (serverInfo : Value) (id : RequestId) (acknowledged : Bool) : List Value :=
  if acknowledged then [cancelledNotification id "MCP subscription stream failed"]
  else [pendingBridgeError serverInfo id "MCP subscription stream failed"]

/-- **The loop of `_relay_proxy_subscription`**: what it writes. The stream fails behind the
messages, or ends. -/
def relayFrom (serverInfo : Value) (id : RequestId) (failed : Bool) : Bool → List Value → List Value
  | acknowledged, [] =>
    if !failed && acknowledged then
      [cancelledNotification id "MCP subscription stream ended unexpectedly"]
    else onFailure serverInfo id acknowledged
  | acknowledged, message :: messages =>
    if !subscriptionMessageMatches id message then onFailure serverInfo id acknowledged
    else if !acknowledged && !hasMethod "notifications/subscriptions/acknowledged" message then
      onFailure serverInfo id acknowledged
    else if hasMethod "notifications/cancelled" message || id.same (get "id" message) then [message]
    else message :: relayFrom serverInfo id failed true messages

/-- **`_relay_proxy_subscription`** of a response that is a stream of events. -/
def relayProxySubscription (serverInfo : Value) (id : RequestId) (messages : List Value)
    (failed : Bool) : List Value := relayFrom serverInfo id failed false messages

/-- **A message ends a subscription.** -/
def ends (id : RequestId) (message : Value) : Bool :=
  hasMethod "notifications/cancelled" message || id.same (get "id" message)

/-! ## One end -/

theorem ends_cancelledNotification (id : RequestId) (reason : String) :
    ends id (cancelledNotification id reason) = true := rfl

theorem ends_pendingBridgeError (serverInfo : Value) (id : RequestId) (message : String) :
    ends id (pendingBridgeError serverInfo id message) = true := by
  show (_ || id.same (some id.toValue)) = true
  rw [id.same_toValue, Bool.or_true]

theorem onFailure_ends (serverInfo : Value) (id : RequestId) (acknowledged : Bool) :
    ∃ last, onFailure serverInfo id acknowledged = [last] ∧ ends id last = true := by
  cases acknowledged
  · exact ⟨_, rfl, ends_pendingBridgeError serverInfo id _⟩
  · exact ⟨_, rfl, ends_cancelledNotification id _⟩

/-- **What the loop writes ends with the only message that ends the subscription.** -/
theorem relayFrom_ends (serverInfo : Value) (id : RequestId) (failed acknowledged : Bool)
    (messages : List Value) :
    ∃ front last, relayFrom serverInfo id failed acknowledged messages = front ++ [last] ∧
      ends id last = true ∧
      (∀ m ∈ front, subscriptionMessageMatches id m = true ∧ ends id m = false) ∧
      (acknowledged = false → ∀ m ∈ front.head?,
        hasMethod "notifications/subscriptions/acknowledged" m = true) := by
  have hfailure : ∀ acknowledged, ∃ front last,
      onFailure serverInfo id acknowledged = front ++ [last] ∧ ends id last = true ∧
      (∀ m ∈ front, subscriptionMessageMatches id m = true ∧ ends id m = false) ∧
      (acknowledged = false → ∀ m ∈ front.head?,
        hasMethod "notifications/subscriptions/acknowledged" m = true) := by
    intro acknowledged
    obtain ⟨last, hlast, hends⟩ := onFailure_ends serverInfo id acknowledged
    exact ⟨[], last, hlast, hends, by simp, by simp⟩
  induction messages generalizing acknowledged with
  | nil =>
    rw [relayFrom]
    split_ifs
    · exact ⟨[], _, rfl, ends_cancelledNotification id _, by simp, by simp⟩
    · exact hfailure acknowledged
  | cons message messages ih =>
    rw [relayFrom]
    split_ifs with hmatches hfirst hends
    · exact hfailure acknowledged
    · exact hfailure acknowledged
    · exact ⟨[], message, rfl, hends, by simp, by simp⟩
    · obtain ⟨front, last, hwritten, hlast, hfront, -⟩ := ih true
      refine ⟨message :: front, last, by rw [hwritten]; rfl, hlast, ?_, ?_⟩
      · refine List.forall_mem_cons.mpr ⟨⟨by simpa using hmatches, ?_⟩, hfront⟩
        exact Bool.eq_false_iff.mpr hends
      · rintro rfl m ⟨rfl⟩
        simpa using hfirst

/-- **A subscription ends exactly once.** Whatever the stream of a response has in it, the bridge
writes a message that ends the subscription, as the last one and nowhere else; all before it
are of the subscription, and the first of them is its acknowledgment. -/
theorem relay_discipline (serverInfo : Value) (id : RequestId) (messages : List Value)
    (failed : Bool) :
    ∃ front last, relayProxySubscription serverInfo id messages failed = front ++ [last] ∧
      ends id last = true ∧
      (∀ m ∈ front, subscriptionMessageMatches id m = true ∧ ends id m = false) ∧
      ∀ m ∈ front.head?, hasMethod "notifications/subscriptions/acknowledged" m = true := by
  obtain ⟨front, last, hwritten, hlast, hfront, hfirst⟩ :=
    relayFrom_ends serverInfo id failed false messages
  exact ⟨front, last, hwritten, hlast, hfront, hfirst rfl⟩

/-! ## An honest service -/

variable {repr : PyFloat → Text} {limit : ℕ} {s : Subscription} {polls : List Poll}

/-- **What a subscription consists of goes through the stream**: it can be written, is not nested
too deep, and has none of the line breaks that tear a string apart. -/
structure Subscription.Fine (repr : PyFloat → Text) (limit : ℕ) (s : Subscription) : Prop where
  id : Writable repr s.requestId.toValue ∧ clean s.requestId.toValue = true
  resources : ∀ uri ∈ s.resources, clean (.str uri) = true
  info : Writable repr s.serverInfo ∧ clean s.serverInfo = true
  depth : PyJson.depth s.serverInfo + 3 ≤ limit
  enough : 4 ≤ limit

theorem depth_toValue (id : RequestId) : PyJson.depth id.toValue = 0 := by cases id <;> rfl

theorem clean_iff {v : Value} :
    clean v = true ↔ ∀ t ∈ strings v, t.all (fun c => !isSeparator c) = true := List.all_eq_true

/-- A mapping goes through if its keys and its values do. -/
theorem clean_dict {items : List (Text × Value)} :
    clean (.dict items) = true ↔
      ∀ m ∈ items, clean (.str m.1) = true ∧ clean m.2 = true := by
  rw [clean_iff, strings, forall_mem_itemStrings]
  refine forall₂_congr fun m _ => ?_
  rw [clean_iff, clean_iff, strings]
  simp

theorem clean_list {xs : List Value} :
    clean (.list xs) = true ↔ ∀ x ∈ xs, clean x = true := by
  rw [clean_iff, strings, forall_mem_elementStrings]
  exact forall₂_congr fun x _ => clean_iff.symm

/-- What the loop says: updates of resources, and at most one message that it failed. -/
theorem follow_shape (s : Subscription) (told : Text → Text) (polls : List Poll) :
    ∃ (uris : List Text) (ends : List Value), (∀ uri ∈ uris, uri ∈ s.resources) ∧
      (s.follow told polls).filterMap id = uris.map s.updated ++ ends ∧
      (ends = [] ∨ ends = [cancelledNotification s.requestId "Subscription stream failed"]) := by
  have hupdates : ∀ told revision uris, (s.updates told revision uris).filterMap id
      = (uris.filter fun uri => revision uri ≠ told uri).map s.updated := by
    intro told revision uris
    rw [Subscription.updates, List.filterMap_map]
    exact congrFun List.filterMap_eq_map _
  induction polls generalizing told with
  | nil => exact ⟨[], [], by simp, rfl, Or.inl rfl⟩
  | cons poll polls ih =>
    cases poll with
    | scan revision heartbeat =>
      obtain ⟨uris, ends, huris, hshape, hends⟩ := ih revision
      refine ⟨(s.resources.filter fun uri => revision uri ≠ told uri) ++ uris, ends, ?_, ?_, hends⟩
      · rintro uri huri
        exact (List.mem_append.mp huri).elim (fun h => List.mem_of_mem_filter h) (huris uri)
      · have hquiet : (if heartbeat then [none] else [] : List (Option Value)).filterMap id = [] := by
          cases heartbeat <;> rfl
        rw [Subscription.follow, List.filterMap_append, List.filterMap_append, hupdates, hquiet,
          hshape, List.append_nil, List.map_append, List.append_assoc]
    | failed revision behind =>
      refine ⟨(s.resources.take behind).filter fun uri => revision uri ≠ told uri, _, ?_, ?_,
        Or.inr rfl⟩
      · exact fun uri huri => List.mem_of_mem_take (List.mem_of_mem_filter huri)
      · rw [Subscription.follow, List.filterMap_append, hupdates]
        rfl

/-- **What the service says**: the acknowledgment, and then the result, or updates and at most one
message that it failed. -/
theorem messages_shape (s : Subscription) (polls : List Poll) :
    (s.resources = [] ∧ (s.messages polls).filterMap id = [s.acknowledgment, s.result]) ∨
    (s.resources ≠ [] ∧ ∃ (uris : List Text) (ends : List Value), (∀ uri ∈ uris, uri ∈ s.resources) ∧
      (s.messages polls).filterMap id = s.acknowledgment :: (uris.map s.updated ++ ends) ∧
      (ends = [] ∨ ends = [cancelledNotification s.requestId "Subscription stream failed"])) := by
  unfold Subscription.messages
  by_cases hresources : s.resources = []
  · rw [if_pos hresources]
    exact Or.inl ⟨hresources, rfl⟩
  · rw [if_neg hresources]
    obtain ⟨uris, ends, huris, hshape, hends⟩ := follow_shape s s.revisions polls
    refine Or.inr ⟨hresources, uris, ends, huris, ?_, hends⟩
    rw [← hshape]
    rfl

/-- **Every message of the service goes through the stream.** -/
theorem message_of_fine (h : s.Fine repr limit) {v : Value}
    (hv : some v ∈ s.messages polls) : Message repr limit v ∧ clean v = true := by
  have hid := depth_toValue s.requestId
  have hdepth := h.depth
  have henough := h.enough
  have hcancelled : ∀ reason, clean (string reason) = true →
      Message repr limit (cancelledNotification s.requestId reason) ∧
        clean (cancelledNotification s.requestId reason) = true := by
    intro reason hreason
    refine ⟨⟨⟨_, rfl⟩, ?_, ?_⟩, ?_⟩
    · simp [cancelledNotification, item, string, Writable, WritableItems, h.id.1]
    · simp [cancelledNotification, item, string, PyJson.depth, depthItems, hid]
      omega
    · simp only [cancelledNotification, item, clean_dict, List.forall_mem_cons, List.not_mem_nil,
        false_implies, implies_true, and_true, h.id.2, hreason]
      decide
  have hupdated : ∀ uri ∈ s.resources,
      Message repr limit (s.updated uri) ∧ clean (s.updated uri) = true := by
    intro uri huri
    refine ⟨⟨⟨_, rfl⟩, ?_, ?_⟩, ?_⟩
    · simp [Subscription.updated, Subscription.metadata, item, string, Writable, WritableItems,
        h.id.1]
    · simp [Subscription.updated, Subscription.metadata, item, string, PyJson.depth, depthItems, hid]
      omega
    · simp only [Subscription.updated, Subscription.metadata, item, clean_dict,
        List.forall_mem_cons, List.not_mem_nil, false_implies, implies_true, and_true, h.id.2,
        h.resources uri huri]
      decide
  have hacknowledgment : Message repr limit s.acknowledgment ∧ clean s.acknowledgment = true := by
    have hlist : clean (.list (s.resources.map .str)) = true := by
      rw [clean_list]
      intro x hx
      obtain ⟨uri, huri, rfl⟩ := List.mem_map.mp hx
      exact h.resources uri huri
    have hstrings : WritableElements repr (s.resources.map .str) ∧
        depthElements (s.resources.map .str) = 0 := by
      induction s.resources with
      | nil => exact ⟨trivial, rfl⟩
      | cons uri uris ih => exact ⟨⟨trivial, ih.1⟩, (Nat.max_eq_right (Nat.zero_le _)).trans ih.2⟩
    have hhonored : Writable repr s.honored ∧ PyJson.depth s.honored ≤ 2 ∧
        clean s.honored = true := by
      unfold Subscription.honored
      split_ifs
      · exact ⟨trivial, by decide, by decide⟩
      · refine ⟨⟨hstrings.1, trivial⟩, ?_, ?_⟩
        · simp [item, PyJson.depth, depthItems, hstrings.2]
        · simp only [item, clean_dict, List.forall_mem_cons, List.not_mem_nil, false_implies,
            implies_true, and_true, hlist]
          decide
    refine ⟨⟨⟨_, rfl⟩, ?_, ?_⟩, ?_⟩
    · simp [Subscription.acknowledgment, Subscription.metadata, item, string, Writable,
        WritableItems, h.id.1, hhonored.1]
    · simp [Subscription.acknowledgment, Subscription.metadata, item, string, PyJson.depth,
        depthItems, hid]
      omega
    · simp only [Subscription.acknowledgment, Subscription.metadata, item, clean_dict,
        List.forall_mem_cons, List.not_mem_nil, false_implies, implies_true, and_true, h.id.2,
        hhonored.2.2]
      decide
  have hresult : Message repr limit s.result ∧ clean s.result = true := by
    refine ⟨⟨⟨_, rfl⟩, ?_, ?_⟩, ?_⟩
    · simp [Subscription.result, item, string, Writable, WritableItems, h.id.1, h.info.1]
    · simp [Subscription.result, item, string, PyJson.depth, depthItems, hid]
      omega
    · simp only [Subscription.result, item, clean_dict, List.forall_mem_cons, List.not_mem_nil,
        false_implies, implies_true, and_true, h.id.2, h.info.2]
      decide
  have hv : v ∈ (s.messages polls).filterMap id := List.mem_filterMap.mpr ⟨some v, hv, rfl⟩
  rcases messages_shape s polls with ⟨-, hshape⟩ | ⟨-, uris, ends, huris, hshape, hends⟩
  · rw [hshape] at hv
    rcases List.mem_cons.mp hv with rfl | hv
    · exact hacknowledgment
    · exact List.mem_singleton.mp hv ▸ hresult
  · rw [hshape] at hv
    rcases List.mem_cons.mp hv with rfl | hv
    · exact hacknowledgment
    · rcases List.mem_append.mp hv with hv | hv
      · obtain ⟨uri, huri, rfl⟩ := List.mem_map.mp hv
        exact hupdated uri (huris uri huri)
      · rcases hends with rfl | rfl
        · exact absurd hv List.not_mem_nil
        · exact List.mem_singleton.mp hv ▸ hcancelled _ (by decide)

/-! ## From one end to the other -/

/-- **Messages of one subscription**, of which only the last may end it. -/
structure Honest (id : RequestId) (messages : List Value) : Prop where
  matched : ∀ m ∈ messages, subscriptionMessageMatches id m = true
  ends : messages.Pairwise fun m _ => ServerSentEvents.ends id m = false

theorem same_none (id : RequestId) : id.same none = false := by cases id <;> rfl

/-- A notification of the subscription. -/
theorem matches_notification {id : RequestId} {m : Value} {method : Text}
    (hversion : get "jsonrpc" m = some (string "2.0")) (hid : get "id" m = none)
    (hmethod : get "method" m = some (.str method))
    (hknown : method = Text.ofString "notifications/subscriptions/acknowledged" ∨
      method = Text.ofString "notifications/resources/updated")
    (hmeta : ((get "params" m).bind (get "_meta")).bind (get subscriptionIdMetaKey)
      = some id.toValue) :
    subscriptionMessageMatches id m = true ∧ ends id m = false := by
  have hother : method ≠ Text.ofString "notifications/cancelled" := by
    rcases hknown with rfl | rfl <;> decide
  have hmember : method ∈ ["notifications/subscriptions/acknowledged",
      "notifications/tools/list_changed", "notifications/prompts/list_changed",
      "notifications/resources/list_changed", "notifications/resources/updated"].map
        Text.ofString := by
    rcases hknown with rfl | rfl <;> decide
  constructor
  · rw [subscriptionMessageMatches, hversion, hid, hmethod, hmeta, string]
    dsimp only
    rw [if_neg (by simp), same_none, if_neg (by simp), if_neg hother, if_pos hmember,
      id.same_toValue]
  · rw [ends, hasMethod, hmethod, hid, same_none, Bool.or_false]
    exact decide_eq_false hother

theorem matches_acknowledgment (s : Subscription) :
    subscriptionMessageMatches s.requestId s.acknowledgment = true ∧
      ends s.requestId s.acknowledgment = false :=
  matches_notification rfl rfl rfl (Or.inl rfl) rfl

theorem matches_updated (s : Subscription) (uri : Text) :
    subscriptionMessageMatches s.requestId (s.updated uri) = true ∧
      ends s.requestId (s.updated uri) = false :=
  matches_notification rfl rfl rfl (Or.inr rfl) rfl

theorem matches_cancelled (id : RequestId) (reason : String) :
    subscriptionMessageMatches id (cancelledNotification id reason) = true := by
  have hversion : get "jsonrpc" (cancelledNotification id reason) = some (string "2.0") := rfl
  have hid : get "id" (cancelledNotification id reason) = none := rfl
  have hmethod : get "method" (cancelledNotification id reason)
      = some (string "notifications/cancelled") := rfl
  have hparams : (get "params" (cancelledNotification id reason)).bind (get "requestId")
      = some id.toValue := rfl
  rw [subscriptionMessageMatches, hversion, hid, hmethod, hparams, string, string]
  dsimp only
  rw [if_neg (by simp), same_none, if_neg (by simp), if_pos rfl, id.same_toValue]

theorem matches_result (s : Subscription) :
    subscriptionMessageMatches s.requestId s.result = true := by
  have hversion : get "jsonrpc" s.result = some (string "2.0") := rfl
  have hid : get "id" s.result = some s.requestId.toValue := rfl
  rw [subscriptionMessageMatches, hversion, hid, string]
  dsimp only
  rw [if_neg (by simp), s.requestId.same_toValue, if_pos rfl]
  rfl

/-- **The service is honest.** -/
theorem honest_messages (s : Subscription) (polls : List Poll) :
    Honest s.requestId ((s.messages polls).filterMap id) := by
  have hack := matches_acknowledgment s
  rcases messages_shape s polls with ⟨-, hshape⟩ | ⟨-, uris, ends, -, hshape, hends⟩
  · rw [hshape]
    refine ⟨?_, List.pairwise_pair.mpr hack.2⟩
    exact List.forall_mem_cons.mpr ⟨hack.1, List.forall_mem_cons.mpr ⟨matches_result s, by simp⟩⟩
  · have hupdates : ∀ m ∈ uris.map s.updated, subscriptionMessageMatches s.requestId m = true ∧
        ServerSentEvents.ends s.requestId m = false := by
      intro m hm
      obtain ⟨uri, -, rfl⟩ := List.mem_map.mp hm
      exact matches_updated s uri
    rw [hshape]
    refine ⟨List.forall_mem_cons.mpr ⟨hack.1, List.forall_mem_append.mpr ⟨?_, ?_⟩⟩,
      List.pairwise_cons.mpr ⟨fun _ _ => hack.2, List.pairwise_append.mpr ⟨?_, ?_, ?_⟩⟩⟩
    · exact fun m hm => (hupdates m hm).1
    · rcases hends with rfl | rfl
      · simp
      · simpa using matches_cancelled s.requestId _
    · exact List.pairwise_of_forall_mem_list fun m hm _ _ => (hupdates m hm).2
    · rcases hends with rfl | rfl <;> simp
    · exact fun m hm _ _ => (hupdates m hm).2

/-- A part of it is honest as well. -/
theorem Honest.sublist {id : RequestId} {ms ns : List Value} (h : Honest id ns)
    (hsub : ms.Sublist ns) : Honest id ms :=
  ⟨fun m hm => h.matched m (hsub.subset hm), h.ends.sublist hsub⟩

/-- **What the client gets of an honest service**: all that arrived, and the end if it was not
among it. -/
def delivered (serverInfo : Value) (id : RequestId) (failed : Bool) (messages : List Value) :
    List Value :=
  if messages = [] then [pendingBridgeError serverInfo id "MCP subscription stream failed"]
  else if messages.getLast?.any (ends id) then messages
  else messages ++ [cancelledNotification id
    (if failed then "MCP subscription stream failed"
      else "MCP subscription stream ended unexpectedly")]

theorem relayFrom_honest (serverInfo : Value) {id : RequestId} (failed : Bool)
    {messages : List Value} (h : Honest id messages) :
    relayFrom serverInfo id failed true messages =
      if messages.getLast?.any (ends id) then messages
      else messages ++ [cancelledNotification id
        (if failed then "MCP subscription stream failed"
          else "MCP subscription stream ended unexpectedly")] := by
  induction messages with
  | nil => cases failed <;> rfl
  | cons m ms ih =>
    have hm := h.matched m List.mem_cons_self
    have hlast := (List.pairwise_cons.mp h.ends).1
    have ih := ih (h.sublist (List.sublist_cons_self m ms))
    have hstep : relayFrom serverInfo id failed true (m :: ms)
        = if ends id m then [m] else m :: relayFrom serverInfo id failed true ms := by
      rw [relayFrom, hm]
      rfl
    rw [hstep]
    cases ms with
    | nil =>
      rw [ih]
      cases hends : ends id m <;> simp [hends]
    | cons n ns =>
      rw [hlast n List.mem_cons_self, if_neg (by simp), ih, List.getLast?_cons_cons]
      split_ifs <;> rfl

theorem relay_honest (serverInfo : Value) {id : RequestId} (failed : Bool) {messages : List Value}
    (h : Honest id messages) (hfirst : ∀ m ∈ messages.head?,
      hasMethod "notifications/subscriptions/acknowledged" m = true) :
    relayProxySubscription serverInfo id messages failed
      = delivered serverInfo id failed messages := by
  cases messages with
  | nil => cases failed <;> rfl
  | cons m ms =>
    have hm := h.matched m List.mem_cons_self
    have hsame : relayProxySubscription serverInfo id (m :: ms) failed
        = relayFrom serverInfo id failed true (m :: ms) := by
      rw [relayProxySubscription, relayFrom, relayFrom, hm, hfirst m rfl]
      rfl
    rw [hsame, relayFrom_honest serverInfo failed h, delivered, if_neg (List.cons_ne_nil m ms)]

/-- The first pieces of a stream are those of its first messages. -/
theorem mcpSseStream_take {messages : List (Option Value)} {chunks : List (List UInt8)}
    (h : mcpSseStream repr messages = some chunks) (k : ℕ) :
    mcpSseStream repr (messages.take k) = some (chunks.take k) := by
  unfold mcpSseStream at h ⊢
  induction messages generalizing chunks k with
  | nil =>
    obtain rfl := Option.some.inj h
    simp
  | cons m messages ih =>
    rw [List.mapM_cons] at h
    obtain ⟨bytes, hbytes, h⟩ := Option.bind_eq_some_iff.mp h
    obtain ⟨rest, hrest, h⟩ := Option.bind_eq_some_iff.mp h
    obtain rfl := Option.some.inj h
    cases k with
    | zero => rfl
    | succ k =>
      rw [List.take_succ_cons, List.mapM_cons, hbytes, ih hrest k]
      rfl

/-- A subscription to the inbox. -/
def sampleSubscription : Subscription :=
  ⟨.int 7, [Text.ofString "cao://inbox"], fun _ => [], .null⟩

/-- The inbox changes once, and the service fails at the next look. -/
def samplePolls : List Poll := [.scan (fun _ => [0x61]) true, .failed (fun _ => [0x61]) 0]

end ServerSentEvents
