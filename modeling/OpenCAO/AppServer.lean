import OpenCAO.ClaudeOutput
import OpenCAO.Sessions
import OpenCAO.SubscriptionRelay

/-!
# A turn of the App Server of Codex

The App Server is spoken to in JSON-RPC, over a process or over the socket of the desktop
(`_JsonRpcProcess`). A request is written and the response to it is read; what comes before the
response is a notification or a request of the server itself, and each request of the server is
answered, or the server would wait for ever. The answer never grants anything, but for the calls
of tools of the one server that this dispatch has injected (`result?`).

A dispatch opens the connection, starts or resumes a thread, waits for the tools of the Worker,
and hands the message over; then it reads the events of the turn until it has completed
(`CodexAppServerAdapter.dispatch`). The message of a Worker goes through the queue of the thread,
and its turn is told from others by the identifier of the message.

What goes wrong says how far it had come: whether the message was submitted decides whether it
may be sent again.
-/

namespace AppServer

open PyJson (Value)
open DesktopSocket (Items)
open ClaudeOutput (Sink equals get getOf)
open ServerSentEvents (RequestId item string)

/-- Why a call fails: an error of the adapter, a cancellation, or another exception. -/
inductive Failure where
  | adapter (text : Text)
  | canceled
  | raised
deriving DecidableEq

/-- Why there is no further message. -/
inductive Unread where
  | timeout
  | failed (failure : Failure)

/-- **`_JsonRpcProcess`**, with the messages that will come, and those that were given to be
written: of the last one it is not known whether it arrived, if its writing failed. -/
structure Rpc where
  nextId : ℕ
  serverRequestMethods : List Text
  trustedMcpServers : List Text
  mcpServerStates : Text × Text → Option Text
  incoming : List Items
  sent : List Value

/-- **What is outside**: whether a message can be written after others; why reading ends; whether
the time for the start is up; `str` of what is no text; `str.lower`; and the callback for the
output, with its digest and its limit. -/
structure Host where
  unwritten : List Value → Value → Option Failure
  unread : Unread
  late : Rpc → Bool
  str : Value → Text
  lower : Text → Text
  output : ClaudeOutput.Host

/-- A session of a connection. -/
abbrev Call (α : Type) := Session Rpc Failure α

variable (host : Host)

/-! ## Values -/

/-- What is true in Python. -/
def truthy : Value → Bool
  | .null => false
  | .bool b => b
  | .int n => n ≠ 0
  | .float (.finite _ magnitude) => magnitude ≠ 0
  | .float _ => true
  | .str t => t ≠ []
  | .list xs => !xs.isEmpty
  | .dict items => !items.isEmpty

/-- `str`. -/
def Host.text : Value → Text
  | .str t => t
  | v => host.str v

/-- `get` of a mapping, if there is the item. -/
def get? (items : Items) (name : String) : Option Value :=
  CursorCodec.lookup items (Text.ofString name)

/-- `str(items.get(name, ""))`. -/
def textOf (items : Items) (name : String) : Text :=
  ((get? items name).map host.text).getD []

/-- `str(value or "")`. -/
def textOr (v : Value) : Text := if truthy v then host.text v else []

/-- `items[name] = v`. -/
def put (items : Items) (name : String) (v : Value) : Items :=
  if items.any fun i => i.1 = Text.ofString name then
    items.map fun i => if i.1 = Text.ofString name then (i.1, v) else i
  else items ++ [item name v]

/-! ## JSON-RPC -/

/-- **`timeout_diagnostic`.** -/
def Rpc.timeoutDiagnostic (s : Rpc) (operation : String) : Text :=
  let methods := s.serverRequestMethods.dedup.mergeSort fun a b => decide (a ≤ b)
  Text.ofString ("Codex app-server " ++ operation ++ " timed out; server requests: ") ++
    if methods = [] then Text.ofString "none" else (Text.ofString ",").intercalate methods

/-- **`send`.** -/
def send (payload : Value) : Call PUnit := do
  let s ← get
  modify fun s => { s with sent := s.sent ++ [payload] }
  match host.unwritten s.sent payload with
  | none => pure ⟨⟩
  | some failure => throw failure

/-- Messages are read until one gives an answer. -/
def reading {α : Type} (body : Items → Call (Option α)) (ended : Call α) : Call α :=
  Session.receive Rpc.incoming (fun s => { s with incoming := s.incoming.tail }) body ended

/-- There is no further message. -/
def ended {α : Type} (timedOut : Rpc → Text) : Call α := do
  match host.unread with
  | .timeout => throw (.adapter (timedOut (← get)))
  | .failed failure => throw failure

/-- What a notification says of a server of tools: the thread it is for, its name, and its
status. -/
def announcement? (value : Items) : Option ((Text × Text) × Text) :=
  if !equals (get value "method") (Text.ofString "mcpServer/startupStatus/updated") then none
  else
    match (get? value "params").getD (.dict []) with
    | .dict params =>
      let name := textOf host params "name"
      let status := textOf host params "status"
      if name ≠ [] ∧ status ≠ [] then some ((textOr host (get params "threadId"), name), status)
      else none
    | _ => none

/-- **`_observe_notification`.** -/
def Rpc.observeNotification (s : Rpc) (value : Items) : Rpc :=
  match announcement? host value with
  | none => s
  | some (key, status) =>
    { s with mcpServerStates := Function.update s.mcpServerStates key (some status) }

/-- A command, or a change of files, is declined. -/
def declined : Value := .dict [item "decision" (string "decline")]

/-- A command, or a patch, is denied. -/
def denied : Value :=
  .dict [item "decision" (.dict [item "denied" (.dict [item "rejection"
    (string "The control-plane runtime adapter does not infer effect authority.")])])]

/-- Nothing is permitted. -/
def nothingPermitted : Value :=
  .dict [
    item "permissions" (.dict [
      item "fileSystem" (.dict [item "entries" (.list [])]),
      item "network" (.dict [item "enabled" (.bool false)])]),
    item "scope" (string "turn"), item "strictAutoReview" (.bool false)]

/-- What is said when a server of tools asks. -/
def elicitation (accepted : Bool) : Value :=
  .dict [item "action" (string (if accepted then "accept" else "decline")),
    item "content" (if accepted then .dict [] else .null), item "_meta" .null]

/-- There is nobody who could answer. -/
def noAnswers : Value := .dict [item "answers" (.dict [])]

/-- There is no handler for a method. -/
def noHandler : Value :=
  .dict [item "code" (.int (-32601)), item "message"
    (string "The control-plane runtime has no client handler for this request.")]

/-- A tool may be called: it is one of a server that is trusted. -/
def approves (trusted : List Text) (value : Items) : Bool :=
  let params := (get? value "params").getD (.dict [])
  let serverName := match params with
    | .dict params => textOf host params "serverName"
    | _ => []
  let isMcpToolApproval := equals (getOf (getOf params "_meta") "codex_approval_kind")
    (Text.ofString "mcp_tool_call")
  decide (serverName ∈ trusted) && isMcpToolApproval

/-- What is said to a request of the server, if its method is known. -/
def result? (trusted : List Text) (method : Text) (value : Items) : Option Value :=
  if method ∈ ["item/commandExecution/requestApproval",
      "item/fileChange/requestApproval"].map Text.ofString then some declined
  else if method ∈ ["applyPatchApproval", "execCommandApproval"].map Text.ofString then
    some denied
  else if method = Text.ofString "item/permissions/requestApproval" then some nothingPermitted
  else if method = Text.ofString "mcpServer/elicitation/request" then
    some (elicitation (approves host trusted value))
  else if method = Text.ofString "item/tool/requestUserInput" then some noAnswers
  else none

/-- The answer to a request of the server. -/
def answer (trusted : List Text) (value : Items) (id : Value) : Value :=
  match result? host trusted (textOf host value "method") value with
  | some result => .dict [item "id" id, item "result" result]
  | none => .dict [item "id" id, item "error" noHandler]

/-- The identifier of a request of the server, which has a method and an identifier. -/
def serverRequest? (value : Items) : Option Value :=
  if textOf host value "method" = [] then none else get? value "id"

/-- **`_handle_server_request`.** -/
def handleServerRequest (value : Items) : Call Bool := do
  match serverRequest? host value with
  | none => pure false
  | some id =>
    modify fun s =>
      { s with serverRequestMethods := s.serverRequestMethods ++ [textOf host value "method"] }
    send host (answer host (← get).trustedMcpServers value id)
    pure true

/-- `value.get("id") == request_id`. -/
def isResponse (requestId : ℕ) (value : Items) : Bool :=
  RequestId.same (.int requestId) (get? value "id")

/-- What a response says. -/
def response (value : Items) : Except Failure Items :=
  match get? value "error" with
  | some error => .error (.adapter (Text.ofString "Codex app-server error: " ++ host.text error))
  | none =>
    match (get? value "result").getD (.dict []) with
    | .dict result => .ok result
    | result => .ok [item "value" result]

/-- **`read_until_response`.** -/
def readUntilResponse (requestId : ℕ) (timeoutError : Option Text) : Call Items :=
  reading
    (fun value => do
      if isResponse requestId value then return some (← Session.ofExcept (response host value))
      modify fun s => s.observeNotification host value
      let _ ← handleServerRequest host value
      return none)
    (ended host fun s => timeoutError.getD (s.timeoutDiagnostic "response"))

/-- The text of a request. -/
def requestOf (requestId : ℕ) (method : String) (params : Items) : Value :=
  .dict [item "id" (.int requestId), item "method" (string method), item "params" (.dict params)]

/-- A request gets the next identifier. -/
def begin (method : String) (params : Items) : Call ℕ := do
  let requestId := (← get).nextId
  modify fun s => { s with nextId := s.nextId + 1 }
  send host (requestOf requestId method params)
  return requestId

/-- **`request`.** -/
def request (method : String) (params : Items) (timeoutError : Option Text) : Call Items := do
  readUntilResponse host (← begin host method params) timeoutError

/-- The notification that the client has begun. -/
def initialized : Value := .dict [item "method" (string "initialized"), item "params" (.dict [])]

/-- A server of tools is ready. -/
def Rpc.ready (s : Rpc) (name threadId : Text) : Bool :=
  s.mcpServerStates (threadId, name) = some (Text.ofString "ready")

/-- **`wait_for_mcp_server_ready`.** -/
def waitForMcpServerReady (name threadId : Text) : Call PUnit := do
  if (← get).ready name threadId then return ⟨⟩
  reading
    (fun value => do
      modify fun s => s.observeNotification host value
      let _ ← handleServerRequest host value
      return if (← get).ready name threadId then some ⟨⟩ else none)
    (ended host fun _ => Text.ofString "mcp_startup_timeout")

end AppServer
