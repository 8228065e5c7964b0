import OpenCAO.AppServer

/-!
# The dispatch of a message to Codex

A dispatch is one session of the App Server. It says hello; resumes the thread of the Worker or
starts one; waits until the tools of the Worker are ready; gives the message to the queue of the
thread, or starts a turn with it; and reads until the turn has completed (`converse`). The
desktop is only asked to queue the message for the thread of CAO.

What a failure leaves is what is reported: how far the dispatch had come, and whether the
message was submitted (`dispatch`).
-/

namespace AppServer

open PyJson (Value)
open DesktopSocket (Items)
open ClaudeOutput (Sink equals get getOf)
open ServerSentEvents (RequestId item string)

/-- Where a dispatch is. -/
inductive Phase where
  | initializing
  | threadBinding
  | mcpStartup
  | deliverySubmit
  | turnRunning
deriving DecidableEq

/-- `delivery_acceptance`. -/
inductive Acceptance where
  | unset
  | notSubmitted
  | submitted
  | queued
  | started
  | completed
deriving DecidableEq

/-- The broker of the tools that the dispatch injects, for a Worker or for CAO. -/
structure Broker where
  worker : Bool
  serverName : Text
  threadConfig : Value

/-- **What is dispatched**, as `dispatch` has it when the connection is there: the runtime, the
message and the settings. -/
structure Job where
  desktopCaoWake : Bool
  nativeSessionId : Text
  metadata : Items
  effectiveModel : Option Text
  effectiveEffort : Option Text
  broker : Option Broker
  rendered : Text
  clientUserMessageId : Text
  serverVersion : Text
  monitored : Bool
  observed : Bool

/-- **What a dispatch knows** while it runs. -/
structure State where
  rpc : Rpc
  sink : Option Sink
  nativeThreadId : Text
  turnId : Text
  eventCount : ℕ
  submitted : Bool
  methodName : Text
  acceptance : Acceptance
  phase : Phase

/-- A session of a dispatch. -/
abbrev Run (α : Type) := Session State Failure α

variable (host : Host) (job : Job)

/-- `durable_worker_queue`. -/
def Job.durable : Bool := job.broker.any Broker.worker

/-- A session of the connection. -/
def onRpc {α : Type} (m : Call α) : Run α :=
  Session.within State.rpc (fun rpc s => { s with rpc }) m

/-- `startup_remaining`. -/
def startupRemaining : Run PUnit := do
  if host.late (← get).rpc then throw (.adapter (Text.ofString "mcp_startup_timeout"))

/-- Messages are read until one gives an answer. -/
def listening {α : Type} (body : Items → Run (Option α)) (ended : Run α) : Run α :=
  Session.receive (fun s => s.rpc.incoming)
    (fun s => { s with rpc := { s.rpc with incoming := s.rpc.incoming.tail } }) body ended

/-- The errors of the sink. -/
def ofSink (failure : ClaudeOutput.Failure) : Failure :=
  (failure.text.map Failure.adapter).getD .raised

/-- The sink is told something, if there is one. -/
def tell (f : Sink → Sink × Option ClaudeOutput.Failure) : Run PUnit := fun s =>
  match s.sink with
  | none => (.ok ⟨⟩, s)
  | some sink =>
    let r := f sink
    (match r.2 with
      | none => .ok ⟨⟩
      | some failure => .error (ofSink failure),
    { s with sink := some r.1 })

/-- The sink is changed, if there is one. -/
def adjust (f : Sink → Sink) : Run PUnit := modify fun s => { s with sink := s.sink.map f }

/-! ## Before the turn -/

/-- The request to start a thread. -/
def Job.threadParams : Items :=
  let params := [("model", "model"), ("cwd", "cwd"), ("approval_policy", "approvalPolicy"),
      ("sandbox", "sandbox")].foldl
    (fun params name =>
      if ClaudeOutput.isNone (get job.metadata name.1) then params
      else put params name.2 (get job.metadata name.1)) []
  let params := job.effectiveModel.elim params fun model => put params "model" (.str model)
  let params := job.effectiveEffort.elim params fun effort =>
    put params "modelReasoningEffort" (.str effort)
  job.broker.elim params fun broker => put params "config" broker.threadConfig

/-- The request to resume a thread. -/
def Job.resumeParams (threadId : Text) : Items :=
  let params := [item "threadId" (.str threadId), item "excludeTurns" (.bool true)]
  job.broker.elim params fun broker => put params "config" broker.threadConfig

/-- The message as input of a turn. -/
def Job.input : Value :=
  .list [.dict [item "type" (string "text"), item "text" (.str job.rendered)]]

/-- The request to start a turn. -/
def Job.turnParams (threadId : Text) : Items :=
  let params := [item "threadId" (.str threadId), item "input" job.input]
  let model := match job.effectiveModel with
    | some (c :: model) => .str (c :: model)
    | _ => get job.metadata "model"
  let params :=
    if job.broker.any (fun broker => !broker.worker) || !truthy model then params
    else put params "model" model
  let params := job.effectiveEffort.elim params fun effort =>
    put params "modelReasoningEffort" (.str effort)
  put params "clientUserMessageId" (.str job.clientUserMessageId)

/-- The request to queue the message. -/
def Job.queueParams (threadId : Text) : Items :=
  [item "threadId" (.str threadId), item "input" job.input,
    item "clientUserMessageId" (.str job.clientUserMessageId)]

/-- A request while the dispatch starts. -/
def startupRequest (method : String) (params : Items) : Run Items := do
  startupRemaining host
  onRpc (request host method params (some (Text.ofString "mcp_startup_timeout")))

/-- The connection is opened. -/
def sayHello : Run PUnit := do
  let _ ← startupRequest host "initialize"
    [item "clientInfo" (.dict [item "name" (string "cao-a2a-control-plane"),
      item "version" (.str job.serverVersion)]),
    item "capabilities" (.dict [item "experimentalApi" (.bool true)])]
  onRpc (send host initialized)

/-- The thread that a response names. -/
def threadId (result : Items) (before : Text) : Text :=
  match (get? result "thread").getD (.dict result) with
  | .dict thread =>
    if truthy (get thread "id") then host.text (get thread "id")
    else if truthy (get thread "threadId") then host.text (get thread "threadId")
    else before
  | _ => before

/-- The thread is resumed, or started. -/
def openThread (before : Text) : Run Items :=
  if before ≠ [] then startupRequest host "thread/resume" (job.resumeParams before)
  else startupRequest host "thread/start" job.threadParams

/-- A turn of another thread is not told of. -/
def nameThread (threadId : Text) : Run PUnit := do
  modify fun s => { s with nativeThreadId := threadId }
  if threadId = [] then
    throw (.adapter (Text.ofString "Codex app-server did not return a thread ID"))
  if (← get).sink.any fun sink => sink.nativeThreadId ≠ [] ∧ sink.nativeThreadId ≠ threadId then
    throw (.adapter (Text.ofString "Codex resumed a different managed Worker thread"))
  adjust fun sink => { sink with nativeThreadId := threadId }

/-- The thread of the turn is bound. -/
def bindThread : Run PUnit := do
  modify fun s => { s with phase := .threadBinding }
  let before := (← get).nativeThreadId
  let result ← openThread host job before
  nameThread (threadId host result before)

/-- The tools of the Worker, or of CAO, are ready. -/
def awaitTools : Run PUnit := do
  match job.broker with
  | none => pure ⟨⟩
  | some broker =>
    modify fun s => { s with phase := .mcpStartup }
    startupRemaining host
    onRpc (waitForMcpServerReady host broker.serverName (← get).nativeThreadId)

/-! ## The message -/

/-- `part in text`. -/
def within (part : String) (text : Text) : Bool := text.tails.any (Text.ofString part).isPrefixOf

/-- `_codex_queue_rejected_before_submission`. -/
def rejectedBeforeSubmission (error : Value) : Bool :=
  match error with
  | .dict items =>
    let message := host.lower (textOr host (get items "message"))
    RequestId.same (.int (-32601)) (get? items "code") ||
      within "method not found" message ||
      within "experimental" message && within "unavailable" message
  | _ => false

/-- A response says that this message is in the queue. -/
def preservesIdentity (result : Value) : Bool :=
  match getOf result "queuedSubmission" with
  | .dict queued => textOr host (get queued "clientUserMessageId") = job.clientUserMessageId
  | _ => false

/-- An error in the response to the message. -/
def refuse {α : Type} (method : String) (error : Value) : Run α :=
  throw (.adapter (Text.ofString ("Codex " ++ method ++ " failed: ") ++ host.text error))

/-- The error of a response that is about another message. -/
def identityLost {α : Type} : Run α :=
  throw (.adapter (Text.ofString "Codex queue response did not preserve Delivery identity"))

/-- The message is submitted: from here on it may have arrived. -/
def submit (method : String) (params : Items) : Run ℕ := do
  let requestId := (← get).rpc.nextId
  modify fun s => { s with
    rpc := { s.rpc with nextId := s.rpc.nextId + 1 }
    phase := .deliverySubmit
    submitted := true
    acceptance := .submitted }
  onRpc (send host (requestOf requestId method params))
  return requestId

/-- What a dispatch returns. -/
structure Returned where
  success : Bool
  nativeSessionId : Text
  error : Text
  turnStatus : Text
  eventCount : ℕ
  methodName : Text
  acceptance : Acceptance
deriving DecidableEq

/-- The message for CAO is put into the queue of its thread. -/
def wakeDesktop : Run Returned := do
  let threadId := (← get).nativeThreadId
  modify fun s => { s with methodName := Text.ofString "thread_queue" }
  let requestId ← submit host "thread/queue/add" (job.queueParams threadId)
  listening
    (fun value => do
      if isResponse requestId value then
        match get? value "error" with
        | some error =>
          if rejectedBeforeSubmission host error then modify fun s => { s with submitted := false }
          refuse host "thread/queue/add" error
        | none =>
          if preservesIdentity host job ((get? value "result").getD (.dict [])) then
            modify fun s => { s with acceptance := .queued }
            return some
              { success := true, nativeSessionId := threadId, error := [],
                turnStatus := Text.ofString "queued", eventCount := 0,
                methodName := Text.ofString "thread_queue", acceptance := .queued }
          else identityLost
      else
        if ← onRpc (handleServerRequest host value) then return none
        modify fun s => { s with rpc := s.rpc.observeNotification host value }
        return none)
    (do
      startupRemaining host
      onRpc (ended host fun s => s.timeoutDiagnostic "thread queue"))

/-! ## The turn -/

/-- The response to the message. -/
def accept (method : String) (value : Items) : Run PUnit := do
  match get? value "error" with
  | some error =>
    if job.durable && rejectedBeforeSubmission host error then
      modify fun s => { s with submitted := false, acceptance := .notSubmitted }
    refuse host method error
  | none =>
    match (get? value "result").getD (.dict []) with
    | .dict result =>
      if job.durable then
        if preservesIdentity host job (.dict result) then
          modify fun s => { s with acceptance := .queued }
        else identityLost
      else
        match (get? result "turn").getD (.dict result) with
        | .dict turn =>
          let turnId :=
            if truthy (get turn "id") then host.text (get turn "id")
            else textOr host (get turn "turnId")
          modify fun s => { s with turnId, acceptance := .started }
          adjust fun sink => { sink with turnId }
        | _ => pure ⟨⟩
    | _ => pure ⟨⟩

/-- The turn of the message is the one that begins with it. -/
def bindTurn (method : Text) (params : Items) : Run PUnit := do
  let s ← get
  if method = Text.ofString "item/started" ∧
      textOr host (getOf (get params "item") "type") = Text.ofString "userMessage" ∧
      textOr host (getOf (get params "item") "clientId") = job.clientUserMessageId ∧
      (s.sink.isNone ∨ textOr host (get params "threadId") = s.nativeThreadId) then
    let turnId := textOr host (get params "turnId")
    if s.sink.isSome ∧ s.turnId ≠ [] ∧ turnId ≠ s.turnId then
      throw (.adapter (Text.ofString "Codex Delivery acquired conflicting turns"))
    modify fun s => { s with turnId, acceptance := .started }
    adjust fun sink => { sink with turnId }

/-- The sink is told that something is missing. -/
def spoil : Run PUnit := adjust fun sink => { sink with complete := false }

/-- An item has begun, and has not ended. -/
def pend (itemId : Value) : Run PUnit :=
  adjust fun sink =>
    match itemId with
    | .str itemId =>
      if itemId ≠ [] ∧ sink.pendingItems.length < 4096 then
        if itemId ∈ sink.pendingItems then sink
        else { sink with pendingItems := sink.pendingItems ++ [itemId] }
      else { sink with complete := false }
    | _ => { sink with complete := false }

/-- The phase of an item. -/
def phaseOf (item : Value) : OutputPhase :=
  if equals (getOf item "phase") (Text.ofString "commentary") then .commentary
  else if equals (getOf item "phase") (Text.ofString "final_answer") then .final
  else .unspecified

/-- What the assistant says is told to the sink. -/
def observeItem (method : Text) (params : Items) : Run PUnit := do
  let s ← get
  let item := get params "item"
  let isAgentMessage := equals (getOf item "type") (Text.ofString "agentMessage")
  if s.sink.isSome ∧
      method ∈ ["item/started", "item/agentMessage/delta", "item/completed"].map Text.ofString ∧
      s.turnId ≠ [] ∧ textOr host (get params "threadId") = s.nativeThreadId ∧
      textOr host (get params "turnId") = s.turnId then
    if method = Text.ofString "item/agentMessage/delta" then pend (get params "itemId")
    else if isAgentMessage then
      if method = Text.ofString "item/started" then pend (getOf item "id")
      else
        match getOf item "id", getOf item "text" with
        | .str itemId, .str text =>
          if itemId = [] then spoil
          else tell fun sink => sink.message host.output itemId text (phaseOf item) true
        | _, _ => spoil

/-- The end of a turn, as a sink has it. -/
def terminalStatus? (status : Text) : Option TurnStatus :=
  if status = Text.ofString "completed" then some .completed
  else if status = Text.ofString "failed" then some .failed
  else if status = Text.ofString "interrupted" then some .interrupted
  else none

/-- What a notification is about: its turn, or itself. -/
def candidate (params : Value) : Items :=
  match params with
  | .dict items =>
    match (get? items "turn").getD params with
    | .dict candidate => candidate
    | _ => []
  | _ => []

/-- The turn has completed, if it is this one. -/
def complete (method : Text) (params : Value) : Run (Option Text) := do
  let s ← get
  let candidateId := textOf host (candidate params) "id"
  let matchesTurn := (!job.durable && (decide (s.turnId = []) || decide (candidateId = []))) ||
    decide (s.turnId ≠ [] ∧ candidateId = s.turnId)
  let matchesOutputEnvelope := s.sink.isNone ||
    decide (s.turnId ≠ [] ∧ candidateId = s.turnId ∧
      textOr host (getOf params "threadId") = s.nativeThreadId)
  if method = Text.ofString "turn/completed" ∧ matchesTurn ∧ matchesOutputEnvelope then
    let status := textOr host (get (candidate params) "status")
    if s.sink.isSome then
      match terminalStatus? status with
      | none => throw (.adapter (Text.ofString "Codex returned an invalid terminal status"))
      | some terminal => tell fun sink => sink.finish host.output terminal [] [] true
    modify fun s => { s with acceptance := .completed }
    return some status
  else return none

/-- What is looked at in a notification before its end. -/
def observeEvent (method : Text) (params : Value) : Run PUnit :=
  match params with
  | .dict items => do
    bindTurn host job method items
    observeItem host method items
  | _ => pure ⟨⟩

/-- **A message in the loop of the turn.** -/
def event (requestId : ℕ) (method : String) (value : Items) : Run (Option Text) := do
  if isResponse requestId value then
    accept host job method value
    return none
  else if ← onRpc (handleServerRequest host value) then return none
  else
    modify fun s =>
      { s with rpc := s.rpc.observeNotification host value, eventCount := s.eventCount + 1 }
    let method := textOf host value "method"
    let params := (get? value "params").getD (.dict [])
    observeEvent host job method params
    complete host job method params

/-- `delivery_method`. -/
def Job.deliveryMethod : String := if job.durable then "thread/queue/add" else "turn/start"

/-- `delivery_method_name`. -/
def Job.deliveryMethodName : Text :=
  Text.ofString (if job.durable then "thread_queue" else "direct_turn")

/-- The message is handed over, and its turn is followed to its end. -/
def deliver : Run Returned := do
  let threadId := (← get).nativeThreadId
  modify fun s => { s with methodName := job.deliveryMethodName }
  let requestId ← submit host job.deliveryMethod
    (if job.durable then job.queueParams threadId else job.turnParams threadId)
  if job.monitored then modify fun s => { s with phase := .turnRunning }
  let status ← listening (event host job requestId job.deliveryMethod)
    (onRpc (ended host fun s => s.timeoutDiagnostic "turn"))
  let s ← get
  let success := status ∈ ["completed", "succeeded", "success"].map Text.ofString
  return {
    success, nativeSessionId := s.nativeThreadId
    error := if success then [] else Text.ofString "Codex turn ended with status " ++ status
    turnStatus := status, eventCount := s.eventCount
    methodName := s.methodName, acceptance := s.acceptance }

/-- **What a dispatch does** until it returns or fails. -/
def converse : Run Returned := do
  sayHello host job
  if job.desktopCaoWake ∧ (← get).nativeThreadId ≠ [] then wakeDesktop host job
  else
    bindThread host job
    awaitTools host job
    deliver host job

/-! ## The dispatch -/

/-- **How a dispatch ends**: it returns, or raises `DesktopWakePreStartError`, or a
`RuntimeDispatchPhaseError` with the text of an error of the adapter and its metadata, or is
canceled, or raises what the callback raises when it is told of the end. -/
inductive Outcome where
  | returned (r : Returned)
  | preStart
  | failed (error : Option Text) (methodName : Text) (acceptance : Acceptance) (phase : Phase)
  | canceled
  | raised
deriving DecidableEq

/-- What a dispatch knows before it says hello. -/
def Job.start (incoming : List Items) : State where
  rpc := {
    nextId := 1
    serverRequestMethods := []
    trustedMcpServers := (job.broker.map Broker.serverName).toList
    mcpServerStates := fun _ => none
    incoming
    sent := [] }
  sink :=
    if job.observed then
      some { nativeThreadId := job.nativeSessionId, turnId := [], complete := true,
             terminal := false, status := .running, itemDigests := [], pendingItems := [],
             delivered := [] }
    else none
  nativeThreadId := job.nativeSessionId
  turnId := []
  eventCount := 0
  submitted := false
  methodName := []
  acceptance := .unset
  phase := .initializing

/-- The text of a failure. -/
def Failure.text : Failure → Option Text
  | adapter text => some text
  | _ => none

/-- What is made of a failure, when the sink was told. -/
def report (failure : Failure) (s : State) : Outcome :=
  if job.desktopCaoWake ∧ s.submitted = false then .preStart
  else
    .failed failure.text s.methodName
      (if s.acceptance = .unset then .notSubmitted else s.acceptance) s.phase

/-- What is done when something has failed: the sink is told. -/
def conclude (failure : Failure) (s : State) : Outcome × State :=
  let status := if failure = .canceled then TurnStatus.interrupted else .failed
  match tell (fun sink => sink.finish host.output status [] [] false) s with
  | (.error _, s) => (.raised, s)
  | (.ok _, s) => (if failure = .canceled then .canceled else report job failure s, s)

/-- **`dispatch`**, of what the App Server says. -/
def dispatch (incoming : List Items) : Outcome × State :=
  match converse host job (job.start incoming) with
  | (.ok r, s) => (.returned r, s)
  | (.error failure, s) => conclude host job failure s

end AppServer
