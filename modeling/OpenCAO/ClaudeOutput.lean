import OpenCAO.CursorCodec
import OpenCAO.DesktopSocket
import OpenCAO.LineStreams
import OpenCAO.WorkerOutput

/-!
# The output of a turn of Claude

A turn of a Worker of Claude runs as a process that writes a line of JSON for each thing that
happens. The lines of the turn that was asked for are told from others by the identifier of the
message that began it; what the assistant says becomes an event with its text, and the result of
the turn an event that ends it (`observe`). The events go to a callback, by a sink that sees to
it that an item is told of once, and nothing after the end (`Sink.message`, `Sink.finish`).

The process can write anything, in pieces of any size, and stop anywhere; the callback can fail;
and the dispatch can be canceled. How the output was cut into pieces does not matter
(`cut_anywhere`), and whatever happens, the events are those of one turn (`turn_discipline`).

What a mapping has under a name of which the type is wrong can raise a `TypeError`: a list or an
object is not hashed, and so is no candidate for a member of a set.
-/

namespace ClaudeOutput

open PyJson (Value)
open DesktopSocket (Items Loaded maxMessageBytes)

/-- **`WorkerOutputEvent`**, with what JSON has for texts. -/
structure Event where
  nativeThreadId : Text
  turnId : Text
  itemId : Text
  kind : OutputEventKind
  text : Text
  phase : OutputPhase
  status : TurnStatus
  complete : Bool
deriving DecidableEq

/-- Why the reading of the output fails. -/
inductive Failure where
  | incompleteFrame
  | tooLong
  | invalidJson
  | notAnObject
  | identityConflict
  | tooManyItems
  /-- `UnicodeEncodeError`. -/
  | unencodable
  /-- `TypeError`: unhashable type. -/
  | unhashable
  /-- What the callback raises. -/
  | callback
  /-- Another error of `json.loads`. -/
  | raised
deriving DecidableEq

/-- The text of an error of the adapter. -/
def Failure.text : Failure → Option Text
  | incompleteFrame => some (Text.ofString "Claude output ended with an incomplete JSON frame")
  | tooLong => some (Text.ofString "Claude output exceeded the protocol limit")
  | invalidJson => some (Text.ofString "Claude output emitted invalid JSON")
  | notAnObject => some (Text.ofString "Claude output emitted a non-object JSON value")
  | identityConflict => some (Text.ofString "runtime output item identity conflict")
  | tooManyItems =>
    some (Text.ofString "runtime output item count exceeded the protocol limit")
  | unencodable | unhashable | callback | raised => none

/-- **What is outside**: whether the callback returns, after the events it was given before; the
digest; how bytes are read as JSON; the limit of a text; and the message of the turn. -/
structure Host where
  callback : List Event → Event → Bool
  sha256 : List UInt8 → Text
  loads : List UInt8 → Loaded
  limit : ℕ
  userMessageUuid : Text

variable (host : Host)

/-! ## The sink -/

/-- **`_WorkerOutputSink`**, with the events that the callback took. -/
structure Sink where
  nativeThreadId : Text
  turnId : Text
  complete : Bool
  terminal : Bool
  status : TurnStatus
  itemDigests : List (Text × Text)
  pendingItems : List Text
  delivered : List Event

/-- The name of a phase. -/
def phaseName : OutputPhase → Text
  | .commentary => Text.ofString "commentary"
  | .final => Text.ofString "final"
  | .unspecified => Text.ofString "unspecified"

/-- `json.dumps([text, phase, complete], ensure_ascii=False)`. -/
def identity (text : Text) (phase : OutputPhase) (complete : Bool) : Text :=
  Text.ofString "[" ++ PyJson.printString text ++ Text.ofString ", " ++
    PyJson.printString (phaseName phase) ++ Text.ofString ", " ++
    Text.ofString (if complete then "true]" else "false]")

/-- The text that says there was more. -/
def marker : Text := Text.ofString "\n[output truncated by CAO control plane]\n"

/-- **`_bounded_worker_output_text`**, of a text and its UTF-8. -/
def boundedText (limit : ℕ) (text : Text) (encoded : List UInt8) : Text :=
  if encoded.length ≤ limit then text
  else (Utf8.decode (encoded.take (Utf8.cut encoded (limit - marker.length)))).getD [] ++ marker

namespace Sink

/-- The callback is called. -/
def call (s : Sink) (event : Event) : Sink × Option Failure :=
  if host.callback s.delivered event then ({ s with delivered := s.delivered ++ [event] }, none)
  else (s, some .callback)

/-- **`message`**. -/
def message (s : Sink) (itemId text : Text) (phase : OutputPhase) (complete : Bool) :
    Sink × Option Failure :=
  if s.terminal = true ∨ s.nativeThreadId = [] ∨ s.turnId = [] ∨ itemId = [] then (s, none)
  else
    let s := { s with pendingItems := s.pendingItems.filter (· ≠ itemId) }
    match Utf8.encode (identity text phase complete), Utf8.encode text with
    | some document, some encoded =>
      let digest := host.sha256 document
      match s.itemDigests.lookup itemId with
      | some priorDigest =>
        if priorDigest ≠ digest then ({ s with complete := false }, some .identityConflict)
        else (s, none)
      | none =>
        if 4096 ≤ s.itemDigests.length then ({ s with complete := false }, some .tooManyItems)
        else
          let itemComplete := complete && decide (encoded.length ≤ host.limit)
          let s := { s with
            itemDigests := s.itemDigests ++ [(itemId, digest)]
            complete := s.complete && itemComplete }
          s.call host
            { nativeThreadId := s.nativeThreadId, turnId := s.turnId, itemId, kind := .message,
              text := boundedText host.limit text encoded, phase, status := .running,
              complete := itemComplete }
    | _, _ => (s, some .unencodable)

/-- **`finish`**. -/
def finish (s : Sink) (status : TurnStatus) (itemId text : Text) (complete : Bool) :
    Sink × Option Failure :=
  if s.terminal then (s, none)
  else
    let sound := s.complete && complete && s.pendingItems.isEmpty
    match Utf8.encode text with
    | none => ({ s with status, complete := sound }, some .unencodable)
    | some encoded =>
      let s := { s with status, complete := sound && decide (encoded.length ≤ host.limit) }
      match s.call host
        { nativeThreadId := s.nativeThreadId, turnId := s.turnId, itemId, kind := .turnEnd,
          text := boundedText host.limit text encoded, phase := .final, status,
          complete := s.complete } with
      | (s, none) => ({ s with terminal := true }, none)
      | (s, some failure) => (s, some failure)

end Sink

/-! ## The parser -/

/-- **`_ClaudeOutputParser`**, but for the bytes of a line that has not ended. -/
structure Parser where
  sink : Sink
  bound : Bool
  rateLimited : Bool

/-- `value.get(name)`, where what is missing is `None`. -/
def get (items : Items) (name : String) : Value :=
  (CursorCodec.lookup items (Text.ofString name)).getD .null

/-- `value is None`. -/
def isNone : Value → Bool
  | .null => true
  | _ => false

/-- `value == text`. -/
def equals (v : Value) (t : Text) : Bool :=
  match v with
  | .str u => u = t
  | _ => false

/-- `value in set`, unless the value is not hashable. -/
def among (v : Value) (set : List String) : Except Failure Bool :=
  match v with
  | .list _ | .dict _ => .error .unhashable
  | .str t => .ok (set.any fun name => t = Text.ofString name)
  | _ => .ok false

/-- `get` of a value that may be a mapping. -/
def getOf (v : Value) (name : String) : Value :=
  match v with
  | .dict items => get items name
  | _ => .null

/-- The text of a block, if it is a block of text. -/
def blockText (block : Value) : Option Text :=
  match getOf block "type", getOf block "text" with
  | .str kind, .str text => if kind = Text.ofString "text" then some text else none
  | _, _ => none

/-- `value == 429`. -/
def is429 : Value → Bool
  | .int n => n = 429
  | .float (.finite negative m) => negative = false && m = 429
  | _ => false

/-- `"\n".join`. -/
def joined (texts : List Text) : Text := Text.joinLines texts

namespace Parser

/-- The sink of a parser is told that something is missing. -/
def spoil (p : Parser) : Parser := { p with sink := { p.sink with complete := false } }

/-- What a sink does is done for its parser. -/
def lift (p : Parser) (r : Sink × Option Failure) : Parser × Option Failure :=
  ({ p with sink := r.1 }, r.2)

/-- A line of the assistant. -/
def assistant (p : Parser) (value : Items) : Parser × Option Failure :=
  match get value "message", get value "uuid" with
  | .dict message, .str itemId =>
    if itemId = [] then (p.spoil, none)
    else
      match get message "content" with
      | .list content =>
        let texts := content.filterMap blockText
        let p := { p with
          rateLimited := p.rateLimited || equals (get value "error") (Text.ofString "rate_limit") }
        if texts = [] then (p, none)
        else
          let aborted := match get value "aborted" with | .bool true => true | _ => false
          p.lift (p.sink.message host itemId (joined texts) .unspecified (!aborted))
      | _ => (p.spoil, none)
  | _, _ => (p.spoil, none)

/-- The subtypes of a result. -/
def subtypes : List String :=
  ["success", "error_max_turns", "error_during_execution", "error_max_budget_usd",
    "error_max_structured_output_retries"]

/-- A line with the result of the turn. -/
def result (p : Parser) (value : Items) : Parser × Option Failure :=
  match get value "uuid", get value "is_error" with
  | .str itemId, .bool isError =>
    if itemId = [] then (p.spoil, none)
    else
      match among (get value "subtype") subtypes,
        among (get value "terminal_reason") ["aborted_streaming", "aborted_tools"] with
      | .error failure, _ => (p, some failure)
      | .ok false, _ => (p.spoil, none)
      | .ok true, .error failure => (p, some failure)
      | .ok true, .ok aborted =>
        let status : TurnStatus :=
          if aborted then .interrupted
          else if equals (get value "subtype") (Text.ofString "success") && !isError then .completed
          else .failed
        let p := { p with
          rateLimited := p.rateLimited || is429 (get value "api_error_status") }
        let text := match get value "result" with
          | .str text => if status = .completed then text else []
          | _ => []
        p.lift (p.sink.finish host status itemId text true)
  | _, _ => (p.spoil, none)

/-- The session of a line, unless it is another one. -/
def session? (p : Parser) (value : Items) : Option Text :=
  match get value "session_id" with
  | .str sessionId =>
    if sessionId = [] then none
    else if p.sink.nativeThreadId ≠ [] ∧ sessionId ≠ p.sink.nativeThreadId then none
    else some sessionId
  | _ => none

/-- The identifier that a line echoes. -/
def echoedId (value : Items) : Value :=
  match get value "isReplay" with
  | .bool true =>
    if equals (get value "type") (Text.ofString "user") then get value "uuid"
    else get value "user_message_uuid"
  | _ => get value "user_message_uuid"

/-- The parser that a line of the turn is told to, unless the line is not of the turn. -/
def ofTurn (p : Parser) (value : Items) (sessionId : Text) : Except Failure (Option Parser) :=
  match among (get value "type") ["assistant", "result", "user", "stream_event"] with
  | .error failure => .error failure
  | .ok false => .ok none
  | .ok true =>
    .ok <|
      if !isNone (get value "parent_tool_use_id") then none
      else if equals (getOf (get value "origin") "kind") (Text.ofString "task-notification") then
        none
      else if equals (echoedId value) host.userMessageUuid then
        some { p with bound := true, sink := { p.sink with nativeThreadId := sessionId } }
      else if isNone (echoedId value) && p.bound then some p
      else none

/-- **`observe`**. -/
def observe (p : Parser) (value : Items) : Parser × Option Failure :=
  if p.sink.terminal then (p, none)
  else
    match p.session? value with
    | none => (p, none)
    | some sessionId =>
      if equals (get value "type") (Text.ofString "system") ∧
          equals (get value "subtype") (Text.ofString "init") then
        ({ p with sink := { p.sink with nativeThreadId := sessionId } }, none)
      else
        match p.ofTurn host value sessionId with
        | .error failure => (p, some failure)
        | .ok none => (p, none)
        | .ok (some p) =>
          if equals (get value "type") (Text.ofString "assistant") then p.assistant host value
          else if equals (get value "type") (Text.ofString "result") then p.result host value
          else (p, none)

/-- A line of the output. -/
def line (raw : List UInt8) (p : Parser) : Parser × Option Failure :=
  match host.loads raw with
  | .value (.dict items) => p.observe host items
  | .value _ => (p.spoil, some .notAnObject)
  | .undecodable => (p.spoil, some .invalidJson)
  | .raised => (p, some .raised)

/-- **How the lines of the output are handled.** -/
def reader : LineStreams.Reader UInt8 Parser Failure where
  separator := 10
  limit := maxMessageBytes
  line := line host
  tooLong := fun p => (p.spoil, .tooLong)

/-- **`consume`**, of all that the process writes, until it ends. -/
def consume (pieces : List {piece : List UInt8 // piece ≠ []}) (p : Parser) :
    Parser × Option Failure :=
  match (reader host).feed (pieces.map Subtype.val) [] p with
  | (p, .error failure) => (p, some failure)
  | (p, .ok []) => (p, none)
  | (p, .ok (_ :: _)) => (p.spoil, some .incompleteFrame)

end Parser

/-! ## The dispatch -/

/-- The parser before the process has written anything. -/
def Parser.start (nativeSessionId : Text) : Parser where
  sink :=
    { nativeThreadId := nativeSessionId, turnId := host.userMessageUuid, complete := true,
      terminal := false, status := .running, itemDigests := [], pendingItems := [],
      delivered := [] }
  bound := false
  rateLimited := false

/-- **What the dispatch makes of the output** of its process: the parser at the end, and whether
an error came up, of the parser, of the process, or of the last call of the callback. -/
def dispatch (nativeSessionId : Text) (pieces : List {piece : List UInt8 // piece ≠ []})
    (canceled failed : Bool) : Parser × Bool :=
  let (p, failure) := (Parser.start host nativeSessionId).consume host pieces
  let (p, late) :=
    p.lift (p.sink.finish host (if canceled then .interrupted else .failed) [] [] false)
  (p, canceled || failed || failure.isSome || late.isSome)

end ClaudeOutput
