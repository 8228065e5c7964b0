import OpenCAO.Delivery
import OpenCAO.Snapshots
import OpenCAO.TransitionSystem

/-!
# The metadata of a runtime session

The metadata of a runtime is one JSON object in one column, and it is always written whole.
Two paths write it. `heartbeat_runtime` reads the row, and merges what it was sent into the
metadata it read, in a transaction of its own. The dispatcher reads the row before the turn of
a Worker and writes the metadata back when the turn is over, with the result of the dispatch
added. Neither reads the row again in the transaction in which it writes.

The system here is one runtime with the rows that the recording of a result looks at, any
number of heartbeats and dispatches under way, and whatever else happens to these rows in
between. Everything but these two paths leaves the metadata alone.
-/

namespace RuntimeMetadata

open Record (Write)

variable {V : Type}

/-- The metadata of a runtime, over JSON values `V`. -/
abbrev Metadata (V : Type) := Record String V

/-- A row of `runtime_sessions`. -/
structure Session (V : Type) where
  state : RuntimeState
  nativeSessionId : String
  heartbeatAt : Instant
  leaseExpiresAt : Instant
  metadata : Metadata V

/-- A row of `cao_runtime_credentials`. -/
structure Credential where
  generation : ℕ
  active : Bool
  expiresAt : Instant
  deriving DecidableEq, Repr

/-- A row of `cao_session_attachments`, with the credentials issued for it. -/
structure AttachmentRow where
  state : AttachmentState
  generation : ℕ
  nativeThreadId : String
  leaseExpiresAt : Instant
  credentials : List Credential
  deriving DecidableEq, Repr

/-- A row of `worker_enrollments`. -/
structure EnrollmentRow where
  ready : Bool
  generation : ℕ
  deriving DecidableEq, Repr

/-- **The rows about one runtime.** -/
structure Rows (V : Type) where
  session : Session V
  deliveries : List Delivery
  attachments : List AttachmentRow
  enrollments : List EnrollmentRow

/-! ## Heartbeats -/

/-- `RuntimeHeartbeat`, as far as a caller that is no Worker can use it. -/
structure Heartbeat (V : Type) where
  state : RuntimeState
  leaseSeconds : ℕ
  metadata : Metadata V

/-- **A call of `heartbeat_runtime`** that has read the row. -/
structure HeartbeatCall (V : Type) where
  request : Heartbeat V
  snapshot : Metadata V

/-- What a heartbeat writes. -/
def HeartbeatCall.write (h : HeartbeatCall V) : Write String V := ⟨h.snapshot, h.request.metadata⟩

/-- The runtime is there to be renewed. -/
def Session.renewable (s : Session V) : Bool :=
  s.state ≠ .stopped ∧ s.state ≠ .failed ∧ s.state ≠ .missing

/-- The `UPDATE` of `heartbeat_runtime`. -/
def Session.heartbeat (s : Session V) (h : HeartbeatCall V) (now : Instant) : Session V :=
  if s.renewable then
    { s with
      state := if s.state = .busy then s.state else h.request.state
      heartbeatAt := now
      leaseExpiresAt := now + h.request.leaseSeconds
      metadata := h.write.value }
  else s

/-! ## Dispatches -/

/-- What is dispatched to. -/
inductive Target where
  /-- A managed CAO, with the generation of its attachment or of its launch ticket. -/
  | managedCao (generation : Option ℕ) (desktop : Bool)
  /-- A managed Worker, with the generation of its launch ticket. -/
  | managedWorker (ticketGeneration : Option ℕ)
  | plain
  deriving DecidableEq, Repr

/-- **A run of `_process_delivery`** that has read the row. -/
structure Dispatch (V : Type) where
  delivery : Delivery
  ownerToken : String
  target : Target
  nativeSessionId : String
  /-- `durable_runtime_metadata`. -/
  snapshot : Metadata V

/-- The result of a turn: `RuntimeDispatchResult`, with its durable summary. -/
structure DispatchResult (V : Type) where
  success : Bool
  nativeSessionId : String
  summary : V

/-- The keys that the recording of a result sets; `text` is a text as a JSON value. -/
def dispatched (text : MessageId → V) (messageId : MessageId) (summary : V) : Metadata V :=
  ((∅ : Metadata V).insert "last_dispatch" summary).insert "last_dispatch_message_id"
    (text messageId)

/-- What a dispatch writes. -/
def Dispatch.write (text : MessageId → V) (d : Dispatch V) (r : DispatchResult V) :
    Write String V :=
  ⟨d.snapshot, dispatched text d.delivery.messageId r.summary⟩

/-- `acceptable_delivery`: the captured delivery is still the dispatcher's own, or is settled. -/
def Rows.acceptable (rows : Rows V) (d : Dispatch V) : Bool :=
  match rows.deliveries.find? fun e =>
    e.key = d.delivery.key ∧ e.runtimeSessionId = d.delivery.runtimeSessionId with
  | none => false
  | some e => e.generation = d.delivery.generation ∧
      (e.state = .dispatched ∧ e.ownerToken = d.ownerToken ∨
        e.state ∈ [.delivered, .acknowledged, .handled])

/-- The attachment that a result for a managed CAO needs. -/
def Rows.attached (rows : Rows V) (d : Dispatch V) (generation : ℕ) (desktop : Bool)
    (now : Instant) : Bool :=
  rows.attachments.any fun a =>
    a.state = .active ∧ a.generation = generation ∧ a.nativeThreadId = d.nativeSessionId ∧
      now < a.leaseExpiresAt ∧ now < rows.session.leaseExpiresAt ∧
      (desktop = true ∨
        a.credentials.any fun c => c.generation = generation ∧ c.active ∧ now < c.expiresAt)

/-- The enrollment that a result for a managed Worker needs. -/
def Rows.enrolled (rows : Rows V) (generation : ℕ) : Bool :=
  rows.enrollments.any fun e => e.ready ∧ e.generation = generation

/-- **The result is recorded.** A success of a managed runtime is recorded while its turn is
current; a failure, and a success of any other runtime, always is. -/
def Rows.records (rows : Rows V) (d : Dispatch V) (r : DispatchResult V) (now : Instant) : Bool :=
  if r.success then
    match d.target with
    | .managedCao none _ | .managedWorker none => false
    | .managedCao (some g) desktop =>
      rows.attached d g desktop now && rows.acceptable d && rows.session.state = .busy
    | .managedWorker (some g) =>
      rows.enrolled g && rows.acceptable d && rows.session.state = .busy
    | .plain => true
  else true

/-- The `UPDATE` of the recording. -/
def Session.record (s : Session V) (text : MessageId → V) (d : Dispatch V)
    (r : DispatchResult V) : Session V :=
  { s with
    state := if r.success ∧ d.target ≠ .plain then .waiting else s.state
    nativeSessionId :=
      if r.success ∧ r.nativeSessionId ≠ "" then r.nativeSessionId else s.nativeSessionId
    metadata := (d.write text r).value }

/-- `_resolve_runtime` finds the runtime: a delivery that is pinned to it asks for one that has
not failed. -/
def Session.resolves (s : Session V) (d : Delivery) : Bool :=
  s.state ≠ .stopped ∧ s.state ≠ .missing ∧ (d.runtimeSessionId.isSome → s.state ≠ .failed)

/-! ## The system -/

/-- **The state of the system**: the rows, the calls that have read them, and, for the record,
the metadata at first and the keys that were set since, the last ones first. -/
structure System (V : Type) where
  rows : Rows V
  heartbeats : List (HeartbeatCall V) := []
  dispatches : List (Dispatch V) := []
  initial : Metadata V := rows.session.metadata
  written : List (Metadata V) := []

/-- What may happen. -/
inductive Event (V : Type) where
  /-- `heartbeat_runtime` reads the row. -/
  | read (request : Heartbeat V)
  /-- The transaction of a heartbeat. -/
  | heartbeat (call : ℕ) (now : Instant)
  /-- `_process_delivery` reads the row. -/
  | resolve (delivery : Delivery) (ownerToken : String) (target : Target)
  /-- The transaction in which a result is recorded. -/
  | record (dispatch : ℕ) (result : DispatchResult V) (now : Instant)
  /-- A heartbeat that raises. -/
  | dropHeartbeat (call : ℕ)
  /-- A dispatch that raises, or whose launch is blocked. -/
  | dropDispatch (dispatch : ℕ)
  /-- Any other transaction. -/
  | other (rows : Rows V)

/-- The write that an event commits. -/
def System.write? (text : MessageId → V) (s : System V) : Event V → Option (Write String V)
  | .heartbeat call _ =>
    if s.rows.session.renewable then (s.heartbeats[call]?).map HeartbeatCall.write else none
  | .record dispatch result now =>
    (s.dispatches[dispatch]?).bind fun d =>
      if s.rows.records d result now then some (d.write text result) else none
  | _ => none

/-- The keys that were set, after an event. -/
def System.log (text : MessageId → V) (s : System V) (e : Event V) : List (Metadata V) :=
  match s.write? text e with
  | some w => w.changes :: s.written
  | none => s.written

/-- **A step.** -/
def step (text : MessageId → V) (s : System V) (e : Event V) : Option (System V) :=
  match e with
  | .read request =>
    some { s with heartbeats := s.heartbeats ++ [⟨request, s.rows.session.metadata⟩] }
  | .heartbeat call now =>
    (s.heartbeats[call]?).map fun h =>
      { s with
        rows := { s.rows with session := s.rows.session.heartbeat h now }
        heartbeats := s.heartbeats.eraseIdx call
        written := s.log text e }
  | .resolve delivery ownerToken target =>
    if s.rows.session.resolves delivery then
      some { s with
        dispatches := s.dispatches ++
          [⟨delivery, ownerToken, target, s.rows.session.nativeSessionId,
            s.rows.session.metadata⟩] }
    else none
  | .record dispatch result now =>
    (s.dispatches[dispatch]?).map fun d =>
      { s with
        rows := if s.rows.records d result now then
            { s.rows with session := s.rows.session.record text d result }
          else s.rows
        dispatches := s.dispatches.eraseIdx dispatch
        written := s.log text e }
  | .dropHeartbeat call => some { s with heartbeats := s.heartbeats.eraseIdx call }
  | .dropDispatch dispatch => some { s with dispatches := s.dispatches.eraseIdx dispatch }
  | .other rows =>
    some { s with
      rows := { rows with
        session := { rows.session with metadata := s.rows.session.metadata } } }

/-- The system before any call. -/
def start (rows : Rows V) : System V := { rows }

/-! ## What becomes of the metadata -/

/-- **Every key holds what was set last.** -/
def System.Accounted (s : System V) : Prop :=
  ∀ k, s.rows.session.metadata.lookup k = ((s.written.find? fun c => k ∈ c).getD s.initial).lookup k

/-- **No key is changed that an event does not set.** -/
def Untouched (text : MessageId → V) (s : System V) (e : Event V) (s' : System V) : Prop :=
  ∀ k, (∀ w ∈ s.write? text e, k ∉ w.changes) →
    s'.rows.session.metadata.lookup k = s.rows.session.metadata.lookup k

/-- **A commit finds the metadata as they were read**, up to the keys that it sets. -/
def Current (text : MessageId → V) (s : System V) (e : Event V) : Prop :=
  ∀ w ∈ s.write? text e, w.Current s.rows.session.metadata

theorem accounted_iff {s : System V} :
    s.Accounted ↔ s.rows.session.metadata = Record.history s.initial s.written := by
  unfold System.Accounted
  simp only [← Record.lookup_history]
  exact ⟨Finmap.ext_lookup, fun h k => by rw [h]⟩

/-- **What a step does to the metadata**: it commits the write of its event, if there is one. -/
theorem step_metadata {text : MessageId → V} {s s' : System V} {e : Event V}
    (h : step text s e = some s') : s'.initial = s.initial ∧ s'.written = s.log text e ∧
      s'.rows.session.metadata =
        ((s.write? text e).map Write.value).getD s.rows.session.metadata := by
  cases e with
  | read request =>
    obtain rfl := Option.some.inj h
    exact ⟨rfl, rfl, rfl⟩
  | heartbeat call now =>
    obtain ⟨c, hc, rfl⟩ := Option.map_eq_some_iff.mp h
    refine ⟨rfl, rfl, ?_⟩
    by_cases hr : s.rows.session.renewable = true
    · simp [System.write?, Session.heartbeat, hr, hc]
    · simp [System.write?, Session.heartbeat, hr]
  | resolve delivery ownerToken target =>
    obtain ⟨-, rfl⟩ := TransitionSystem.of_guarded h
    exact ⟨rfl, rfl, rfl⟩
  | record dispatch result now =>
    obtain ⟨d, hd, rfl⟩ := Option.map_eq_some_iff.mp h
    refine ⟨rfl, rfl, ?_⟩
    by_cases hr : s.rows.records d result now = true
    · simp [System.write?, Session.record, hr, hd]
    · simp [System.write?, hr, hd]
  | dropHeartbeat call =>
    obtain rfl := Option.some.inj h
    exact ⟨rfl, rfl, rfl⟩
  | dropDispatch dispatch =>
    obtain rfl := Option.some.inj h
    exact ⟨rfl, rfl, rfl⟩
  | other rows =>
    obtain rfl := Option.some.inj h
    exact ⟨rfl, rfl, rfl⟩

/-- **One step**: where every key holds what was set last, it does so again and no other key is
changed exactly if the commit is current. -/
theorem step_kept_iff {text : MessageId → V} {s s' : System V} {e : Event V} (hs : s.Accounted)
    (h : step text s e = some s') :
    s'.Accounted ∧ Untouched text s e s' ↔ Current text s e := by
  obtain ⟨hinitial, hwritten, hmetadata⟩ := step_metadata h
  rw [accounted_iff, hinitial, hwritten]
  unfold Untouched Current System.log
  rw [hmetadata]
  cases hw : s.write? text e with
  | none => simp [accounted_iff.mp hs]
  | some w =>
    simp only [Option.map_some, Option.getD_some, Option.mem_some_iff, forall_eq']
    rw [Record.history, ← accounted_iff.mp hs, ← Write.current_iff, ← Write.current_iff_kept]
    exact and_self_iff

/-- **Updates of the metadata are kept exactly by the runs whose commits are all current**:
there, and only there, every key always holds what the last commit that set it gave it, and no
commit changes a key it does not set. -/
theorem metadata_kept_iff (text : MessageId → V) (rows : Rows V) (es : List (Event V)) :
    TransitionSystem.Along (step text)
        (fun s e s' => s'.Accounted ∧ Untouched text s e s') (start rows) es ↔
      TransitionSystem.Along (step text) (fun s e _ => Current text s e) (start rows) es :=
  TransitionSystem.along_congr (I := System.Accounted) (fun _ _ _ hs h => step_kept_iff hs h)
    (fun _ _ _ _ _ h => h.1) (fun _ => rfl) es

/-- A Worker's runtime between two turns, without metadata. -/
def sampleRows : Rows ℕ where
  session := ⟨.ready, "", 0, 100, ∅⟩
  deliveries := []
  attachments := []
  enrollments := []

def sampleDelivery : Delivery where
  messageId := 1
  recipientId := 2
  recipientAttachmentId := none
  state := .leased
  generation := 1
  attempts := 1
  nextAttemptAt := 0
  runtimeSessionId := some 3
  leaseUntil := some 50
  ownerToken := "dispatcher"
  lastError := ""
  reactivationPolicy := .terminal

/-- A heartbeat is sent while a turn runs that is going to fail. -/
def sampleRun : List (Event ℕ) :=
  [.resolve sampleDelivery "dispatcher" (.managedWorker (some 1)),
    .read ⟨.ready, 180, (∅ : Metadata ℕ).insert "model" 7⟩, .heartbeat 0 10,
    .record 0 ⟨false, "", 5⟩ 20]

/-- **The result of a turn takes back what a heartbeat set during the turn.** -/
theorem heartbeat_lost :
    ¬ ∀ (rows : Rows ℕ) (es : List (Event ℕ)) (s : System ℕ),
      TransitionSystem.replay (step id) (start rows) es = some s →
        s.heartbeats = [] → s.dispatches = [] → s.Accounted := by
  intro h
  have hrun : (TransitionSystem.replay (step id) (start sampleRows) sampleRun).map
      (fun s => (s.heartbeats.length, s.dispatches.length,
        s.rows.session.metadata.lookup "model",
        ((s.written.find? fun c => "model" ∈ c).getD s.initial).lookup "model"))
        = some (0, 0, none, some 7) := by
    decide +kernel
  obtain ⟨s, hs, hvalues⟩ := Option.map_eq_some_iff.mp hrun
  obtain ⟨hheartbeats, hdispatches, hlookup, hlast⟩ : s.heartbeats.length = 0 ∧
      s.dispatches.length = 0 ∧ s.rows.session.metadata.lookup "model" = none ∧
        ((s.written.find? fun c => "model" ∈ c).getD s.initial).lookup "model" = some 7 := by
    simpa using hvalues
  have hkey := h sampleRows sampleRun s hs (List.length_eq_zero_iff.mp hheartbeats)
    (List.length_eq_zero_iff.mp hdispatches) "model"
  rw [hlookup, hlast] at hkey
  cases hkey

end RuntimeMetadata
