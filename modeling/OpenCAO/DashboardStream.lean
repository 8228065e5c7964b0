import OpenCAO.DashboardCursor
import OpenCAO.LogReplay
import OpenCAO.Paging
import OpenCAO.TransitionSystem

/-!
# The event stream of the dashboard

The dashboard of an operator has a replica of what happens: it reads a snapshot, and from
the cursor of the snapshot on it follows the table of durable events. It is told of the
production events only. A stream reads the table in pages (`history`), tells of the events
one by one, says by a cursor that it has read everything (`synced`), and waits for the next
commit (`Stream.advance`). The connection can be lost at any time, with whatever is under
way; the browser then connects again with the cursor of the last frame it got.

Meanwhile the table goes on. Transactions of this process add events, and only then wake
whoever waits (`_notify_commit`); other processes add events and wake nobody; old events are
thrown out, not always the oldest first, since some of them are still needed; and the
authority may pass to a new generation. The sequence of an event is never used again, since
the table has `AUTOINCREMENT`.

The scope of an event is taken here as it was inserted. The start of a new version may
classify events that had no scope; who has passed them is not told.
-/

namespace Dashboard

/-! ## The table -/

/-- `operator_scope`. -/
inductive OperatorScope where
  | production | acceptanceTest | system | unclassified
  deriving DecidableEq, Repr

/-- **A row of `events`**, as far as a replay reads it. -/
structure EventRow where
  sequence : ℕ
  eventType : Text
  aggregateType : Text
  operatorScope : OperatorScope
  createdAt : Text
  deriving DecidableEq, Repr

/-- An event that is about to be inserted. -/
structure NewEvent where
  eventType : Text
  aggregateType : Text
  operatorScope : OperatorScope
  createdAt : Text

/-- **The table `events`**, in the order of its primary key, and the largest key that was ever
given. -/
structure EventTable where
  rows : List EventRow
  last : ℕ
  ordered : rows.Pairwise fun a b => a.sequence < b.sequence
  within : ∀ r ∈ rows, 0 < r.sequence ∧ r.sequence ≤ last

namespace EventTable

/-- `INSERT INTO events`. -/
def insert (t : EventTable) (e : NewEvent) : EventTable where
  rows := t.rows ++ [⟨t.last + 1, e.eventType, e.aggregateType, e.operatorScope, e.createdAt⟩]
  last := t.last + 1
  ordered := by
    refine List.pairwise_append.mpr ⟨t.ordered, List.pairwise_singleton _ _, fun r hr s hs => ?_⟩
    rw [List.mem_singleton.mp hs]
    exact Nat.lt_succ_of_le (t.within r hr).2
  within := by
    intro r hr
    rcases List.mem_append.mp hr with hr | hr
    · exact ⟨(t.within r hr).1, Nat.le_succ_of_le (t.within r hr).2⟩
    · rw [List.mem_singleton.mp hr]
      exact ⟨Nat.succ_pos _, Nat.le_refl _⟩

/-- `DELETE FROM events`. -/
def delete (t : EventTable) (sequences : List ℕ) : EventTable where
  rows := t.rows.filter fun r => r.sequence ∉ sequences
  last := t.last
  ordered := t.ordered.filter _
  within r hr := t.within r (List.mem_of_mem_filter hr)

/-- The events that are visible to the operator, behind a sequence. -/
def production (t : EventTable) (after upto : ℕ) : List EventRow :=
  t.rows.filter fun r => r.operatorScope = .production ∧ after < r.sequence ∧ r.sequence ≤ upto

/-- The first and the last sequence there are, `0` if there is none. -/
def firstSequence (t : EventTable) : ℕ := (t.rows.head?.map EventRow.sequence).getD 0
def lastSequence (t : EventTable) : ℕ := (t.rows.getLast?.map EventRow.sequence).getD 0

end EventTable

/-- The row of `control_authority`. -/
structure Authority where
  mode : Text
  generation : ℕ
  deriving DecidableEq, Repr

/-! ## A page of the history -/

/-- `[a-z][a-z0-9_]{0,63}`. -/
def isIdentifier : Text → Bool
  | [] => false
  | c :: t =>
    (0x61 ≤ c && c ≤ 0x7a) && t.length ≤ 63 &&
      t.all fun c => (0x61 ≤ c && c ≤ 0x7a) || (0x30 ≤ c && c ≤ 0x39) || c == 0x5f

/-- `_EVENT_TYPE`: two identifiers, and a dot between them. -/
def isEventType (t : Text) : Bool :=
  isIdentifier (t.takeWhile (· ≠ 0x2e)) &&
    match t.dropWhile (· ≠ 0x2e) with
    | [] => false
    | _ :: back => isIdentifier back

/-- **What is told of an event.** -/
structure Item where
  cursor : DashboardCursor
  type : Text
  aggregateType : Text
  occurredAt : Text
  deriving DecidableEq, Repr

/-- **`_event`**: an event whose names are not well formed is told of without them. -/
def event (raw : EventRow) (generation : ℕ) : Item :=
  let named := isEventType raw.eventType && isIdentifier raw.aggregateType
  { cursor := ⟨generation, raw.sequence⟩
    type := if named then raw.eventType else Text.ofString "control_plane.changed"
    aggregateType := if named then raw.aggregateType else Text.ofString "control_plane"
    occurredAt := raw.createdAt }

/-- Why a replay does not go on. -/
inductive ResyncReason where
  | authorityGenerationChanged | cursorPrunedOrInvalid
  deriving DecidableEq, Repr

/-- `DashboardResyncRequired`. -/
structure ResyncRequired where
  reason : ResyncReason
  authorityGeneration : ℕ
  cursor : DashboardCursor
  deriving DecidableEq, Repr

/-- A page of the history. -/
structure Page where
  authority : Authority
  after : Option DashboardCursor
  items : List Item
  nextCursor : DashboardCursor
  hasMore : Bool
  deriving DecidableEq, Repr

/-- **`_history_from_connection`**: the events behind a cursor, at most `limit` of them. The
cursor is `none` for the empty text, with which the history is read from its beginning. -/
def history (authority : Option Authority) (t : EventTable) (after : Option DashboardCursor)
    (limit : ℤ) : ResyncRequired ⊕ Page :=
  let authority := authority.getD ⟨Text.ofString "missing", 0⟩
  let generation := authority.generation
  let requested := after.getD ⟨generation, 0⟩
  let first := t.firstSequence
  let last := t.lastSequence
  let currentCursor : DashboardCursor := ⟨generation, last⟩
  if requested.authorityGeneration ≠ generation then
    .inl ⟨.authorityGenerationChanged, generation, currentCursor⟩
  else if last < requested.sequence ∨
      (0 < requested.sequence ∧ (first = 0 ∨ requested.sequence + 1 < first)) then
    .inl ⟨.cursorPrunedOrInvalid, generation, currentCursor⟩
  else
    let effectiveLimit := (min (max limit 1) 1000).toNat
    -- One row more than the page has is fetched, to see whether there are more.
    let page := Paging.cut effectiveLimit (t.production requested.sequence last)
    .inr { authority, after
           items := page.1.map fun raw => event raw generation
           -- Hidden events are passed, but not beyond the next visible one.
           nextCursor := ⟨generation, (page.2.map EventRow.sequence).getD last⟩
           hasMore := page.2.isSome }

/-! ## The stream -/

/-- **What a stream yields.** -/
inductive Output where
  | event (item : Item)
  | synced (cursor : DashboardCursor)
  | heartbeat
  | resyncRequired (page : ResyncRequired)
  deriving DecidableEq, Repr

/-- Where a stream stands between two of its suspensions. -/
inductive Phase where
  /-- It reads the next page. -/
  | reading
  /-- It tells of what is left of a page. -/
  | telling (items : List Item) (nextCursor : DashboardCursor) (hasMore : Bool)
  /-- It has told of everything there was. -/
  | told
  /-- It is in `wait_for_commit`. -/
  | waiting
  | returned
  deriving DecidableEq, Repr

/-- **The local variables of `stream`.** -/
structure Stream where
  cursor : Option DashboardCursor
  synchronizedCursor : Option DashboardCursor
  emitted : ℕ
  maxEvents : Option ℕ
  commitGeneration : ℕ
  timedOut : Bool
  phase : Phase
  deriving DecidableEq, Repr

namespace Stream

/-- A stream that was just opened. -/
def opened (after : Option DashboardCursor) (maxEvents : Option ℕ) (commitGeneration : ℕ) :
    Stream :=
  { cursor := after, synchronizedCursor := none, emitted := 0, maxEvents, commitGeneration,
    timedOut := false, phase := .reading }

/-- `max_events is not None and emitted >= max_events`. -/
def exhausted (s : Stream) (emitted : ℕ) : Bool := s.maxEvents.any fun n => n ≤ emitted

/-- **One step of `stream`**, up to its next suspension or the next end of a page, and what it
yields. A stream that waits is woken by `resume`. -/
def advance (authority : Option Authority) (t : EventTable) (s : Stream) :
    Option (Stream × List Output) :=
  match s.phase with
  | .reading =>
    match history authority t s.cursor 100 with
    | .inl page => some ({ s with phase := .returned }, [.resyncRequired page])
    | .inr page => some ({ s with phase := .telling page.items page.nextCursor page.hasMore }, [])
  | .telling (item :: items) nextCursor hasMore =>
    let phase := if s.exhausted (s.emitted + 1) then .returned
      else .telling items nextCursor hasMore
    some ({ s with cursor := some item.cursor, emitted := s.emitted + 1, phase }, [.event item])
  | .telling [] nextCursor hasMore =>
    if hasMore then some ({ s with cursor := some nextCursor, phase := .reading }, [])
    else if some nextCursor ≠ s.synchronizedCursor then
      some ({ s with cursor := some nextCursor, synchronizedCursor := some nextCursor,
                     phase := .told }, [.synced nextCursor])
    else some ({ s with cursor := some nextCursor, phase := .told }, [])
  | .told =>
    if s.timedOut then some ({ s with timedOut := false, phase := .reading }, [.heartbeat])
    else some ({ s with phase := .waiting }, [])
  | .waiting => none
  | .returned => none

/-- **`wait_for_commit` returns** with the number of commits it was notified of. -/
def resume (observed : ℕ) (s : Stream) : Option Stream :=
  match s.phase with
  | .waiting =>
    if observed ≠ s.commitGeneration then
      some { s with commitGeneration := observed, phase := .reading }
    else some { s with timedOut := true, phase := .reading }
  | _ => none

/-- The condition under which `wait_for_commit` goes on waiting, while there is time. -/
def blocked (observed : ℕ) (s : Stream) : Prop := s.phase = .waiting ∧ observed ≤ s.commitGeneration

end Stream

/-! ## The system -/

/-- **The identifier of a frame**, by which the browser connects again. -/
def Output.id? : Output → Option DashboardCursor
  | .event item => some item.cursor
  | .synced cursor => some cursor
  | .heartbeat => none
  | .resyncRequired page => some page.cursor

/-- A stream, and the frames of it that have not arrived yet. -/
structure Connection where
  stream : Stream
  inFlight : List Output

/-- **The control plane and one client.** -/
structure System where
  authority : Option Authority
  table : EventTable
  /-- `_commit_generation`. -/
  commitGeneration : ℕ
  /-- The transactions of this process that are committed and not notified. -/
  committing : ℕ
  connection : Option Connection
  /-- The cursor the client began with. -/
  start : Option DashboardCursor
  /-- The frames the client got, over all its connections. -/
  received : List Output
  /-- Every event that was ever inserted. -/
  inserted : List EventRow
  /-- The sequences of the events that this process inserted. -/
  ours : List ℕ

/-- What may happen. -/
inductive Action where
  /-- A transaction of this process, or of another one. -/
  | commit (ours : Bool) (deleted : List ℕ) (added : List NewEvent) (authority : Option Authority)
  | notify
  | connect (limit : ℕ)
  | advance
  | resume
  | receive
  | disconnect

/-- The cursor after some frames. -/
def lastId (start : Option DashboardCursor) (frames : List Output) : Option DashboardCursor :=
  frames.foldl (fun c o => o.id?.or c) start

/-- The client was told to begin anew. -/
def resynced (frames : List Output) : Bool := frames.any fun
  | .resyncRequired _ => true
  | _ => false

namespace System

/-- An event is inserted. -/
def insert (ours : Bool) (σ : System) (e : NewEvent) : System :=
  { σ with
    table := σ.table.insert e
    inserted := σ.inserted ++
      [⟨σ.table.last + 1, e.eventType, e.aggregateType, e.operatorScope, e.createdAt⟩]
    ours := if ours then σ.ours ++ [σ.table.last + 1] else σ.ours }

/-- **A step.** -/
def step (σ : System) : Action → Option System
  | .commit ours deleted added authority =>
    let σ' := added.foldl (insert ours) { σ with table := σ.table.delete deleted }
    some { σ' with authority, committing := if ours then σ.committing + 1 else σ.committing }
  | .notify =>
    if 0 < σ.committing then
      some { σ with commitGeneration := σ.commitGeneration + 1, committing := σ.committing - 1 }
    else none
  | .connect limit =>
    -- The edge takes `Last-Event-ID`, or `after` if there is none, and no limit for `0`.
    if σ.connection.isNone ∧ resynced σ.received = false then
      some { σ with
        connection := some ⟨Stream.opened (lastId σ.start σ.received)
          (if limit = 0 then none else some limit) σ.commitGeneration, []⟩ }
    else none
  | .advance => do
    let c ← σ.connection
    let (stream, outputs) ← c.stream.advance σ.authority σ.table
    some { σ with connection := some ⟨stream, c.inFlight ++ outputs⟩ }
  | .resume => do
    let c ← σ.connection
    let stream ← c.stream.resume σ.commitGeneration
    some { σ with connection := some { c with stream } }
  | .receive => do
    let c ← σ.connection
    match c.inFlight with
    | [] => none
    | frame :: frames =>
      -- The client closes a stream that tells it to begin anew.
      some { σ with received := σ.received ++ [frame]
                    connection := if resynced [frame] then none else some ⟨c.stream, frames⟩ }
  | .disconnect => some { σ with connection := none }

/-- **A client that begins**, whatever the table and its cursor are. -/
structure Initial (σ : System) : Prop where
  inserted : ∀ r ∈ σ.table.rows, r ∈ σ.inserted
  unique : ∀ a ∈ σ.inserted, ∀ b ∈ σ.inserted, a.sequence = b.sequence → a = b
  within : ∀ a ∈ σ.inserted, a.sequence ≤ σ.table.last
  ours : ∀ n ∈ σ.ours, n ≤ σ.table.last
  received : σ.received = []
  connection : σ.connection = none

/-- The system. -/
def system : TransitionSystem System Action := .ofFunction Initial step

end System

end Dashboard
