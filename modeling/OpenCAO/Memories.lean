import OpenCAO.PythonText
import OpenCAO.Transaction
import OpenCAO.TransitionSystem
import OpenCAO.UniqueRows
import Mathlib.Data.List.Sort

/-!
# Supervision memories

What a supervising conversation has learned is kept in memories. A memory has a
primary abstraction and a value, and both are replaced by a new *revision*, never
in place; cues of all revisions lead to it. A memory belongs to a principal, and
to the conversation it was made in or to the project of that conversation.

Three places decide who may do what with a memory. The query behind every read
compares the *project scope* of two conversations, which is the identity that is
verified; the triggers of the tables compare the *project* that a conversation was
attached with; and the search for a duplicate goes over what is visible. A
conversation that was attached before projects had a verified identity keeps its
old project when it moves to a scope.

A transaction that fails on a trigger or on a `CHECK` fails as a whole. Texts are
checked twice as well: by the model of the request in Python, and by the `CHECK`s
of the tables.
-/

namespace Memories

/-! ## Tables -/

inductive Scope
  | conversation
  | project
  deriving DecidableEq, Repr

/-- What an imported memory was in its source is kept by two digests. -/
inductive Kind
  | curated
  | legacy (sourceDigest idDigest : String)
  deriving DecidableEq, Repr

inductive Lifecycle
  | active
  | superseded
  | deleted
  deriving DecidableEq, Repr

/-- A row of `supervision_memories`. -/
structure MemoryRow where
  id : String
  owner : String
  origin : String
  project : String
  scope : Scope
  kind : Kind
  lifecycle : Lifecycle
  currentRevision : ℕ
  deriving DecidableEq, Repr

/-- The Goal of the Work that a revision comes from. -/
structure Source where
  work : String
  goalVersion : ℕ
  packetDigest : String
  deriving DecidableEq, Repr

/-- A row of `supervision_memory_revisions`. -/
structure RevisionRow where
  memory : String
  revision : ℕ
  primary : Text
  value : Text
  source : Option Source
  attachment : String
  createdBy : String
  deriving DecidableEq, Repr

/-- A row of `supervision_memory_cues`. -/
structure CueRow where
  memory : String
  normalized : Text
  text : Text
  revision : ℕ
  deriving DecidableEq, Repr

/-- The primary key, and the index of what was imported. -/
def MemoryRow.Clash (a b : MemoryRow) : Prop :=
  a.id = b.id ∨ a.kind ≠ .curated ∧ a.kind = b.kind ∧ a.owner = b.owner ∧ a.origin = b.origin

instance : DecidableRel MemoryRow.Clash := fun _ _ => inferInstanceAs (Decidable (_ ∨ _))

theorem MemoryRow.clash_symm (a b : MemoryRow) (h : a.Clash b) : b.Clash a := by
  rcases h with h | ⟨hkind, h, howner, horigin⟩
  · exact .inl h.symm
  · exact .inr ⟨h ▸ hkind, h.symm, howner.symm, horigin.symm⟩

/-- Rows of one key. -/
abbrev SameKey {α κ : Type} (key : α → κ) (a b : α) : Prop := key a = key b

def RevisionRow.key (r : RevisionRow) : String × ℕ := (r.memory, r.revision)

def CueRow.key (q : CueRow) : String × Text := (q.memory, q.normalized)

/-- An attachment of a conversation. -/
structure Attachment where
  id : String
  principal : String
  projectDigest : String
  projectScopeDigest : String
  active : Bool
  deriving DecidableEq, Repr

/-- What never changes of an attachment. -/
def Attachment.identity (a : Attachment) : String × String × String × String :=
  (a.id, a.principal, a.projectDigest, a.projectScopeDigest)

structure Work where
  id : String
  supervisor : Option String
  supervisorAttachment : Option String
  goalVersion : ℕ
  deriving DecidableEq, Repr

structure Goal where
  work : String
  version : ℕ
  packetDigest : String
  deriving DecidableEq, Repr

def Goal.key (g : Goal) : String × ℕ := (g.work, g.version)

/-- **The rows of others** that memories refer to. -/
structure World where
  /-- The principals of the role `cao`. -/
  caoPrincipals : List String
  attachments : UniqueRows Attachment (SameKey Attachment.id)
  works : UniqueRows Work (SameKey Work.id)
  goals : UniqueRows Goal (SameKey Goal.key)

namespace World

def attachment? (w : World) (id : String) : Option Attachment :=
  w.attachments.find? fun a => a.id = id

def work? (w : World) (id : String) : Option Work := w.works.find? fun v => v.id = id

def goal? (w : World) (work : String) (version : ℕ) : Option Goal :=
  w.goals.find? fun g => g.key = (work, version)

/-- The identities of the attachments stay. -/
def Extends (w w' : World) : Prop :=
  ∀ a ∈ w.attachments.rows, ∃ b ∈ w'.attachments.rows, b.identity = a.identity

instance (w w' : World) : Decidable (w.Extends w') :=
  inferInstanceAs (Decidable (∀ a ∈ w.attachments.rows, _))

end World

/-! ## Requests -/

/-- `MemoryWriteInput`. -/
structure MemoryWriteInput where
  workItemId : String
  primaryAbstraction : Text
  cueAnchors : List Text
  value : Text
  scope : Scope := .conversation
  memoryId : Option String := none
  expectedRevision : ℕ := 0
  idempotencyKey : String
  deriving DecidableEq, Repr

/-- What a command knows of its caller, and whether its credential is current. -/
structure Actor where
  id : String
  isCao : Bool
  attachment : String
  project : String
  current : Bool
  deriving DecidableEq, Repr

/-- A call, with the identifier that is drawn should it create a memory. -/
structure Call where
  actor : Actor
  request : MemoryWriteInput
  freshId : String
  deriving DecidableEq, Repr

/-- What `_metadata_tx` answers; the value is what its digest stands for. -/
structure View where
  memoryId : String
  primaryAbstraction : Text
  cueAnchors : List Text
  legacy : Bool
  scope : Scope
  lifecycle : Lifecycle
  revision : ℕ
  value : Text
  sourceWorkItemId : Option String
  deriving DecidableEq, Repr

/-- What a command answered, by its caller and its key. -/
structure ResultRow where
  actor : String
  idempotencyKey : String
  request : MemoryWriteInput
  result : View
  deriving DecidableEq, Repr

def ResultRow.key (r : ResultRow) : String × String := (r.actor, r.idempotencyKey)

/-- **The store.** -/
structure Store where
  memories : UniqueRows MemoryRow MemoryRow.Clash
  revisions : UniqueRows RevisionRow (SameKey RevisionRow.key)
  cues : UniqueRows CueRow (SameKey CueRow.key)
  results : UniqueRows ResultRow (SameKey ResultRow.key)
  world : World

inductive Error
  | authorization
  | notFound
  | conflict
  | validation
  | encoding
  | integrity
  deriving DecidableEq, Repr

/-- A value that `require_memory_safe_payload` judges. -/
inductive Payload
  | text (t : Text)
  | texts (ts : List Text)
  | dict (ms : List (String × Payload))

/-! ## Statements

Each `INSERT` and `UPDATE` comes with the triggers and the constraints of its
table. -/

/-- `supervision_memories_exact_insert` asks for this attachment. -/
def Store.OwnerBound (s : Store) (m : MemoryRow) : Prop :=
  ∃ a ∈ s.world.attachments.rows, a.id = m.origin ∧ a.principal = m.owner ∧
    m.owner ∈ s.world.caoPrincipals ∧ a.projectDigest = m.project

instance (s : Store) (m : MemoryRow) : Decidable (s.OwnerBound m) :=
  inferInstanceAs (Decidable (∃ a ∈ s.world.attachments.rows, _))

/-- The Work of a source is at this Goal, and is supervised here. -/
def World.Sourced (w : World) (r : RevisionRow) (src : Source) : Prop :=
  ∃ v ∈ w.works.rows, ∃ g ∈ w.goals.rows, g.work = v.id ∧ g.version = v.goalVersion ∧
    v.id = src.work ∧ v.supervisor = some r.createdBy ∧
    v.supervisorAttachment = some r.attachment ∧ v.goalVersion = src.goalVersion ∧
    g.packetDigest = src.packetDigest

instance (w : World) (r : RevisionRow) (src : Source) : Decidable (w.Sourced r src) :=
  inferInstanceAs (Decidable (∃ v ∈ w.works.rows, _))

/-- `supervision_memory_revisions_exact_insert` asks for this memory and attachment. -/
def Store.RevisionBound (s : Store) (r : RevisionRow) : Prop :=
  ∃ m ∈ s.memories.rows, ∃ a ∈ s.world.attachments.rows, a.id = r.attachment ∧
    m.id = r.memory ∧ m.owner = r.createdBy ∧ a.principal = m.owner ∧
    a.projectDigest = m.project ∧ (m.scope = .project ∨ a.id = m.origin) ∧
    (r.revision = m.currentRevision + 1 ∨ r.revision = 1 ∧ m.currentRevision = 1) ∧
    (m.kind ≠ .curated ∧ r.source = none ∨
      m.lifecycle = .active ∧ ∃ src ∈ r.source, s.world.Sourced r src)

instance (s : Store) (r : RevisionRow) : Decidable (s.RevisionBound r) :=
  inferInstanceAs (Decidable (∃ m ∈ s.memories.rows, _))

/-- The `CHECK`s of the texts of a revision. -/
def RevisionTexts (primary value : Text) : Prop :=
  0 < primary.sqlTrim.sqlLength ∧ primary.sqlLength ≤ 512 ∧
    0 < value.sqlTrim.sqlLength ∧ value.sqlLength ≤ 64000

instance (primary value : Text) : Decidable (RevisionTexts primary value) :=
  inferInstanceAs (Decidable (_ ∧ _))

/-- The `CHECK`s of the texts of a cue. -/
def CueTexts (normalized text : Text) : Prop :=
  0 < normalized.sqlTrim.sqlLength ∧ 0 < text.sqlTrim.sqlLength ∧ text.sqlLength ≤ 256

instance (normalized text : Text) : Decidable (CueTexts normalized text) :=
  inferInstanceAs (Decidable (_ ∧ _))

/-- `INSERT INTO supervision_memories`. -/
def insertMemory (m : MemoryRow) : Tx Store Error PUnit := do
  let s ← get
  Tx.require (m.currentRevision = 1 ∧ s.OwnerBound m) .integrity
  Tx.require (m.kind = .curated → m.lifecycle = .active) .integrity
  let memories ← Tx.need (s.memories.insert m) .integrity
  set { s with memories := memories }

/-- `INSERT INTO supervision_memory_revisions`. -/
def insertRevision (r : RevisionRow) : Tx Store Error PUnit := do
  Tx.require (r.primary.encodable ∧ r.value.encodable) .encoding
  let s ← get
  Tx.require (s.RevisionBound r) .integrity
  Tx.require (RevisionTexts r.primary r.value) .integrity
  let revisions ← Tx.need (s.revisions.insert r) .integrity
  set { s with revisions := revisions }

/-- One row of the `UPDATE` of a current revision. -/
def MemoryRow.advance (id : String) (expected revision : ℕ) (m : MemoryRow) : MemoryRow :=
  if m.id = id ∧ m.currentRevision = expected then { m with currentRevision := revision } else m

theorem MemoryRow.advance_clash {id : String} {expected revision : ℕ} (a b : MemoryRow)
    (h : (a.advance id expected revision).Clash (b.advance id expected revision)) : a.Clash b := by
  have hsame : ∀ m : MemoryRow, (m.advance id expected revision).id = m.id ∧
      (m.advance id expected revision).kind = m.kind ∧
      (m.advance id expected revision).owner = m.owner ∧
      (m.advance id expected revision).origin = m.origin := fun m => by
    unfold MemoryRow.advance
    split <;> exact ⟨rfl, rfl, rfl, rfl⟩
  unfold MemoryRow.Clash at h ⊢
  rwa [(hsame a).1, (hsame a).2.1, (hsame a).2.2.1, (hsame a).2.2.2, (hsame b).1, (hsame b).2.1,
    (hsame b).2.2.1, (hsame b).2.2.2] at h

/-- `UPDATE supervision_memories SET current_revision`, behind
`supervision_memories_revision_update`. -/
def updateCurrentRevision (id : String) (expected revision : ℕ) : Tx Store Error PUnit := do
  let s ← get
  Tx.require (∀ m ∈ s.memories.rows, m.id = id → m.currentRevision = expected →
    revision = m.currentRevision + 1 ∧
      ∃ r ∈ s.revisions.rows, r.memory = m.id ∧ r.revision = revision) .integrity
  set { s with memories :=
          s.memories.map (MemoryRow.advance id expected revision) MemoryRow.advance_clash }

/-- `INSERT INTO supervision_memory_cues … ON CONFLICT DO NOTHING`, of rows. -/
def addCue (cues : UniqueRows CueRow (SameKey CueRow.key)) (q : CueRow) :
    UniqueRows CueRow (SameKey CueRow.key) :=
  (cues.insert q).getD cues

/-- `INSERT INTO supervision_memory_cues … ON CONFLICT DO NOTHING`. -/
def insertCue (q : CueRow) : Tx Store Error PUnit := do
  Tx.require (q.normalized.encodable ∧ q.text.encodable) .encoding
  Tx.require (CueTexts q.normalized q.text) .integrity
  let s ← get
  Tx.require (∃ r ∈ s.revisions.rows, r.key = (q.memory, q.revision)) .integrity
  set { s with cues := addCue s.cues q }

/-! ## Visibility -/

/-- `_scope_tx`: the actor is an active conversation of its project. -/
def Store.InScope (s : Store) (actor : Actor) : Prop :=
  (actor.isCao = true ∧ actor.id ≠ "" ∧ actor.attachment ≠ "" ∧ actor.project ≠ "") ∧
    ∃ a ∈ s.world.attachments.rows, a.id = actor.attachment ∧ a.principal = actor.id ∧
      a.projectDigest = actor.project ∧ a.active = true

instance (s : Store) (actor : Actor) : Decidable (s.InScope actor) :=
  inferInstanceAs (Decidable (_ ∧ _))

/-- A memory with its current revision. -/
@[ext] structure VisibleRow where
  memory : MemoryRow
  revision : RevisionRow
  deriving DecidableEq, Repr

def Store.revision? (s : Store) (memory : String) (revision : ℕ) : Option RevisionRow :=
  s.revisions.find? fun r => r.key = (memory, revision)

/-- The scope of an attachment. -/
def World.scopeOf (w : World) (attachment : String) : Option String :=
  (w.attachment? attachment).map Attachment.projectScopeDigest

/-- The query's condition on a memory. -/
def Store.Sees (s : Store) (actor : Actor) (m : MemoryRow) : Prop :=
  m.owner = actor.id ∧ (s.world.scopeOf m.origin).isSome ∧
    s.world.scopeOf m.origin = s.world.scopeOf actor.attachment ∧
    (m.scope = .project ∨ m.origin = actor.attachment)

instance (s : Store) (actor : Actor) (m : MemoryRow) : Decidable (s.Sees actor m) :=
  inferInstanceAs (Decidable (_ ∧ _))

/-- `_visible_rows_tx`, of every lifecycle. -/
def visibleRows (s : Store) (actor : Actor) : List VisibleRow :=
  s.memories.rows.filterMap fun m =>
    if s.Sees actor m then (s.revision? m.id m.currentRevision).map fun r => ⟨m, r⟩ else none

/-! ## Cues -/

/-- The words that `_tokens` leaves out. -/
def stopwords : List Text :=
  ["a", "an", "and", "are", "as", "at", "be", "by", "for", "from", "in", "is", "it", "of", "on",
    "or", "that", "the", "this", "to", "with"].map Text.ofString

/-- The two classes of `_TOKEN_RE`: the second has no spaces between words. -/
def tokenClass (c : ℕ) : Option Bool :=
  if (0x41 ≤ c ∧ c ≤ 0x5a) ∨ (0x61 ≤ c ∧ c ≤ 0x7a) ∨ (0x30 ≤ c ∧ c ≤ 0x39) ∨
      c ∈ Text.ofString "_./:-" then some false
  else if (0x3040 ≤ c ∧ c ≤ 0x30ff) ∨ (0x3400 ≤ c ∧ c ≤ 0x9fff) then some true
  else none

/-- `_TOKEN_RE.finditer`: the longest stretches of one class. -/
def tokenSpans (t : Text) : List Text :=
  (t.splitBy fun a b => tokenClass a = tokenClass b).filter fun span =>
    (span.head?.bind tokenClass).isSome

/-- `_tokens`. -/
def tokens (fold : ℕ → List ℕ) (t : Text) : List Text :=
  ((tokenSpans t).map (Text.casefold fold)).filter fun token =>
    1 < token.length ∧ token ∉ stopwords

/-- `d[key] = value` of a `dict`. -/
def put (d : List (Text × Text)) (key value : Text) : List (Text × Text) :=
  if d.any (·.1 = key) then d.map fun e => if e.1 = key then (key, value) else e
  else d ++ [(key, value)]

/-- `_generated_cues`. -/
def generatedCues (fold : ℕ → List ℕ) (primary : Text) (explicit : List Text) : List Text :=
  let tokens := tokens fold primary
  let marked := tokens.filter fun token => token.any (· ∈ Text.ofString "_./:-")
  let candidates := (explicit ++ marked).take 36 ++
    (List.range (min 4 tokens.length)).map fun i => Text.join ((tokens.drop i).take 3)
  let kept := candidates.filter fun cue => cue.strip ≠ [] ∧ cue.strip.length ≤ 256
  (kept.foldl (fun d cue => put d (cue.normalize fold) cue.strip) []).map Prod.snd

/-! ## The command -/

/-- What `remember_memory` has judged of a request. -/
def writePayload (request : MemoryWriteInput) : Payload :=
  .dict [("primary_abstraction", .text request.primaryAbstraction),
    ("cue_anchors", .texts request.cueAnchors), ("value", .text request.value)]

/-- The memory that a request is about, among those that are visible. -/
def existingRow (visible : List VisibleRow) (request : MemoryWriteInput) :
    Except Error (Option VisibleRow) :=
  match request.memoryId with
  | none => if request.expectedRevision = 0 then .ok none else .error .conflict
  | some id =>
    match visible.find? fun row => row.memory.id = id with
    | none => .error .notFound
    | some row =>
      if row.memory.scope ≠ request.scope then .error .conflict
      else if row.memory.lifecycle ≠ .active then .error .conflict
      else .ok (some row)

/-- What the command has answered before under this key. -/
def recorded (s : Store) (c : Call) : Option ResultRow :=
  s.results.find? fun r => r.key = (c.actor.id, c.request.idempotencyKey)

/-- Another memory of the scope has the primary of the request, and this is new. -/
def Duplicate (fold : ℕ → List ℕ) (visible : List VisibleRow) (request : MemoryWriteInput)
    (existing : Option VisibleRow) : Prop :=
  (∀ row ∈ existing, row.revision.primary.normalize fold ≠
    request.primaryAbstraction.normalize fold) ∧
  ∃ row ∈ visible, some row.memory.id ≠ request.memoryId ∧ row.memory.scope = request.scope ∧
    row.revision.primary.normalize fold = request.primaryAbstraction.normalize fold

instance (fold : ℕ → List ℕ) (visible : List VisibleRow) (request : MemoryWriteInput)
    (existing : Option VisibleRow) : Decidable (Duplicate fold visible request existing) :=
  inferInstanceAs (Decidable (_ ∧ _))

/-- What the checks of a command come to. -/
inductive Plan
  | replay (view : View)
  | write (work : Work) (existing : Option VisibleRow)

variable (safe : Payload → Bool) (fold : ℕ → List ℕ)

/-- The checks of `remember_memory`. -/
def checkRequest (c : Call) : Tx Store Error Plan := do
  Tx.require (c.actor.isCao = true) .authorization
  Tx.require (safe (writePayload c.request) = true) .validation
  let s ← get
  Tx.require (c.actor.current = true) .authorization
  Tx.require (s.InScope c.actor) .authorization
  let work ← Tx.need (s.world.work? c.request.workItemId) .notFound
  Tx.require (c.actor.attachment ≠ "" → work.supervisorAttachment = some c.actor.attachment)
    .authorization
  Tx.require (work.supervisor = some c.actor.id ∧
    work.supervisorAttachment = some c.actor.attachment) .authorization
  let existing ← Tx.ask fun s => existingRow (visibleRows s c.actor) c.request
  match recorded s c with
  | some r =>
    Tx.require (r.request = c.request) .conflict
    pure (.replay r.result)
  | none =>
    Tx.require (∀ row ∈ existing, row.memory.currentRevision = c.request.expectedRevision)
      .conflict
    Tx.require (¬ Duplicate fold (visibleRows s c.actor) c.request existing) .conflict
    Tx.require (c.request.expectedRevision < 0x7fffffffffffffff) .conflict
    pure (.write work existing)

/-- The identifier of the memory of a call. -/
def Call.memoryId (c : Call) : String := c.request.memoryId.getD c.freshId

/-- The memory that a call creates. -/
def Call.newMemory (c : Call) : MemoryRow where
  id := c.memoryId
  owner := c.actor.id
  origin := c.actor.attachment
  project := c.actor.project
  scope := c.request.scope
  kind := .curated
  lifecycle := .active
  currentRevision := 1

/-- The revision that a call adds. -/
def Call.newRevision (c : Call) (work : Work) (goal : Goal) : RevisionRow where
  memory := c.memoryId
  revision := c.request.expectedRevision + 1
  primary := c.request.primaryAbstraction.strip
  value := c.request.value
  source := some ⟨work.id, work.goalVersion, goal.packetDigest⟩
  attachment := c.actor.attachment
  createdBy := c.actor.id

/-- The cues that a call adds. -/
def Call.newCues (c : Call) : List CueRow :=
  (generatedCues fold c.request.primaryAbstraction c.request.cueAnchors).map fun cue =>
    ⟨c.memoryId, cue.normalize fold, cue, c.request.expectedRevision + 1⟩

/-- `_cues_tx`. -/
def cuesOf (cues : UniqueRows CueRow (SameKey CueRow.key)) (memory : String) : List Text :=
  ((cues.rows.filter (·.memory = memory)).insertionSort
    fun a b => Text.before a.normalized b.normalized = true).map CueRow.text

/-- What `_metadata_tx` has judged of a memory. -/
def metadataPayload (primary : Text) (cues : List Text) : Payload :=
  .dict [("primary_abstraction", .text primary), ("cue_anchors", .texts cues)]

/-- What `_metadata_tx` answers of a row. -/
def viewOf (s : Store) (actor : Actor) (row : VisibleRow) : View where
  memoryId := row.memory.id
  primaryAbstraction := row.revision.primary
  cueAnchors := cuesOf s.cues row.memory.id
  legacy := row.memory.kind ≠ .curated
  scope := row.memory.scope
  lifecycle := row.memory.lifecycle
  revision := row.memory.currentRevision
  value := row.revision.value
  sourceWorkItemId := (row.revision.source.map Source.work).filter fun work =>
    s.world.works.rows.any fun w => w.id = work && w.supervisor = some actor.id &&
      w.supervisorAttachment = some actor.attachment

/-- `_metadata_tx`. -/
def metadata (actor : Actor) (row : VisibleRow) : Tx Store Error View := do
  let s ← get
  Tx.require (safe (metadataPayload row.revision.primary (cuesOf s.cues row.memory.id)) = true)
    .validation
  pure (viewOf s actor row)

/-- `_idempotent_put`. -/
def recordResult (c : Call) (view : View) : Tx Store Error PUnit := do
  let s ← get
  let results ← Tx.need
    (s.results.insert ⟨c.actor.id, c.request.idempotencyKey, c.request, view⟩) .integrity
  set { s with results := results }

/-- The writes of `remember_memory`. -/
def carryOut (c : Call) (work : Work) (existing : Option VisibleRow) : Tx Store Error View := do
  Tx.when (existing = none) (insertMemory c.newMemory)
  let s ← get
  let goal ← Tx.need (s.world.goal? work.id work.goalVersion) .conflict
  insertRevision (c.newRevision work goal)
  Tx.when (existing ≠ none)
    (updateCurrentRevision c.memoryId c.request.expectedRevision (c.request.expectedRevision + 1))
  Tx.each insertCue (c.newCues fold)
  let s ← get
  let row ← Tx.need ((visibleRows s c.actor).find? fun row => row.memory.id = c.memoryId) .notFound
  let view ← metadata safe c.actor row
  recordResult c view
  pure view

/-- **`remember_memory`.** -/
def remember (c : Call) : Tx Store Error View := do
  match ← checkRequest safe fold c with
  | .replay view => pure view
  | .write work existing => carryOut safe fold c work existing

/-! ## Runs -/

/-- **The events**: a call, or what others do to their rows. -/
inductive Event
  | remember (c : Call)
  | others (world : World)

def step (s : Store) : Event → Option Store
  | .remember c => some (Tx.commit (remember safe fold c) s)
  | .others world => if s.world.Extends world then some { s with world := world } else none

/-- The numbers of the revisions of a memory, as they were added. -/
def Store.history (s : Store) (memory : String) : List ℕ :=
  (s.revisions.rows.filter (·.memory = memory)).map RevisionRow.revision

/-- **A linear history**: every memory has the revisions up to its current one, and no
revision is of another memory. -/
structure Linear (s : Store) : Prop where
  begun : ∀ m ∈ s.memories.rows, 1 ≤ m.currentRevision
  dense : ∀ m ∈ s.memories.rows, s.history m.id = List.range' 1 m.currentRevision
  owned : ∀ r ∈ s.revisions.rows, ∃ m ∈ s.memories.rows, m.id = r.memory

/-- Every memory was made by a conversation of its owner, for the project of it. -/
def Attached (s : Store) : Prop :=
  ∀ m ∈ s.memories.rows, ∃ a ∈ s.world.attachments.rows,
    a.id = m.origin ∧ a.principal = m.owner ∧ a.projectDigest = m.project

/-- A store with imported memories only. -/
structure Start (s : Store) : Prop where
  linear : Linear s
  attached : Attached s
  imported : ∀ m ∈ s.memories.rows, m.kind ≠ .curated

/-- **The runs of `remember_memory`**, by any conversations. -/
def system : TransitionSystem Store Event := .ofFunction Start (step safe fold)

end Memories
