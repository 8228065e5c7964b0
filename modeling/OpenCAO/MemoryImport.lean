import OpenCAO.Memories

/-!
# Importing memories

The memories of a retired store are imported as historical ones. Its file is read
into a *snapshot*: rows of entries with the JSON of their earlier revisions, links
from cues to entries, and episodes. An import prepares every entry, and then, unless
it is a dry run, writes the prepared revisions and cues in one transaction.

What a dry run goes through is only the first half, in Python. The second half meets
the constraints of the tables, which are about the same texts and say something else.
-/

namespace Memories

/-! ## Snapshots -/

/-- A value of a column. -/
inductive SqlValue
  | null
  | int (n : ℤ)
  | real (repr : Text)
  | text (t : Text)
  deriving DecidableEq, Repr

/-- A value of JSON, or of a column. -/
inductive Value
  | null
  | bool (b : Bool)
  | int (n : ℤ)
  | real (repr : Text)
  | str (t : Text)
  | list (vs : List Value)
  | dict (ms : List (Text × Value))

def SqlValue.value : SqlValue → Value
  | .null => .null
  | .int n => .int n
  | .real repr => .real repr
  | .text t => .str t

/-- `str` of an integer. -/
def intText (n : ℤ) : Text := Text.ofString (toString n)

/-- `str` of a column. -/
def SqlValue.str : SqlValue → Text
  | .null => Text.ofString "None"
  | .int n => intText n
  | .real repr => repr
  | .text t => t

/-- What is true in Python. -/
def Value.truthy : Value → Bool
  | .null => false
  | .bool b => b
  | .int n => n ≠ 0
  | .real repr => repr ≠ Text.ofString "0.0" ∧ repr ≠ Text.ofString "-0.0"
  | .str t => t ≠ []
  | .list vs => !vs.isEmpty
  | .dict ms => !ms.isEmpty

/-- A row as a `dict`. -/
abbrev Row := List (Text × Value)

/-- `row.get(key)`. -/
def Row.get (row : Row) (key : String) : Value :=
  (row.lookup (Text.ofString key)).getD .null

/-- A row of `memory_entries`, or of `episodes`. -/
structure SourceRow where
  id : SqlValue
  columns : List (String × SqlValue)
  deriving DecidableEq, Repr

def SourceRow.row (r : SourceRow) : Row :=
  (Text.ofString "id", r.id.value) :: r.columns.map fun c => (Text.ofString c.1, c.2.value)

/-- A row of `cue_links`. -/
structure CueLink where
  cueText : SqlValue
  memoryId : SqlValue
  deriving DecidableEq, Repr

/-- **What was read of a retired store.** -/
structure Snapshot where
  entries : List SourceRow
  cues : List CueLink
  episodes : List SourceRow
  deriving DecidableEq, Repr

/-! ## JSON -/

/-- The escape of one code point, with `ensure_ascii=False`. -/
def jsonEscape (c : ℕ) : Text :=
  if c = 0x22 ∨ c = 0x5c then [0x5c, c]
  else if c = 0x0a then Text.ofString "\\n"
  else if c = 0x0d then Text.ofString "\\r"
  else if c = 0x09 then Text.ofString "\\t"
  else if c = 0x0c then Text.ofString "\\f"
  else if c = 0x08 then Text.ofString "\\b"
  else if c < 0x20 then
    Text.ofString "\\u00" ++ [0x30 + c / 16,
      if c % 16 < 10 then 0x30 + c % 16 else 0x57 + c % 16]
  else [c]

def jsonString (t : Text) : Text := 0x22 :: (t.flatMap jsonEscape ++ [0x22])

/-- The JSON of a `dict`, of the JSON of its values. The names are in their order. -/
def jsonObject (ms : List (String × Text)) : Text :=
  0x7b :: ([0x2c].intercalate (ms.map fun m => jsonString (Text.ofString m.1) ++ 0x3a :: m.2) ++
    [0x7d])

/-! ## Preparing -/

/-- **What is not looked into here**: the judgement of payloads, the folding of letters, the
parser of JSON, the withholding of private text, and the digests. -/
structure Hooks where
  safe : Payload → Bool
  fold : ℕ → List ℕ
  /-- `json.loads`. -/
  loads : Text → Option Value
  /-- `evidence_text` of a text. -/
  evidenceText : Text → Text
  /-- `_digest` of a list of texts. -/
  refsDigest : List Text → Text
  sourceDigest : Snapshot → String
  /-- `_digest` of an identifier. -/
  idDigest : Text → String
  /-- The identifier for an owner, a project, a source and the digest of an identifier. -/
  memoryId : String → String → String → String → String

variable (h : Hooks)

/-- `evidence_text`. -/
def Hooks.evidence : Value → Text
  | .str t => h.evidenceText t
  | _ => []

/-- Go on only under a condition. -/
def check (c : Prop) [Decidable c] (e : Error) : Except Error Unit :=
  if c then .ok () else .error e

/-- A value that has to be a text. -/
def asText : Value → Except Error Text
  | .str t => .ok t
  | _ => .error .validation

/-- A value that has to be a list of texts. -/
def asTexts : Value → Except Error (List Text)
  | .list vs => vs.mapM asText
  | _ => .error .validation

/-- `_source_json`. -/
def sourceJson : Value → Except Error Value
  | .str t =>
    match h.loads t with
    | some v => .ok v
    | none => .error .validation
  | _ => .error .validation

/-- The source references of a row. -/
def sourceRefs (row : Row) : Except Error Value :=
  match row.lookup (Text.ofString "source_refs_json") with
  | some v => sourceJson h v
  | none => .ok ((row.lookup (Text.ofString "source_refs")).getD (.list []))

/-- `_legacy_value`. -/
def legacyValue (row : Row) (episode : Option Row) : Except Error Text := do
  let refs ← asTexts (← sourceRefs h row)
  check (∀ ref ∈ refs, ref.encodable = true) .encoding
  let evidence := fun (r : Row) (key : String) => jsonString (h.evidence (r.get key))
  let episode := episode.toList.map fun e =>
    ("episode", jsonObject (["kind", "observed_at", "raw_text", "summary"].map fun key =>
      (key, evidence e key)))
  return jsonObject (episode ++ [("historical_evidence_only", Text.ofString "true"),
    ("legacy_scope", evidence row "scope"), ("memory_type", evidence row "memory_type"),
    ("observed_at", evidence row "updated_at"), ("snapshot_recorded_at", evidence row "ts"),
    ("source_refs_digest", jsonString (h.refsDigest refs)), ("value", evidence row "value")])

/-- A revision as it is to be written, with its cues. -/
structure Version where
  primary : Text
  value : Text
  cues : List Text
  deriving DecidableEq, Repr

/-- One cue of a revision. -/
def prepareCue (cue : Text) : Except Error Text := do
  let text := h.evidenceText cue
  check (text ≠ [] ∧ text.length ≤ 256) .validation
  check (h.safe (.text text) = true) .validation
  return text

/-- One round of the loop of `_prepare_entry`. -/
def prepareRevision (row : Row) (episode : Option Row) (cues : Value) : Except Error Version := do
  let primary := row.get "primary_abstraction"
  let primarySource ← asText (if primary.truthy then primary else row.get "primary")
  let source ← asText (row.get "value")
  let primary := h.evidenceText primarySource
  check (primary ≠ [] ∧ primary.length ≤ 512 ∧ source.strip ≠ []) .validation
  let value ← legacyValue h row episode
  check (value.length ≤ 64000) .validation
  check (h.safe (.dict [("primary_abstraction", .text primary), ("value", .text value)]) = true)
    .validation
  let cues ← (← asTexts cues).mapM (prepareCue h)
  return ⟨primary, value, cues⟩

/-- A cue that is kept: its normal form, its text, and the revision that brought it. -/
structure RetainedCue where
  normalized : Text
  text : Text
  revision : ℕ
  deriving DecidableEq, Repr

/-- `retained_cues.setdefault`. -/
def retain (kept : List RetainedCue) (q : RetainedCue) : List RetainedCue :=
  if kept.any (·.normalized = q.normalized) then kept else kept ++ [q]

/-- The cues of a revision. -/
def Version.retained (v : Version) (revision : ℕ) : List RetainedCue :=
  v.cues.map fun text => ⟨text.normalize h.fold, text, revision⟩

/-- The cues of all revisions, the first of which has the number `first`. -/
def offered : ℕ → List Version → List RetainedCue
  | _, [] => []
  | first, v :: vs => v.retained h first ++ offered (first + 1) vs

/-- **A prepared entry.** -/
structure Prepared where
  lifecycle : Lifecycle
  versions : List Version
  deriving DecidableEq, Repr

/-- The cues of a prepared entry. -/
def Prepared.cues (p : Prepared) : List RetainedCue := (offered h 1 p.versions).foldl retain []

def lifecycleOf : Value → Except Error Lifecycle
  | .str t =>
    if t = Text.ofString "active" then .ok .active
    else if t = Text.ofString "superseded" then .ok .superseded
    else if t = Text.ofString "deleted" then .ok .deleted
    else .error .validation
  | _ => .error .validation

/-- The rows of a history. -/
def asRows : Value → Except Error (List Row)
  | .list vs => vs.mapM fun
    | .dict ms => .ok ms
    | _ => .error .validation
  | _ => .error .validation

/-- The episode of an entry, for its present value. -/
def episodeOf (episodes : List (Text × Row)) (entry : SourceRow) :
    Except Error (Option Row) :=
  let id := (entry.columns.lookup "source_episode_id").getD .null
  if id.value.truthy then
    match episodes.lookup id.str with
    | some row => .ok (some row)
    | none => .error .validation
  else .ok (episodes.lookup id.str)

/-- The earlier revisions of an entry, each with the cues it had. -/
def historyRows (history : List Row) : List (Row × Option Row × Value) :=
  history.map fun row => (row, none, (row.lookup (Text.ofString "cues")).getD (.list []))

/-- `_prepare_entry`. -/
def prepareEntry (episodes : List (Text × Row)) (cues : List Text) (entry : SourceRow) :
    Except Error Prepared := do
  let lifecycle ← lifecycleOf (entry.row.get "lifecycle_state")
  let history ← asRows (← sourceJson h (entry.row.get "history_json"))
  let episode ← episodeOf episodes entry
  let rows := historyRows history ++ [(entry.row, episode, .list (cues.map .str))]
  let versions ← rows.mapM fun row => prepareRevision h row.1 row.2.1 row.2.2
  return ⟨lifecycle, versions⟩

/-- The episodes by their identifiers: the last of one identifier stays. -/
def Snapshot.episodesById (snapshot : Snapshot) : List (Text × Row) :=
  (snapshot.episodes.map fun e => (e.id.str, e.row)).reverse

/-- The texts of the cues, with the entries they are for. -/
def Snapshot.cueTexts (snapshot : Snapshot) : Except Error (List (Text × Text)) :=
  snapshot.cues.mapM fun link => do
    let text ← asText link.cueText.value
    return (link.memoryId.str, text)

/-- The cues of one entry. -/
def cuesFor (cues : List (Text × Text)) (id : Text) : List Text :=
  (cues.filter (·.1 = id)).map Prod.snd

/-- **Every entry, prepared.** -/
def prepareAll (snapshot : Snapshot) : Except Error (List (SourceRow × Prepared)) := do
  let cues ← snapshot.cueTexts
  let prepared ← snapshot.entries.mapM fun entry => do
    let p ← prepareEntry h snapshot.episodesById (cuesFor cues entry.id.str) entry
    return (entry, p)
  check (∀ cue ∈ cues, ∃ entry ∈ snapshot.entries, entry.id.str = cue.1) .validation
  return prepared

/-- The prepared entry of an identifier: the last one stays. -/
def preparedFor (prepared : List (SourceRow × Prepared)) (id : Text) : Option Prepared :=
  (prepared.reverse.find? fun e => e.1.id.str = id).map Prod.snd

/-! ## Importing -/

/-- The caller of an import, and the destination. -/
structure ImportCall where
  actor : String
  /-- The caller is not a conversation or a runtime. -/
  ownerLocal : Bool
  projectDigest : String
  attachmentId : String
  snapshot : Snapshot
  dryRun : Bool
  deriving DecidableEq, Repr

structure Report where
  dryRun : Bool
  sourceDigest : String
  sourceEntries : ℕ
  sourceEpisodes : ℕ
  sourceCueLinks : ℕ
  activeEntries : ℕ
  imported : ℕ
  alreadyImported : ℕ
  deriving DecidableEq, Repr

/-- `[0-9a-f]{64}`. -/
def isDigest (s : String) : Bool :=
  s.toList.length = 64 && s.toList.all fun c => c.isDigit || ('a' ≤ c && c ≤ 'f')

/-- The destination is an active conversation of the caller and of the project. -/
def Store.Destination (s : Store) (c : ImportCall) : Prop :=
  ∃ a ∈ s.world.attachments.rows, a.id = c.attachmentId ∧ a.principal = c.actor ∧
    a.projectDigest = c.projectDigest ∧ a.active = true

instance (s : Store) (c : ImportCall) : Decidable (s.Destination c) :=
  inferInstanceAs (Decidable (∃ a ∈ s.world.attachments.rows, _))

/-- The digests of an entry. -/
def ImportCall.kind (c : ImportCall) (entry : SourceRow) : Kind :=
  .legacy (h.sourceDigest c.snapshot) (h.idDigest entry.id.str)

/-- The identifier of the memory of an entry. -/
def ImportCall.memoryId (c : ImportCall) (entry : SourceRow) : String :=
  h.memoryId c.actor c.projectDigest (h.sourceDigest c.snapshot) (h.idDigest entry.id.str)

/-- The memory of an entry, at one of its revisions. -/
def ImportCall.memory (c : ImportCall) (entry : SourceRow) (p : Prepared) (revision : ℕ) :
    MemoryRow where
  id := c.memoryId h entry
  owner := c.actor
  origin := c.attachmentId
  project := c.projectDigest
  scope := .project
  kind := c.kind h entry
  lifecycle := p.lifecycle
  currentRevision := revision

/-- A revision of the memory of an entry. -/
def ImportCall.revision (c : ImportCall) (entry : SourceRow) (n : ℕ) (v : Version) :
    RevisionRow where
  memory := c.memoryId h entry
  revision := n
  primary := v.primary
  value := v.value
  source := none
  attachment := c.attachmentId
  createdBy := c.actor

def ImportCall.cue (c : ImportCall) (entry : SourceRow) (q : RetainedCue) : CueRow :=
  ⟨c.memoryId h entry, q.normalized, q.text, q.revision⟩

/-- The revisions of an entry, after the first `n`. -/
def importVersions (c : ImportCall) (entry : SourceRow) : ℕ → List Version → Tx Store Error PUnit
  | _, [] => pure ⟨⟩
  | n, v :: vs => do
    insertRevision (c.revision h entry (n + 1) v)
    Tx.when (1 < n + 1) (updateCurrentRevision (c.memoryId h entry) n (n + 1))
    importVersions c entry (n + 1) vs

/-- The writes for an entry. -/
def importPrepared (c : ImportCall) (entry : SourceRow) (p : Prepared) : Tx Store Error PUnit := do
  insertMemory (c.memory h entry p 1)
  importVersions h c entry 0 p.versions
  Tx.each insertCue ((p.cues h).map (c.cue h entry))

/-- The loop over the entries. -/
def importEntries (c : ImportCall) (prepared : List (SourceRow × Prepared)) :
    List SourceRow → Report → Tx Store Error Report
  | [], report => pure report
  | entry :: entries, report => do
    let s ← get
    match s.memories.find? fun m => m.id = c.memoryId h entry with
    | some existing =>
      Tx.require (existing.kind = c.kind h entry) .conflict
      importEntries c prepared entries { report with alreadyImported := report.alreadyImported + 1 }
    | none =>
      let p ← Tx.need (preparedFor prepared entry.id.str) .notFound
      importPrepared h c entry p
      importEntries c prepared entries { report with imported := report.imported + 1 }

/-- What is reported before anything is imported. -/
def ImportCall.newReport (c : ImportCall) (prepared : List (SourceRow × Prepared)) : Report where
  dryRun := c.dryRun
  sourceDigest := h.sourceDigest c.snapshot
  sourceEntries := c.snapshot.entries.length
  sourceEpisodes := (c.snapshot.episodesById.map Prod.fst).dedup.length
  sourceCueLinks := c.snapshot.cues.length
  activeEntries := (prepared.filter fun e => e.2.lifecycle = .active).length
  imported := 0
  alreadyImported := 0

/-- **`import_legacy_memories`.** -/
def importLegacyMemories (c : ImportCall) : Tx Store Error Report := do
  Tx.require (c.ownerLocal = true) .authorization
  let s ← get
  Tx.require (c.actor ∈ s.world.caoPrincipals) .authorization
  Tx.require (isDigest c.projectDigest = true) .validation
  Tx.require (s.Destination c) .authorization
  let prepared ← Tx.ask fun _ => prepareAll h c.snapshot
  let report := c.newReport h prepared
  if c.dryRun then pure report
  else do
    let s ← get
    Tx.require (s.Destination c) .authorization
    importEntries h c prepared c.snapshot.entries report

/-! ## Runs -/

/-- The call, as a dry run and for good. -/
def ImportCall.rehearsal (c : ImportCall) : ImportCall := { c with dryRun := true }

def ImportCall.application (c : ImportCall) : ImportCall := { c with dryRun := false }

/-- **The events**: calls of both commands, or what others do to their rows. -/
inductive ImportEvent
  | remember (c : Call)
  | others (world : World)
  | importLegacy (c : ImportCall)

def importStep (s : Store) : ImportEvent → Option Store
  | .remember c => some (Tx.commit (remember h.safe h.fold c) s)
  | .others world => if s.world.Extends world then some { s with world := world } else none
  | .importLegacy c => some (Tx.commit (importLegacyMemories h c) s)

/-- **The runs that fill a store with memories**, from one without any. -/
def imports : TransitionSystem Store ImportEvent :=
  .ofFunction (fun s => s.memories.rows = [] ∧ s.revisions.rows = [] ∧ s.cues.rows = [])
    (importStep h)

end Memories
