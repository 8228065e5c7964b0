import OpenCAO.PythonText
import OpenCAO.Regex
import OpenCAO.Utf8

/-!
# Capsules

A capsule is a small Markdown file that keeps one lasting preference: a header between two
lines of dashes, with an identifier, a scope, a status, two dates and a list of triggers, and
behind it a title, a rule and how to verify it. `record` writes one. It squeezes the white
space of every text, refuses what is a duplicate of another capsule, replaces the file, reads
it again, and only then keeps a receipt that the feedback was captured. `read_capsule` finds
the parts again with three regular expressions.

A directory that is not there yet is one without files. The operating system is taken not to
fail.
-/

namespace Capsules

open Text Regex

/-! ## Patterns -/

/-- `.` under `re.DOTALL`. -/
def any : Regex ℕ := .one fun _ => true

/-- `\s`. -/
def space : Regex ℕ := .one isSpace

/-- `\A---\n(.*?)\n---\n`. -/
def headerPattern : Regex ℕ :=
  .chain [.check fun before _ => before.isNone, .lit (ofString "---\n"),
    .group 1 (.star false any), .lit (ofString "\n---\n")]

def isIdHead (c : ℕ) : Bool := (0x61 ≤ c && c ≤ 0x7a) || (0x30 ≤ c && c ≤ 0x39)

def isIdLetter (c : ℕ) : Bool := isIdHead c || c == 0x2d

/-- `[a-z0-9][a-z0-9-]{1,63}\Z`. -/
def idPattern : Regex ℕ :=
  .chain [.one isIdHead, .one isIdLetter, .upTo 62 (.one isIdLetter),
    .check fun _ after => after.isNone]

/-- `(?m)^# (.+)$`. -/
def titlePattern : Regex ℕ :=
  .chain [.check fun before _ => before.all (· = 10), .lit (ofString "# "),
    .group 1 (.plus (.one (· ≠ 10))), .check fun _ after => after.all (· = 10)]

/-- A marker on a line of its own, the line breaks behind it, and then the rest. -/
def marked (marker : String) (r : Regex ℕ) : Regex ℕ :=
  .seq (.lit (ofString marker)) (.seq (.many space) (.seq (.lit [10]) r))

/-- `\n## Verification\s*\n(.+)`. -/
def verificationPattern : Regex ℕ := marked "\n## Verification" (.group 2 (.plus any))

/-- `(?s)## Rule\s*\n(.*?)\n## Verification\s*\n(.+)`. -/
def rulePattern : Regex ℕ :=
  marked "## Rule" (.seq (.group 1 (.star false any)) verificationPattern)

def scopes : List Text := ["global", "cao", "project", "task"].map ofString

/-! ## Reading -/

/-- **What is refused.** -/
inductive Refusal where
  /-- A `ValueError`. -/
  | value (message : Text)
  /-- A text that has no bytes, or bytes that are no text. -/
  | unicode
  /-- A file where a directory is wanted, or the other way round. -/
  | os
  deriving DecidableEq, Repr

/-- A refusal unless a condition holds. -/
def ensure (p : Prop) [Decidable p] (r : Refusal) : Except Refusal Unit :=
  if p then .ok () else .error r

/-- `raise ValueError` unless a condition holds. -/
def require (p : Prop) [Decidable p] (message : String) : Except Refusal Unit :=
  ensure p (.value (ofString message))

theorem ensure_eq_ok {p : Prop} [Decidable p] {r : Refusal} {u : Unit} :
    ensure p r = .ok u ↔ p := by
  unfold ensure
  split_ifs with h
  · exact iff_of_true rfl h
  · exact iff_of_false (fun h => by cases h) h

theorem require_eq_ok {p : Prop} [Decidable p] {message : String} {u : Unit} :
    require p message = .ok u ↔ p := ensure_eq_ok

theorem ok_bind {β γ : Type} (b : β) (f : β → Except Refusal γ) : Except.ok b >>= f = f b := rfl

theorem error_bind {β γ : Type} (r : Refusal) (f : β → Except Refusal γ) :
    Except.error r >>= f = .error r := rfl

theorem bind_eq_ok {β γ : Type} {x : Except Refusal β} {f : β → Except Refusal γ} {c : γ} :
    x >>= f = .ok c ↔ ∃ b, x = .ok b ∧ f b = .ok c := by
  cases x with
  | error e => exact iff_of_false (fun h => by cases h) fun ⟨b, h, _⟩ => by cases h
  | ok b => exact ⟨fun h => ⟨b, rfl, h⟩, fun ⟨_, h, h'⟩ => by cases h; exact h'⟩

/-- A day. -/
structure Date where
  year : ℕ
  month : ℕ
  day : ℕ
  deriving DecidableEq, Repr

/-- The last digit of a number. -/
def digit (n : ℕ) : ℕ := 0x30 + n % 10

/-- `date.isoformat`. -/
def Date.isoformat (d : Date) : Text :=
  [digit (d.year / 1000), digit (d.year / 100), digit (d.year / 10), digit d.year, 0x2d,
    digit (d.month / 10), digit d.month, 0x2d, digit (d.day / 10), digit d.day]

/-- **What is outside of the store**: the digest of a text, the folding of its letters, and the
clock. -/
structure Environment where
  digest : Text → Text
  fold : ℕ → List ℕ
  today : Date
  now : Text

/-- A file of the directory. -/
inductive Entry where
  | regular (bytes : List UInt8)
  | symlink
  | other
  deriving DecidableEq, Repr

/-- The header of a capsule: its triggers, and its fields with the latest first. -/
structure Metadata where
  triggers : List Text := []
  fields : List (Text × Text) := []
  deriving DecidableEq, Repr

/-- `metadata.get`. -/
def Metadata.get? (m : Metadata) (key : String) : Option Text :=
  (m.fields.find? fun f => f.1 = ofString key).map Prod.snd

/-- One line of a header. -/
def readLine (m : Metadata) (line : Text) : Metadata :=
  if ofString "- " <+: line then { m with triggers := m.triggers ++ [line.drop 2] }
  else if 0x3a ∈ line then
    let key := line.takeWhile (· ≠ 0x3a)
    let value := line.drop (key.length + 1)
    if key = ofString "triggers" then m else { m with fields := (key, strip value) :: m.fields }
  else m

/-- The lines of a header. -/
def readHeader (header : Text) : Metadata := (splitlines header).foldl readLine {}

/-- **A capsule** that was read. -/
structure Capsule where
  metadata : Metadata
  title : Text
  rule : Text
  verification : Text
  digest : Text
  deriving DecidableEq, Repr

/-- `path.stem`. -/
def stem (name : Text) : Text :=
  let front := name.rdropWhile (· ≠ 0x2e)
  if 1 < front.length ∧ front.length < name.length then front.dropLast else name

/-- The largest file that is read. -/
def sizeLimit : ℕ := 128000

/-- The title in the body of a file. -/
def titleOf (body : Text) : Option Text :=
  (search titlePattern body).map fun m => (m.rest.group? 1).getD []

/-- The rule and the verification in the body of a file. -/
def ruleOf (body : Text) : Option (Text × Text) :=
  (search rulePattern body).map fun m =>
    (strip ((m.rest.group? 1).getD []), strip ((m.rest.group? 2).getD []))

/-- `read_capsule`, from the text of the file on. -/
def readText (env : Environment) (name text : Text) : Except Refusal Capsule :=
  match matchStart headerPattern text with
  | none => .error (.value (ofString "invalid capsule metadata"))
  | some header => do
    let metadata := readHeader ((header.group? 1).getD [])
    let capsuleId := (metadata.get? "id").getD []
    require (fullmatch idPattern capsuleId = true ∧ capsuleId = stem name)
      "invalid capsule identity"
    require (∃ scope ∈ metadata.get? "scope", scope ∈ scopes) "invalid capsule scope"
    match titleOf header.after, ruleOf header.after with
    | some title, some (rule, verification) =>
      .ok { metadata, title, rule, verification, digest := env.digest text }
    | _, _ => .error (.value (ofString "invalid capsule body"))

/-- **`read_capsule`** of a path. -/
def readCapsule (env : Environment) (name : Text) : Option Entry → Except Refusal Capsule
  | some (.regular bytes) => do
    require (bytes.length ≤ sizeLimit) "invalid capsule file"
    match Utf8.decode bytes with
    | none => .error .unicode
    | some text => readText env name (universalNewlines text)
  | _ => .error (.value (ofString "invalid capsule file"))

/-! ## The store -/

/-- A row of `feedback`. -/
structure Feedback where
  id : Text
  sessionId : Text
  pending : Bool
  deriving DecidableEq, Repr

/-- A row of `captures`. -/
structure Capture where
  feedbackId : Text
  capsuleId : Text
  contentDigest : Text
  recordedAt : Text
  deriving DecidableEq, Repr

/-- What stands at a path: nothing or what is wanted there, a symbolic link, or something
else. -/
inductive Place where
  | usable
  | symlink
  | other
  deriving DecidableEq, Repr

/-- **An adaptation store**: its directories and files, and the tables of its receipts. -/
structure AdaptationStore where
  state : Place := .usable
  lock : Place := .usable
  database : Place := .usable
  capsules : Place := .usable
  files : List (Text × Entry) := []
  feedback : List Feedback := []
  captures : List Capture := []
  deriving DecidableEq, Repr

namespace AdaptationStore

/-- The file of a name. -/
def stored? (s : AdaptationStore) (name : Text) : Option Entry :=
  (s.files.find? fun f => f.1 = name).map Prod.snd

/-- `os.replace`. -/
def replace (s : AdaptationStore) (name : Text) (bytes : List UInt8) : AdaptationStore :=
  { s with files := (name, .regular bytes) :: s.files.filter fun f => f.1 ≠ name }

/-- The receipt of a capture, in the place of an earlier one. -/
def capture (s : AdaptationStore) (c : Capture) : AdaptationStore :=
  let same (d : Capture) : Bool := d.feedbackId = c.feedbackId ∧ d.capsuleId = c.capsuleId
  { s with captures :=
      if s.captures.any same then s.captures.map fun d => if same d then c else d
      else s.captures ++ [c] }

end AdaptationStore

/-! ## Recording -/

/-- What `record` is called with. -/
structure Arguments where
  capsuleId : Text
  scope : Text
  title : Text
  triggers : List Text
  rule : Text
  verification : Text
  replace : Bool := false
  feedbackId : Option Text := none
  session : Option Text := none
  expectedDigest : Option Text := none
  deriving DecidableEq, Repr

/-- `" ".join(value.split())`. -/
def squeeze (value : Text) : Text := join (split value)

/-- **`_line`**. -/
def line (field : String) (value : Text) : Except Refusal Text :=
  let value := squeeze value
  if value = [] ∨ 16000 < value.length then .error (.value (ofString ("invalid " ++ field)))
  else .ok value

/-- **`_identity`**. -/
def identity : Option Text → Except Refusal Text
  | some value =>
    if value = [] ∨ 256 < value.length ∨ ∃ c ∈ value, c < 32 then
      .error (.value (ofString "native feedback identity is unavailable"))
    else .ok value
  | none => .error (.value (ofString "native feedback identity is unavailable"))

/-- A text that is there and not empty. -/
def given (t : Option Text) : Option Text := t.filter (· ≠ [])

/-- What `transaction` checks before it begins. -/
def beginTransaction (s : AdaptationStore) : Except Refusal Unit := do
  require (s.state ≠ .symlink) "capture directory must not be a symlink"
  ensure (s.state ≠ .other) .os
  require (s.lock ≠ .symlink ∧ s.database ≠ .symlink) "capture files must not be symlinks"
  ensure (s.lock ≠ .other ∧ s.database ≠ .other) .os

/-- **`_pending_feedback`**. -/
def pendingFeedback (s : AdaptationStore) (feedbackId : Text) (session : Option Text) :
    Except Refusal Unit := do
  let session ← identity session
  ensure (feedbackId.encodable ∧ session.encodable) .unicode
  require (∃ f ∈ s.feedback, f.id = feedbackId ∧ f.sessionId = session ∧ f.pending)
    "feedback is not pending in this native session"

/-- The name of the file of a capsule. -/
def fileName (capsuleId : Text) : Text := capsuleId ++ ofString ".md"

/-- **What a capsule file says.** -/
structure Draft where
  capsuleId : Text
  scope : Text
  title : Text
  triggers : List Text
  rule : Text
  verification : Text
  created : Text
  updated : Text
  deriving DecidableEq, Repr

/-- The lines of the header. -/
def Draft.header (d : Draft) : List Text :=
  [ofString "id: " ++ d.capsuleId, ofString "status: active", ofString "scope: " ++ d.scope,
    ofString "created: " ++ d.created, ofString "updated: " ++ d.updated, ofString "triggers:"]
      ++ d.triggers.map (ofString "- " ++ ·)

/-- The text behind the header. -/
def Draft.body (d : Draft) : Text :=
  ofString "\n# " ++ d.title ++ ofString "\n\n## Rule\n\n" ++ d.rule ++
    ofString "\n\n## Verification\n\n" ++ d.verification ++ ofString "\n"

/-- **The text of a capsule file.** -/
def Draft.text (d : Draft) : Text :=
  ofString "---\nid: " ++ d.capsuleId ++ ofString "\nstatus: active\nscope: " ++ d.scope ++
    ofString "\ncreated: " ++ d.created ++ ofString "\nupdated: " ++ d.updated ++
    ofString "\ntriggers:\n" ++ joinLines (d.triggers.map (ofString "- " ++ ·)) ++
    ofString "\n---\n" ++ d.body

/-- The capsules of the other files that can be read, as `glob("*.md")` lists them. -/
def others (env : Environment) (s : AdaptationStore) (name : Text) : List Capsule :=
  (s.files.filter fun f => ofString ".md" <:+ f.1 ∧ f.1 ≠ name).filterMap fun f =>
    (readCapsule env f.1 (some f.2)).toOption

/-- An active capsule of the scope has the rule or the title already. -/
def duplicates (env : Environment) (scope rule title : Text) (c : Capsule) : Bool :=
  c.metadata.get? "status" = some (ofString "active") ∧ c.metadata.get? "scope" = some scope ∧
    (c.rule.casefold env.fold = rule.casefold env.fold ∨
      c.title.casefold env.fold = title.casefold env.fold)

/-- The capsule that is there, if there is one. -/
def existing (env : Environment) (s : AdaptationStore) (name : Text) :
    Except Refusal (Option Capsule) :=
  match s.stored? name with
  | none => .ok none
  | some e => some <$> readCapsule env name (some e)

/-- The triggers a capsule is going to have: `dict.fromkeys` keeps the first of equal ones. -/
def mergedTriggers (existing : Option Capsule) (triggers : List Text) : List Text :=
  match existing with
  | some capsule => (capsule.metadata.triggers ++ triggers).eraseDups
  | none => triggers

/-- **`record`, up to the text it is going to write.** -/
def prepare (env : Environment) (s : AdaptationStore) (a : Arguments) : Except Refusal Draft := do
  require (fullmatch idPattern a.capsuleId = true ∧ a.scope ∈ scopes ∧ a.triggers ≠ [])
    "invalid capsule identity, scope or triggers"
  let title ← line "title" a.title
  let rule ← line "rule" a.rule
  let verification ← line "verification" a.verification
  let triggers ← a.triggers.mapM (line "trigger")
  beginTransaction s
  (given a.feedbackId).forM fun feedbackId => pendingFeedback s feedbackId a.session
  require (s.capsules ≠ .symlink) "capsule directory must not be a symlink"
  ensure (s.capsules ≠ .other) .os
  let existing ← existing env s (fileName a.capsuleId)
  require (existing = none ∨ a.replace = true)
    "capsule already exists; read and update it with --replace"
  require (∀ digest ∈ given a.expectedDigest, existing.map (·.digest) = some digest)
    "capsule changed; read its current value before updating"
  let triggers := mergedTriggers existing triggers
  match (others env s (fileName a.capsuleId)).find? (duplicates env a.scope rule title) with
  | some capsule => .error (.value
      (ofString "merge existing capsule: " ++ (capsule.metadata.get? "id").getD []))
  | none =>
    let updated := env.today.isoformat
    let created := (existing.bind (·.metadata.get? "created")).getD updated
    .ok { a with title, triggers, rule, verification, created, updated }

/-- What `record` answers. -/
structure Receipt where
  id : Text
  digest : Text
  feedbackId : Option Text
  deriving DecidableEq, Repr

/-- **`record`**. What was done to the files stays done when it raises. -/
def record (env : Environment) (s : AdaptationStore) (a : Arguments) :
    Except Refusal Receipt × AdaptationStore :=
  match prepare env s a with
  | .error e => (.error e, s)
  | .ok d =>
    match Utf8.encode d.text with
    | none => (.error .unicode, s)
    | some bytes =>
      let name := fileName a.capsuleId
      let written := s.replace name bytes
      match readCapsule env name (written.stored? name) with
      | .error e => (.error e, written)
      | .ok saved =>
        if saved.digest ≠ env.digest d.text then
          (.error (.value (ofString "capsule write verification failed")), written)
        else
          (.ok ⟨a.capsuleId, saved.digest, a.feedbackId⟩,
            match given a.feedbackId with
            | some feedbackId =>
              written.capture ⟨feedbackId, a.capsuleId, saved.digest, env.now⟩
            | none => written)

end Capsules
