import OpenCAO.JsonText

/-!
# Sealed packets

A goal revision and an Attempt are each sealed by the digest of a packet, and
the digest is the SHA-256 of the canonical JSON of the packet. What seals is
the text: as long as the digest does not collide, two packets with one digest
have one canonical text, and then each of the values they were built from is the
same – that is what this module proves.

Keys joined the packets over time. To keep the digests of the packets that were
already sealed, a key of the later ones is left out where it has its default. A
packet therefore is a list of *columns*, each with a name and with the value
that it has in a packet, or none. Since no two columns have one name, the packet
determines every column (`columns_eq_of_sorted_eq`), the ones that are left out
included.
-/

namespace Packets

/-! ## Columns -/

/-- **The columns of a packet**: their names, and how their values are made. -/
abbrev Columns (α : Type) := List (String × (α → Option Json))

/-- **The packet**, without the columns that are left out. -/
def packet {α : Type} (columns : Columns α) (a : α) : List (String × Json) :=
  columns.filterMap fun c => (c.2 a).map fun v => (c.1, v)

variable {α : Type} {columns : Columns α} {a b : α}

theorem mem_packet {m : String × Json} :
    m ∈ packet columns a ↔ ∃ c ∈ columns, c.1 = m.1 ∧ c.2 a = some m.2 := by
  unfold packet
  rw [List.mem_filterMap]
  refine exists_congr fun c => and_congr_right fun _ => ?_
  rw [Option.map_eq_some_iff]
  constructor
  · rintro ⟨v, hv, rfl⟩
    exact ⟨rfl, hv⟩
  · rintro ⟨hname, hv⟩
    exact ⟨m.2, hv, Prod.ext hname rfl⟩

/-- The names of a packet are names of columns, in their order. -/
theorem names_packet (columns : Columns α) (a : α) :
    ((packet columns a).map Prod.fst).Sublist (columns.map Prod.fst) := by
  induction columns with
  | nil => exact .refl _
  | cons c columns ih =>
    unfold packet at ih ⊢
    rw [List.filterMap_cons]
    cases c.2 a with
    | none => exact ih.cons c.1
    | some v => exact ih.cons_cons c.1

theorem valid_packet (hnames : (columns.map Prod.fst).Nodup)
    (hvalues : ∀ c ∈ columns, ∀ v ∈ c.2 a, v.Valid) : (Json.obj (packet columns a)).Valid := by
  refine ⟨hnames.sublist (names_packet columns a), Json.validMembers_iff.mpr fun m hm => ?_⟩
  obtain ⟨c, hc, -, hv⟩ := mem_packet.mp hm
  exact hvalues c hc m.2 hv

/-- A column of one packet is found in another of the same members. -/
theorem column_of_perm (hnames : (columns.map Prod.fst).Nodup)
    (h : ((packet columns a).map Json.sortedMember).Perm
      ((packet columns b).map Json.sortedMember))
    {c : String × (α → Option Json)} (hc : c ∈ columns) {v : Json} (hv : c.2 a = some v) :
    (c.2 b).map Json.sorted = some v.sorted := by
  have hm : (c.1, v) ∈ packet columns a := mem_packet.mpr ⟨c, hc, rfl, hv⟩
  obtain ⟨n, hn, hsame⟩ := List.mem_map.mp
    (h.mem_iff.mp (List.mem_map_of_mem (f := Json.sortedMember) hm))
  obtain ⟨c', hc', hname, hv'⟩ := mem_packet.mp hn
  have hn1 : n.1 = c.1 := congrArg Prod.fst hsame
  have hn2 : n.2.sorted = v.sorted := congrArg Prod.snd hsame
  obtain rfl : c' = c := List.inj_on_of_nodup_map hnames hc' hc (hname.trans hn1)
  rw [hv', Option.map_some, hn2]

/-- **A packet determines its columns**, those that are left out included. -/
theorem columns_eq_of_sorted_eq (hnames : (columns.map Prod.fst).Nodup)
    (h : (Json.obj (packet columns a)).sorted = (Json.obj (packet columns b)).sorted) :
    ∀ c ∈ columns, (c.2 a).map Json.sorted = (c.2 b).map Json.sorted := by
  intro c hc
  have hperm := (Json.sorted_obj_eq_iff (hnames.sublist (names_packet columns a))).mp h
  cases ha : c.2 a with
  | some v => exact (column_of_perm hnames hperm hc ha).symm
  | none =>
    cases hb : c.2 b with
    | none => rfl
    | some w =>
      have := column_of_perm hnames hperm.symm hc hb
      rw [ha] at this
      cases this

/-- Packets with the same columns are the same. -/
theorem sorted_eq_of_columns_eq
    (h : ∀ c ∈ columns, (c.2 a).map Json.sorted = (c.2 b).map Json.sorted)
    (hnames : (columns.map Prod.fst).Nodup) :
    (Json.obj (packet columns a)).sorted = (Json.obj (packet columns b)).sorted := by
  refine (Json.sorted_obj_eq_iff (hnames.sublist (names_packet columns a))).mpr (.of_eq ?_)
  unfold packet
  rw [List.map_filterMap, List.map_filterMap]
  refine List.filterMap_congr fun c hc => ?_
  have hcolumn := h c hc
  have hmember : ∀ o : Option Json, (o.map fun v => (c.1, v)).map Json.sortedMember =
      (o.map Json.sorted).map fun v => (c.1, v) := fun o => by
    rw [Option.map_map, Option.map_map]
    rfl
  rw [hmember, hmember, hcolumn]

/-! ## Values -/

/-- **A mapping** with texts as keys, of values without fractions. -/
structure Mapping where
  members : List (String × Json)
  valid : (Json.obj members).Valid

namespace Mapping

def json (m : Mapping) : Json := .obj m.members

/-- The mappings are the same, whatever the order of their keys. -/
def Same (m n : Mapping) : Prop := m.json.Same n.json

theorem same_iff (m n : Mapping) : m.Same n ↔ m.json.sorted = n.json.sorted :=
  ⟨Json.sorted_eq_of_same m.valid, Json.same_of_sorted_eq m.valid⟩

end Mapping

/-- A list of texts. -/
def texts (xs : List String) : Json := .arr (xs.map .str)

/-- A text, or null. -/
def textOrNull : Option String → Json
  | none => .null
  | some s => .str s

/-- A number, or null. -/
def intOrNull : Option ℤ → Json
  | none => .null
  | some n => .int n

@[simp] theorem sorted_texts (xs : List String) : (texts xs).sorted = texts xs := by
  show Json.arr (Json.sortedElements (xs.map .str)) = _
  rw [Json.sortedElements_eq, List.map_map]
  rfl

theorem texts_inj {xs ys : List String} : texts xs = texts ys ↔ xs = ys := by
  unfold texts
  rw [Json.arr.injEq]
  exact (List.map_injective_iff.mpr fun _ _ h => Json.str.inj h).eq_iff

theorem valid_texts (xs : List String) : (texts xs).Valid := by
  refine Json.validElements_iff.mpr fun x hx => ?_
  obtain ⟨s, -, rfl⟩ := List.mem_map.mp hx
  trivial

@[simp] theorem sorted_textOrNull (o : Option String) : (textOrNull o).sorted = textOrNull o := by
  cases o <;> rfl

theorem textOrNull_inj {o p : Option String} : textOrNull o = textOrNull p ↔ o = p := by
  cases o <;> cases p <;> simp [textOrNull]

@[simp] theorem sorted_intOrNull (o : Option ℤ) : (intOrNull o).sorted = intOrNull o := by
  cases o <;> rfl

theorem intOrNull_inj {o p : Option ℤ} : intOrNull o = intOrNull p ↔ o = p := by
  cases o <;> cases p <;> simp [intOrNull]

/-! ## Goal packets -/

/-- **What a goal packet is built from.** -/
structure GoalPacketInput where
  workItemId : String
  version : ℤ
  title : String
  objective : String
  maturity : String
  acceptance : List String
  nonGoals : List String
  priority : ℤ
  requesterId : Option String
  supervisorId : Option String
  metadata : Mapping
  reason : String
  createdBy : String
  sourceIntentId : Option String
  sourceDirectiveId : Option String
  correlationId : String
  priorVersion : Option ℤ
  completionContract : String := "legacy_unclassified"
  supervisorAttachment : Option Mapping := none
  dependencies : List String := []
  managedTaskPolicy : Option Mapping := none
  workerPurpose : Option Mapping := none

/-- **The columns of a goal packet**, those that joined it last. -/
def goalColumns : Columns GoalPacketInput :=
  [("format", fun _ => some (.str "cao-goal-packet/v1")),
    ("work_item_id", fun a => some (.str a.workItemId)),
    ("version", fun a => some (.int a.version)),
    ("title", fun a => some (.str a.title)),
    ("objective", fun a => some (.str a.objective)),
    ("maturity", fun a => some (.str a.maturity)),
    ("acceptance", fun a => some (texts a.acceptance)),
    ("non_goals", fun a => some (texts a.nonGoals)),
    ("priority", fun a => some (.int a.priority)),
    ("requester_id", fun a => some (textOrNull a.requesterId)),
    ("supervisor_id", fun a => some (textOrNull a.supervisorId)),
    ("metadata", fun a => some a.metadata.json),
    ("reason", fun a => some (.str a.reason)),
    ("created_by", fun a => some (.str a.createdBy)),
    ("source_intent_id", fun a => some (textOrNull a.sourceIntentId)),
    ("source_directive_id", fun a => some (textOrNull a.sourceDirectiveId)),
    ("correlation_id", fun a => some (.str a.correlationId)),
    ("prior_version", fun a => some (intOrNull a.priorVersion)),
    ("supervisor_attachment", fun a => a.supervisorAttachment.map Mapping.json),
    ("completion_contract", fun a =>
      if a.completionContract = "legacy_unclassified" then none
      else some (.str a.completionContract)),
    ("dependencies", fun a => if a.dependencies = [] then none else some (texts a.dependencies)),
    ("managed_task_policy", fun a => a.managedTaskPolicy.map Mapping.json),
    ("worker_purpose", fun a => a.workerPurpose.map Mapping.json)]

/-- `build_goal_packet`. -/
def buildGoalPacket (a : GoalPacketInput) : Json := .obj (packet goalColumns a)

/-- **Every argument is equal**, mappings up to the order of their keys. -/
structure GoalPacketInput.Same (a b : GoalPacketInput) : Prop where
  workItemId : a.workItemId = b.workItemId
  version : a.version = b.version
  title : a.title = b.title
  objective : a.objective = b.objective
  maturity : a.maturity = b.maturity
  acceptance : a.acceptance = b.acceptance
  nonGoals : a.nonGoals = b.nonGoals
  priority : a.priority = b.priority
  requesterId : a.requesterId = b.requesterId
  supervisorId : a.supervisorId = b.supervisorId
  metadata : a.metadata.Same b.metadata
  reason : a.reason = b.reason
  createdBy : a.createdBy = b.createdBy
  sourceIntentId : a.sourceIntentId = b.sourceIntentId
  sourceDirectiveId : a.sourceDirectiveId = b.sourceDirectiveId
  correlationId : a.correlationId = b.correlationId
  priorVersion : a.priorVersion = b.priorVersion
  completionContract : a.completionContract = b.completionContract
  supervisorAttachment : Option.Rel Mapping.Same a.supervisorAttachment b.supervisorAttachment
  dependencies : a.dependencies = b.dependencies
  managedTaskPolicy : Option.Rel Mapping.Same a.managedTaskPolicy b.managedTaskPolicy
  workerPurpose : Option.Rel Mapping.Same a.workerPurpose b.workerPurpose

/-! ## Task packets -/

/-- **What a task packet is built from.** -/
structure TaskPacketInput where
  goalPacketDigestValue : String
  workItemId : String
  goalVersion : ℤ
  attemptId : String
  attemptNumber : ℤ
  workerId : String
  runtimeSessionId : Option String
  supervisorAttachment : Option Mapping := none
  dependencies : List String := []

/-- **The columns of a task packet.** -/
def taskColumns : Columns TaskPacketInput :=
  [("format", fun _ => some (.str "cao-task-packet/v1")),
    ("goal_packet_digest", fun a => some (.str a.goalPacketDigestValue)),
    ("work_item_id", fun a => some (.str a.workItemId)),
    ("goal_version", fun a => some (.int a.goalVersion)),
    ("attempt_id", fun a => some (.str a.attemptId)),
    ("attempt_number", fun a => some (.int a.attemptNumber)),
    ("worker_id", fun a => some (.str a.workerId)),
    ("runtime_session_id", fun a => some (textOrNull a.runtimeSessionId)),
    ("supervisor_attachment", fun a => a.supervisorAttachment.map Mapping.json),
    ("dependencies", fun a => if a.dependencies = [] then none else some (texts a.dependencies))]

/-- `build_task_packet`. -/
def buildTaskPacket (a : TaskPacketInput) : Json := .obj (packet taskColumns a)

/-- **Every argument is equal**, the attachment up to the order of its keys. -/
structure TaskPacketInput.Same (a b : TaskPacketInput) : Prop where
  goalPacketDigestValue : a.goalPacketDigestValue = b.goalPacketDigestValue
  workItemId : a.workItemId = b.workItemId
  goalVersion : a.goalVersion = b.goalVersion
  attemptId : a.attemptId = b.attemptId
  attemptNumber : a.attemptNumber = b.attemptNumber
  workerId : a.workerId = b.workerId
  runtimeSessionId : a.runtimeSessionId = b.runtimeSessionId
  supervisorAttachment : Option.Rel Mapping.Same a.supervisorAttachment b.supervisorAttachment
  dependencies : a.dependencies = b.dependencies

/-! ## Injectivity -/

/-- A mapping that may be left out. -/
theorem optional_mapping_iff (o p : Option Mapping) :
    (o.map Mapping.json).map Json.sorted = (p.map Mapping.json).map Json.sorted ↔
      Option.Rel Mapping.Same o p := by
  cases o with
  | none =>
    cases p with
    | none => exact ⟨fun _ => .none, fun _ => rfl⟩
    | some n => exact ⟨(fun h => by cases h), fun h => by cases h⟩
  | some m =>
    cases p with
    | none => exact ⟨(fun h => by cases h), fun h => by cases h⟩
    | some n =>
      constructor
      · intro h
        exact .some ((Mapping.same_iff m n).mpr (Option.some.inj h))
      · rintro (h | _)
        exact congrArg some ((Mapping.same_iff m n).mp h)

/-- A value that is left out where it is the default. -/
theorem optional_iff {β : Type} [DecidableEq β] {f : β → Json}
    (hf : ∀ x y, (f x).sorted = (f y).sorted ↔ x = y) (d x y : β) :
    (if x = d then none else some (f x)).map Json.sorted =
      (if y = d then none else some (f y)).map Json.sorted ↔ x = y := by
  by_cases hx : x = d
  · by_cases hy : y = d
    · simp [hx, hy]
    · rw [if_pos hx, if_neg hy]
      exact ⟨(fun h => by cases h), fun h => absurd (h ▸ hx) hy⟩
  · by_cases hy : y = d
    · rw [if_neg hx, if_pos hy]
      exact ⟨(fun h => by cases h), fun h => absurd (h ▸ hy) hx⟩
    · rw [if_neg hx, if_neg hy, Option.map_some, Option.map_some, Option.some.injEq, hf]

theorem goalColumns_nodup : (goalColumns.map Prod.fst).Nodup := by
  unfold goalColumns
  simp

theorem taskColumns_nodup : (taskColumns.map Prod.fst).Nodup := by
  unfold taskColumns
  simp

@[simp] theorem sorted_str (s : String) : (Json.str s).sorted = .str s := rfl

@[simp] theorem sorted_int (n : ℤ) : (Json.int n).sorted = .int n := rfl

theorem optional_text_iff (d x y : String) :
    (if x = d then none else some (Json.str x)).map Json.sorted =
      (if y = d then none else some (Json.str y)).map Json.sorted ↔ x = y :=
  optional_iff (f := Json.str) (fun _ _ => ⟨Json.str.inj, congrArg _⟩) d x y

theorem optional_texts_iff (d x y : List String) :
    (if x = d then none else some (texts x)).map Json.sorted =
      (if y = d then none else some (texts y)).map Json.sorted ↔ x = y :=
  optional_iff (f := texts) (fun x y => by rw [sorted_texts, sorted_texts, texts_inj]) d x y

/-- **The columns of a goal packet are its arguments.** -/
theorem goalColumns_iff (a b : GoalPacketInput) :
    (∀ c ∈ goalColumns, (c.2 a).map Json.sorted = (c.2 b).map Json.sorted) ↔ a.Same b := by
  unfold goalColumns
  simp only [List.forall_mem_cons, List.not_mem_nil, false_implies, implies_true, and_true,
    true_and, Option.map_some, Option.some.injEq, sorted_str, sorted_int, Json.str.injEq,
    Json.int.injEq, sorted_texts, texts_inj, sorted_textOrNull, textOrNull_inj, sorted_intOrNull,
    intOrNull_inj, ← Mapping.same_iff, optional_mapping_iff, optional_text_iff, optional_texts_iff]
  constructor
  · rintro ⟨h₁, h₂, h₃, h₄, h₅, h₆, h₇, h₈, h₉, h₁₀, h₁₁, h₁₂, h₁₃, h₁₄, h₁₅, h₁₆, h₁₇, h₁₈, h₁₉,
      h₂₀, h₂₁, h₂₂⟩
    exact ⟨h₁, h₂, h₃, h₄, h₅, h₆, h₇, h₈, h₉, h₁₀, h₁₁, h₁₂, h₁₃, h₁₄, h₁₅, h₁₆, h₁₇, h₁₉, h₁₈,
      h₂₀, h₂₁, h₂₂⟩
  · intro h
    exact ⟨h.1, h.2, h.3, h.4, h.5, h.6, h.7, h.8, h.9, h.10, h.11, h.12, h.13, h.14, h.15, h.16,
      h.17, h.19, h.18, h.20, h.21, h.22⟩

/-- **The columns of a task packet are its arguments.** -/
theorem taskColumns_iff (a b : TaskPacketInput) :
    (∀ c ∈ taskColumns, (c.2 a).map Json.sorted = (c.2 b).map Json.sorted) ↔ a.Same b := by
  unfold taskColumns
  simp only [List.forall_mem_cons, List.not_mem_nil, false_implies, implies_true, and_true,
    true_and, Option.map_some, Option.some.injEq, sorted_str, sorted_int, Json.str.injEq,
    Json.int.injEq, sorted_textOrNull, textOrNull_inj, optional_mapping_iff, optional_texts_iff]
  constructor
  · rintro ⟨h₁, h₂, h₃, h₄, h₅, h₆, h₇, h₈, h₉⟩
    exact ⟨h₁, h₂, h₃, h₄, h₅, h₆, h₇, h₈, h₉⟩
  · intro h
    exact ⟨h.1, h.2, h.3, h.4, h.5, h.6, h.7, h.8, h.9⟩

/-- A mapping that is there is a value. -/
theorem valid_optional (o : Option Mapping) : ∀ v ∈ o.map Mapping.json, v.Valid := by
  intro v hv
  obtain ⟨m, -, rfl⟩ := Option.map_eq_some_iff.mp hv
  exact m.valid

theorem valid_textOrNull (o : Option String) : (textOrNull o).Valid := by
  cases o <;> trivial

theorem valid_intOrNull (o : Option ℤ) : (intOrNull o).Valid := by
  cases o <;> trivial

theorem valid_goalPacket (a : GoalPacketInput) : (buildGoalPacket a).Valid := by
  refine valid_packet goalColumns_nodup ?_
  have hsome : ∀ {v : Json}, v.Valid → ∀ w ∈ some v, w.Valid := fun hv w hw =>
    Option.some.inj hw ▸ hv
  have hif : ∀ {c : Prop} [Decidable c] {v : Json}, v.Valid →
      ∀ w ∈ (if c then none else some v), w.Valid := by
    intro c _ v hv w hw
    split at hw
    · cases hw
    · exact hsome hv w hw
  unfold goalColumns
  simp only [List.forall_mem_cons, List.not_mem_nil, false_implies, implies_true, and_true]
  exact ⟨hsome trivial, hsome trivial, hsome trivial, hsome trivial, hsome trivial, hsome trivial,
    hsome (valid_texts _), hsome (valid_texts _), hsome trivial, hsome (valid_textOrNull _),
    hsome (valid_textOrNull _), hsome a.metadata.valid, hsome trivial, hsome trivial,
    hsome (valid_textOrNull _), hsome (valid_textOrNull _), hsome trivial,
    hsome (valid_intOrNull _), valid_optional _, hif trivial, hif (valid_texts _),
    valid_optional _, valid_optional _⟩

theorem valid_taskPacket (a : TaskPacketInput) : (buildTaskPacket a).Valid := by
  refine valid_packet taskColumns_nodup ?_
  have hsome : ∀ {v : Json}, v.Valid → ∀ w ∈ some v, w.Valid := fun hv w hw =>
    Option.some.inj hw ▸ hv
  have hif : ∀ w ∈ (if a.dependencies = [] then none else some (texts a.dependencies)),
      w.Valid := by
    intro w hw
    split at hw
    · cases hw
    · exact hsome (valid_texts _) w hw
  unfold taskColumns
  simp only [List.forall_mem_cons, List.not_mem_nil, false_implies, implies_true, and_true]
  exact ⟨hsome trivial, hsome trivial, hsome trivial, hsome trivial, hsome trivial, hsome trivial,
    hsome trivial, hsome (valid_textOrNull _), valid_optional _, hif⟩

/-! ## Digests -/

/-- The format that a packet names. -/
def formatOf : Json → Option String
  | .obj ms => (ms.lookup "format").bind textOf
  | _ => none
where
  textOf : Json → Option String
    | .str s => some s
    | _ => none

/-- The digest of a packet, by whatever digests texts; a packet of another format has none. -/
def packetDigest {δ : Type} (format : String) (sha256 : List Char → δ) (p : Json) : Option δ :=
  if formatOf p = some format then some (sha256 (Json.canonicalJson p)) else none

/-- `goal_packet_digest`. -/
def goalPacketDigest {δ : Type} (sha256 : List Char → δ) (p : Json) : Option δ :=
  packetDigest "cao-goal-packet/v1" sha256 p

/-- `task_packet_digest`. -/
def taskPacketDigest {δ : Type} (sha256 : List Char → δ) (p : Json) : Option δ :=
  packetDigest "cao-task-packet/v1" sha256 p

theorem goalPacketDigest_build {δ : Type} (sha256 : List Char → δ) (a : GoalPacketInput) :
    goalPacketDigest sha256 (buildGoalPacket a) =
      some (sha256 (Json.canonicalJson (buildGoalPacket a))) := by
  have hformat : formatOf (buildGoalPacket a) = some "cao-goal-packet/v1" := rfl
  rw [goalPacketDigest, packetDigest, if_pos hformat]

theorem taskPacketDigest_build {δ : Type} (sha256 : List Char → δ) (a : TaskPacketInput) :
    taskPacketDigest sha256 (buildTaskPacket a) =
      some (sha256 (Json.canonicalJson (buildTaskPacket a))) := by
  have hformat : formatOf (buildTaskPacket a) = some "cao-task-packet/v1" := rfl
  rw [taskPacketDigest, packetDigest, if_pos hformat]

/-- **Packets are sealed.** Goal packets, and likewise task packets, have one canonical text
exactly when each of their arguments is equal; a digest that does not collide carries this to
the digests; and what is read from the text of a packet is that packet. -/
theorem packets_sealed :
    (∀ a b : GoalPacketInput,
      Json.canonicalJson (buildGoalPacket a) = Json.canonicalJson (buildGoalPacket b) ↔ a.Same b) ∧
    (∀ a b : TaskPacketInput,
      Json.canonicalJson (buildTaskPacket a) = Json.canonicalJson (buildTaskPacket b) ↔ a.Same b) ∧
    (∀ {δ : Type} (sha256 : List Char → δ), Function.Injective sha256 →
      (∀ a b : GoalPacketInput, goalPacketDigest sha256 (buildGoalPacket a) =
        goalPacketDigest sha256 (buildGoalPacket b) ↔ a.Same b) ∧
      ∀ a b : TaskPacketInput, taskPacketDigest sha256 (buildTaskPacket a) =
        taskPacketDigest sha256 (buildTaskPacket b) ↔ a.Same b) ∧
    (∀ a : GoalPacketInput, ∃ p, Json.loads (Json.canonicalJson (buildGoalPacket a)) = some p ∧
      (buildGoalPacket a).Same p) ∧
    (∀ a : TaskPacketInput, ∃ p, Json.loads (Json.canonicalJson (buildTaskPacket a)) = some p ∧
      (buildTaskPacket a).Same p) := by
  have hgoal : ∀ a b : GoalPacketInput,
      Json.canonicalJson (buildGoalPacket a) = Json.canonicalJson (buildGoalPacket b) ↔
        a.Same b := fun a b => by
    rw [Json.canonicalJson_eq_iff (valid_goalPacket a) (valid_goalPacket b), ← goalColumns_iff]
    exact ⟨columns_eq_of_sorted_eq goalColumns_nodup,
      fun h => sorted_eq_of_columns_eq h goalColumns_nodup⟩
  have htask : ∀ a b : TaskPacketInput,
      Json.canonicalJson (buildTaskPacket a) = Json.canonicalJson (buildTaskPacket b) ↔
        a.Same b := fun a b => by
    rw [Json.canonicalJson_eq_iff (valid_taskPacket a) (valid_taskPacket b), ← taskColumns_iff]
    exact ⟨columns_eq_of_sorted_eq taskColumns_nodup,
      fun h => sorted_eq_of_columns_eq h taskColumns_nodup⟩
  have hread : ∀ {j : Json}, j.Valid → ∃ p, Json.loads (Json.canonicalJson j) = some p ∧
      j.Same p := fun hj =>
    ⟨_, Json.loads_canonicalJson hj, Json.same_of_sorted_eq hj (Json.sorted_sorted hj).symm⟩
  refine ⟨hgoal, htask, fun sha256 hinj => ⟨fun a b => ?_, fun a b => ?_⟩,
    fun a => hread (valid_goalPacket a), fun a => hread (valid_taskPacket a)⟩
  · rw [goalPacketDigest_build, goalPacketDigest_build, Option.some.injEq, hinj.eq_iff, hgoal]
  · rw [taskPacketDigest_build, taskPacketDigest_build, Option.some.injEq, hinj.eq_iff, htask]

/-- A mapping of a number and a text outside of the Latin letters. -/
def forward : Mapping where
  members := [("budget", .int 3), ("note", .str "é")]
  valid := ⟨by decide, trivial, trivial, trivial⟩

/-- The same mapping, with its keys in the other order. -/
def backward : Mapping where
  members := [("note", .str "é"), ("budget", .int 3)]
  valid := ⟨by decide, trivial, trivial, trivial⟩

/-- A goal packet of a mapping. -/
def sampleGoal (metadata : Mapping) : GoalPacketInput where
  workItemId := "work_1"
  version := 1
  title := "title"
  objective := "objective"
  maturity := "converging"
  acceptance := ["done"]
  nonGoals := []
  priority := 0
  requesterId := none
  supervisorId := some "principal_1"
  metadata := metadata
  reason := "initial goal"
  createdBy := "principal_1"
  sourceIntentId := none
  sourceDirectiveId := none
  correlationId := "corr_1"
  priorVersion := none

theorem sampleGoal_same : (sampleGoal forward).Same (sampleGoal backward) where
  workItemId := rfl
  version := rfl
  title := rfl
  objective := rfl
  maturity := rfl
  acceptance := rfl
  nonGoals := rfl
  priority := rfl
  requesterId := rfl
  supervisorId := rfl
  metadata := (Mapping.same_iff forward backward).mpr rfl
  reason := rfl
  createdBy := rfl
  sourceIntentId := rfl
  sourceDirectiveId := rfl
  correlationId := rfl
  priorVersion := rfl
  completionContract := rfl
  supervisorAttachment := .none
  dependencies := rfl
  managedTaskPolicy := .none
  workerPurpose := .none

/-- The order of the keys leaves the text and the digest as they are. -/
theorem packets_sealed_reordered :
    Json.canonicalJson (buildGoalPacket (sampleGoal forward)) =
        Json.canonicalJson (buildGoalPacket (sampleGoal backward)) ∧
      goalPacketDigest id (buildGoalPacket (sampleGoal forward)) =
        goalPacketDigest id (buildGoalPacket (sampleGoal backward)) :=
  ⟨(packets_sealed.1 _ _).mpr sampleGoal_same,
    ((packets_sealed.2.2.1 id Function.injective_id).1 _ _).mpr sampleGoal_same⟩

end Packets
