import OpenCAO.Memories

/-!
# The history of a memory

Whatever conversations remember, the revisions of a memory are numbered without a
gap and stay as they are; what expects a revision that is not the current one
changes nothing; and what a conversation sees in one scope has different
primaries. All three go through one description of what a call does
(`remember_ensures`): it answers what it has recorded, or its checks are passed
(`Admits`) and it writes one revision (`Wrote`).

The checks do not say, however, that the writes succeed. A memory of a project is
seen by the conversations of the *scope* of the project, and the trigger on its
revisions asks for a conversation of the *project*. `commits_iff` says when an
update that the service lets through commits.
-/

namespace Memories

variable {safe : Payload → Bool} {fold : ℕ → List ℕ} {s s' : Store} {c : Call}

/-! ## What is visible -/

theorem mem_visibleRows {actor : Actor} {row : VisibleRow} :
    row ∈ visibleRows s actor ↔ row.memory ∈ s.memories.rows ∧ s.Sees actor row.memory ∧
      s.revision? row.memory.id row.memory.currentRevision = some row.revision := by
  unfold visibleRows
  rw [List.mem_filterMap]
  constructor
  · rintro ⟨m, hm, h⟩
    obtain ⟨hsees, h⟩ := Option.ite_none_right_eq_some.mp h
    obtain ⟨r, hr, rfl⟩ := Option.map_eq_some_iff.mp h
    exact ⟨hm, hsees, hr⟩
  · rintro ⟨hm, hsees, hr⟩
    refine ⟨row.memory, hm, ?_⟩
    rw [if_pos hsees, hr]
    rfl

theorem sameKey_symm {α κ : Type} {key : α → κ} (a b : α) (h : SameKey key a b) :
    SameKey key b a := h.symm

/-- The revision of a key is the row that has it. -/
theorem revision?_of_mem {r : RevisionRow} (hr : r ∈ s.revisions.rows) {id : String} {n : ℕ}
    (hkey : r.key = (id, n)) : s.revision? id n = some r :=
  s.revisions.find?_of_mem sameKey_symm (fun a b ha hb => by
    have ha : a.key = (id, n) := of_decide_eq_true ha
    have hb : b.key = (id, n) := of_decide_eq_true hb
    exact ha.trans hb.symm) hr (decide_eq_true hkey)

theorem of_revision? {id : String} {n : ℕ} {r : RevisionRow} (h : s.revision? id n = some r) :
    r ∈ s.revisions.rows ∧ r.memory = id ∧ r.revision = n := by
  obtain ⟨hr, hkey⟩ := UniqueRows.of_find? h
  have hkey : r.key = (id, n) := of_decide_eq_true hkey
  exact ⟨hr, congrArg Prod.fst hkey, congrArg Prod.snd hkey⟩

/-- Memories of one identifier are one. -/
theorem memory_eq {m n : MemoryRow} (hm : m ∈ s.memories.rows) (hn : n ∈ s.memories.rows)
    (h : m.id = n.id) : m = n :=
  s.memories.eq_of_clash MemoryRow.clash_symm hm hn (.inl h)

theorem attachment_eq {w : World} {a b : Attachment} (ha : a ∈ w.attachments.rows)
    (hb : b ∈ w.attachments.rows) (h : a.id = b.id) : a = b :=
  w.attachments.eq_of_clash sameKey_symm ha hb h

theorem attachment?_of_mem {w : World} {a : Attachment} (ha : a ∈ w.attachments.rows) :
    w.attachment? a.id = some a :=
  w.attachments.find?_of_mem sameKey_symm (fun b d hb hd =>
    (of_decide_eq_true hb : b.id = a.id).trans (of_decide_eq_true hd : d.id = a.id).symm) ha
    (decide_eq_true rfl)

/-! ## What the checks let through -/

variable (safe fold) in
/-- **The checks of a call are passed**, and its key is new. -/
structure Admits (c : Call) (s : Store) (work : Work) (existing : Option VisibleRow) : Prop where
  role : c.actor.isCao = true
  payload : safe (writePayload c.request) = true
  current : c.actor.current = true
  scope : s.InScope c.actor
  found : s.world.work? c.request.workItemId = some work
  ours : work.supervisor = some c.actor.id ∧
    work.supervisorAttachment = some c.actor.attachment
  listed : existingRow (visibleRows s c.actor) c.request = .ok existing
  fresh : recorded s c = none
  revision : ∀ row ∈ existing, row.memory.currentRevision = c.request.expectedRevision
  apart : ¬ Duplicate fold (visibleRows s c.actor) c.request existing
  limit : c.request.expectedRevision < 0x7fffffffffffffff

/-- The plan is sound for the state it was made in. -/
def Plan.Sound (safe : Payload → Bool) (fold : ℕ → List ℕ) (c : Call) (s : Store) : Plan → Prop
  | .replay view => ∃ r, recorded s c = some r ∧ r.request = c.request ∧ r.result = view
  | .write work existing => Admits safe fold c s work existing

theorem checkRequest_ensures : Tx.Ensures s (checkRequest safe fold c) fun plan t =>
    t = s ∧ plan.Sound safe fold c s := by
  unfold checkRequest
  refine .require fun hrole => .require fun hsafe => .get ?_
  refine .require fun hcurrent => .require fun hscope => .need fun work hwork => ?_
  refine .require fun _ => .require fun hours => .ask fun existing hexisting => ?_
  cases hrecorded : recorded s c with
  | some r =>
    exact .require fun hsame => ⟨rfl, r, hrecorded, hsame, rfl⟩
  | none =>
    exact .require fun hrevision => .require fun hapart => .require fun hlimit =>
      ⟨rfl, hrole, hsafe, hcurrent, hscope, hwork, hours, hexisting, hrecorded, hrevision, hapart,
        hlimit⟩

theorem checkRequest_of {work : Work} {existing : Option VisibleRow}
    (h : Admits safe fold c s work existing) :
    checkRequest safe fold c s = .ok (.write work existing, s) := by
  unfold checkRequest
  rw [Tx.require_bind h.role, Tx.require_bind h.payload, Tx.run_bind (s := s) (b := s) rfl,
    Tx.require_bind h.current, Tx.require_bind h.scope, Tx.need_bind h.found,
    Tx.require_bind (fun _ => h.ours.2), Tx.require_bind h.ours, Tx.ask_bind, h.listed]
  show (_ : Tx Store Error Plan) s = _
  rw [h.fresh]
  show (_ : Tx Store Error Plan) s = _
  rw [Tx.require_bind h.revision, Tx.require_bind h.apart, Tx.require_bind h.limit]
  rfl

/-! ## What the writes leave -/

/-- A new memory. -/
theorem insertMemory_ensures (m : MemoryRow) : Tx.Ensures s (insertMemory m) fun _ t =>
    s.OwnerBound m ∧ ∃ memories, s.memories.insert m = some memories ∧
      t = { s with memories := memories } := by
  unfold insertMemory
  exact .get (.require fun hbound => .require fun _ => .need fun memories hmemories =>
    ⟨hbound.2, memories, hmemories, rfl⟩)

theorem insertRevision_ensures (r : RevisionRow) : Tx.Ensures s (insertRevision r) fun _ t =>
    (r.primary.encodable ∧ r.value.encodable) ∧ s.RevisionBound r ∧
      RevisionTexts r.primary r.value ∧ ∃ revisions, s.revisions.insert r = some revisions ∧
        t = { s with revisions := revisions } := by
  unfold insertRevision
  exact .require fun hencodable => .get (.require fun hbound => .require fun htexts =>
    .need fun revisions hrevisions => ⟨hencodable, hbound, htexts, revisions, hrevisions, rfl⟩)

theorem insertRevision_of {r : RevisionRow} (hencodable : r.primary.encodable ∧ r.value.encodable)
    (hbound : s.RevisionBound r) (htexts : RevisionTexts r.primary r.value)
    {revisions : UniqueRows RevisionRow (SameKey RevisionRow.key)}
    (hinsert : s.revisions.insert r = some revisions) :
    insertRevision r s = .ok (⟨⟩, { s with revisions := revisions }) := by
  unfold insertRevision
  rw [Tx.require_bind hencodable, Tx.run_bind (s := s) (b := s) rfl, Tx.require_bind hbound,
    Tx.require_bind htexts, Tx.need_bind hinsert]
  rfl

/-- The store after a current revision was moved on. -/
def Store.advanced (s : Store) (id : String) (expected revision : ℕ) : Store :=
  { s with memories :=
      s.memories.map (MemoryRow.advance id expected revision) MemoryRow.advance_clash }

theorem updateCurrentRevision_ensures (id : String) (expected revision : ℕ) :
    Tx.Ensures s (updateCurrentRevision id expected revision) fun _ t =>
      t = s.advanced id expected revision := by
  unfold updateCurrentRevision
  exact .get (.require fun _ => rfl)

/-- What a cue has to meet to be stored. -/
def CueRow.Storable (q : CueRow) : Prop :=
  (q.normalized.encodable ∧ q.text.encodable) ∧ CueTexts q.normalized q.text

theorem insertCue_ensures (q : CueRow) : Tx.Ensures s (insertCue q) fun _ t =>
    q.Storable ∧ t = { s with cues := addCue s.cues q } := by
  unfold insertCue
  exact .require fun hencodable => .require fun htexts => .get (.require fun _ =>
    ⟨⟨hencodable, htexts⟩, rfl⟩)

/-- The loop over the cues only adds cues, and each of them can be stored. -/
theorem insertCues_ensures (qs : List CueRow) (s : Store) :
    Tx.Ensures s (Tx.each insertCue qs) fun _ t =>
      (∀ q ∈ qs, q.Storable) ∧ t = { s with cues := qs.foldl addCue s.cues } := by
  induction qs generalizing s with
  | nil => exact ⟨List.forall_mem_nil _, rfl⟩
  | cons q qs ih =>
    show Tx.Ensures s (insertCue q >>= fun _ => Tx.each insertCue qs) _
    refine (insertCue_ensures q).bind fun _ t ht => ?_
    obtain ⟨hq, rfl⟩ := ht
    exact (ih _).mono fun _ u hu => ⟨List.forall_mem_cons.mpr ⟨hq, hu.1⟩, hu.2⟩

/-- Cues that can be stored, of a revision that is there, are stored. -/
theorem insertCues_of {qs : List CueRow} (hstorable : ∀ q ∈ qs, q.Storable)
    (hrevision : ∀ q ∈ qs, ∃ r ∈ s.revisions.rows, r.key = (q.memory, q.revision)) :
    Tx.each insertCue qs s = .ok (⟨⟩, { s with cues := qs.foldl addCue s.cues }) := by
  induction qs generalizing s with
  | nil => rfl
  | cons q qs ih =>
    rw [List.forall_mem_cons] at hstorable hrevision
    have hq : insertCue q s = .ok (⟨⟩, { s with cues := addCue s.cues q }) := by
      unfold insertCue
      rw [Tx.require_bind hstorable.1.1, Tx.require_bind hstorable.1.2,
        Tx.run_bind (s := s) (b := s) rfl, Tx.require_bind hrevision.1]
      rfl
    show (insertCue q >>= fun _ => Tx.each insertCue qs) s = _
    rw [Tx.run_bind hq]
    exact ih hstorable.2 hrevision.2

theorem metadata_ensures (actor : Actor) (row : VisibleRow) :
    Tx.Ensures s (metadata safe actor row) fun view t => t = s ∧ view = viewOf s actor row := by
  unfold metadata
  exact .get (.require fun _ => ⟨rfl, rfl⟩)

theorem recordResult_ensures (view : View) : Tx.Ensures s (recordResult c view) fun _ t =>
    ∃ results, t = { s with results := results } := by
  unfold recordResult
  exact .get (.need fun results _ => ⟨results, rfl⟩)

/-- **What a command wrote**: one revision, to a new memory or to one it found, and cues. -/
structure Wrote (fold : ℕ → List ℕ) (c : Call) (work : Work) (existing : Option VisibleRow)
    (s s' : Store) (goal : Goal) : Prop where
  current : s.world.goal? work.id work.goalVersion = some goal
  world : s'.world = s.world
  created : existing = none → s.OwnerBound c.newMemory ∧
    (∀ m ∈ s.memories.rows, m.id ≠ c.memoryId) ∧
    s'.memories.rows = s.memories.rows ++ [c.newMemory]
  updated : existing ≠ none → s.RevisionBound (c.newRevision work goal) ∧
    s'.memories.rows = s.memories.rows.map (MemoryRow.advance c.memoryId
      c.request.expectedRevision (c.request.expectedRevision + 1))
  revisions : s'.revisions.rows = s.revisions.rows ++ [c.newRevision work goal]
  texts : RevisionTexts c.request.primaryAbstraction.strip c.request.value
  encodable : c.request.primaryAbstraction.strip.encodable ∧ c.request.value.encodable
  cues : ∀ q ∈ c.newCues fold, q.Storable
  added : s'.cues = (c.newCues fold).foldl addCue s.cues

theorem not_clash_id {m n : MemoryRow} (h : ¬ m.Clash n) : m.id ≠ n.id := fun hid => h (.inl hid)

theorem carryOut_ensures (work : Work) (existing : Option VisibleRow) :
    Tx.Ensures s (carryOut safe fold c work existing) fun _ t =>
      ∃ goal, Wrote fold c work existing s t goal := by
  unfold carryOut
  refine .bind (P := fun _ t => t.world = s.world ∧ t.revisions = s.revisions ∧ t.cues = s.cues ∧
    (existing = none → s.OwnerBound c.newMemory ∧ (∀ m ∈ s.memories.rows, m.id ≠ c.memoryId) ∧
      t.memories.rows = s.memories.rows ++ [c.newMemory]) ∧ (existing ≠ none → t = s)) ?_ ?_
  · unfold Tx.when
    split
    case isTrue hnone =>
      refine (insertMemory_ensures c.newMemory).mono fun _ t ht => ?_
      obtain ⟨hbound, memories, hinsert, rfl⟩ := ht
      exact ⟨rfl, rfl, rfl, fun _ => ⟨hbound, fun m hm =>
        not_clash_id (UniqueRows.not_clash_of_insert hinsert m hm),
        UniqueRows.rows_insert hinsert⟩, fun hsome => absurd hnone hsome⟩
    case isFalse hsome => exact ⟨rfl, rfl, rfl, fun hnone => absurd hnone hsome, fun _ => rfl⟩
  intro _ t ⟨hworld, hrevisions, htcues, hcreated, hfound⟩
  refine .get (.need fun goal hgoal => ?_)
  refine (insertRevision_ensures _).bind fun _ u hu => ?_
  obtain ⟨hencodable, hbound, htexts, revisions, hinsert, rfl⟩ := hu
  refine .bind (P := fun _ u => u.world = s.world ∧ u.cues = s.cues ∧
    u.revisions.rows = s.revisions.rows ++ [c.newRevision work goal] ∧
    (existing = none → u.memories = t.memories) ∧ (existing ≠ none → u.memories.rows =
      s.memories.rows.map (MemoryRow.advance c.memoryId c.request.expectedRevision
        (c.request.expectedRevision + 1)))) ?_ ?_
  · have hrows : revisions.rows = s.revisions.rows ++ [c.newRevision work goal] := by
      rw [UniqueRows.rows_insert hinsert, hrevisions]
    unfold Tx.when
    split
    case isTrue hsome =>
      refine (updateCurrentRevision_ensures _ _ _).mono fun _ u hu => ?_
      subst hu
      refine ⟨hworld, htcues, hrows, fun hnone => absurd hnone hsome, fun _ => ?_⟩
      rw [hfound hsome]
      rfl
    case isFalse hnone =>
      exact ⟨hworld, htcues, hrows, fun _ => rfl, fun hsome => absurd hsome hnone⟩
  intro _ u ⟨huworld, hucues, hurevisions, hunone, husome⟩
  refine (insertCues_ensures _ _).bind fun _ v hv => ?_
  obtain ⟨hcues, rfl⟩ := hv
  refine .get (.need fun row _ => (metadata_ensures _ _).bind fun view w hw => ?_)
  obtain ⟨rfl, -⟩ := hw
  refine (recordResult_ensures view).bind fun _ x hx => ?_
  obtain ⟨results, rfl⟩ := hx
  refine ⟨goal, hworld ▸ hgoal, huworld, fun hnone => ?_, fun hsome => ⟨?_, husome hsome⟩,
    hurevisions, htexts, hencodable, hcues, congrArg (List.foldl addCue · _) hucues⟩
  · obtain ⟨howner, hfresh, hrows⟩ := hcreated hnone
    exact ⟨howner, hfresh, (congrArg UniqueRows.rows (hunone hnone)).trans hrows⟩
  · rw [← hfound hsome]
    exact hbound

/-- **What a call does**: it answers what it has recorded, or its checks are passed and it
writes. -/
theorem remember_ensures : Tx.Ensures s (remember safe fold c) fun view t =>
    (t = s ∧ ∃ r, recorded s c = some r ∧ r.request = c.request ∧ r.result = view) ∨
      ∃ work existing goal, Admits safe fold c s work existing ∧
        Wrote fold c work existing s t goal := by
  unfold remember
  refine checkRequest_ensures.bind fun plan t ht => ?_
  obtain ⟨rfl, hsound⟩ := ht
  cases plan with
  | replay view => exact .inl ⟨rfl, hsound⟩
  | write work existing =>
    refine (carryOut_ensures work existing).mono fun _ u hu => .inr ?_
    obtain ⟨goal, hwrote⟩ := hu
    exact ⟨work, existing, goal, hsound, hwrote⟩

/-- The memory that a request names is visible, active and of the scope of the request. -/
theorem of_existingRow {visible : List VisibleRow} {request : MemoryWriteInput} {row : VisibleRow}
    (h : existingRow visible request = .ok (some row)) :
    request.memoryId = some row.memory.id ∧ row ∈ visible ∧
      row.memory.scope = request.scope ∧ row.memory.lifecycle = .active := by
  unfold existingRow at h
  split at h
  · split at h <;> cases h
  case h_2 id hid =>
    split at h
    · cases h
    case h_2 found hfound =>
      split at h
      · cases h
      case isFalse hscope =>
        split at h
        · cases h
        case isFalse hlifecycle =>
          obtain rfl : found = row := Option.some.inj (Except.ok.inj h)
          have hrow : found.memory.id = id := by simpa using List.find?_some hfound
          exact ⟨hid.trans (congrArg some hrow.symm), List.mem_of_find?_eq_some hfound,
            not_not.mp hscope, not_not.mp hlifecycle⟩

/-- A request of no memory makes one. -/
theorem of_existingRow_none {visible : List VisibleRow} {request : MemoryWriteInput}
    (h : existingRow visible request = .ok none) :
    request.memoryId = none ∧ request.expectedRevision = 0 := by
  unfold existingRow at h
  split at h
  case h_1 hid =>
    split at h
    case isTrue hzero => exact ⟨hid, hzero⟩
    · cases h
  · split at h
    · cases h
    · split at h
      · cases h
      · split at h <;> cases h

theorem Admits.row {work : Work} {row : VisibleRow} (h : Admits safe fold c s work (some row)) :
    c.memoryId = row.memory.id ∧ row ∈ visibleRows s c.actor ∧
      row.memory.scope = c.request.scope ∧ row.memory.lifecycle = .active := by
  obtain ⟨hid, hrest⟩ := of_existingRow h.listed
  refine ⟨?_, hrest⟩
  unfold Call.memoryId
  rw [hid]
  rfl

/-! ## Moving a memory on -/

namespace MemoryRow

variable {id : String} {expected revision : ℕ} {m : MemoryRow}

theorem advance_of (hid : m.id = id) (hcurrent : m.currentRevision = expected) :
    m.advance id expected revision = { m with currentRevision := revision } :=
  if_pos ⟨hid, hcurrent⟩

theorem advance_of_ne (hid : m.id ≠ id) : m.advance id expected revision = m :=
  if_neg fun h => hid h.1

@[simp] theorem advance_id : (m.advance id expected revision).id = m.id := by
  unfold advance
  split <;> rfl

@[simp] theorem advance_owner : (m.advance id expected revision).owner = m.owner := by
  unfold advance
  split <;> rfl

@[simp] theorem advance_origin : (m.advance id expected revision).origin = m.origin := by
  unfold advance
  split <;> rfl

@[simp] theorem advance_project : (m.advance id expected revision).project = m.project := by
  unfold advance
  split <;> rfl

@[simp] theorem advance_scope : (m.advance id expected revision).scope = m.scope := by
  unfold advance
  split <;> rfl

@[simp] theorem advance_kind : (m.advance id expected revision).kind = m.kind := by
  unfold advance
  split <;> rfl

end MemoryRow

/-! ## A linear history -/

theorem history_append_of_ne {id : String} {r : RevisionRow}
    (hrows : s'.revisions.rows = s.revisions.rows ++ [r]) (h : r.memory ≠ id) :
    s'.history id = s.history id := by
  unfold Store.history
  rw [hrows, List.filter_append, List.filter_singleton, decide_eq_false h, cond_false,
    List.append_nil]

theorem history_append {r : RevisionRow} (hrows : s'.revisions.rows = s.revisions.rows ++ [r]) :
    s'.history r.memory = s.history r.memory ++ [r.revision] := by
  unfold Store.history
  rw [hrows, List.filter_append, List.filter_singleton, decide_eq_true rfl, cond_true,
    List.map_append, List.map_singleton]

/-- No revision is of a memory that is not there. -/
theorem Linear.history_eq_nil (hs : Linear s) {id : String} (h : ∀ m ∈ s.memories.rows, m.id ≠ id) :
    s.history id = [] := by
  unfold Store.history
  rw [List.map_eq_nil_iff, List.filter_eq_nil_iff]
  intro r hr hmemory
  obtain ⟨m, hm, hid⟩ := hs.owned r hr
  exact h m hm (hid.trans (of_decide_eq_true hmemory))

/-- **A new memory has its first revision.** -/
theorem Linear.created {work : Work} {goal : Goal} (hs : Linear s)
    (hadmits : Admits safe fold c s work none) (h : Wrote fold c work none s s' goal) :
    Linear s' := by
  obtain ⟨-, hfresh, hmemories⟩ := h.created rfl
  have hfirst : c.request.expectedRevision = 0 := (of_existingRow_none hadmits.listed).2
  have hnew : s'.history c.memoryId = [1] := by
    have := history_append h.revisions
    rw [show (c.newRevision work goal).memory = c.memoryId from rfl, hs.history_eq_nil hfresh,
      show (c.newRevision work goal).revision = 1 from congrArg (· + 1) hfirst] at this
    exact this
  refine ⟨fun m hm => ?_, fun m hm => ?_, fun r hr => ?_⟩
  · rw [hmemories, List.mem_append, List.mem_singleton] at hm
    rcases hm with hm | rfl
    · exact hs.begun m hm
    · exact le_refl 1
  · rw [hmemories, List.mem_append, List.mem_singleton] at hm
    rcases hm with hm | rfl
    · rw [history_append_of_ne h.revisions fun hid => hfresh m hm hid.symm]
      exact hs.dense m hm
    · exact hnew
  · rw [hmemories]
    rw [h.revisions, List.mem_append, List.mem_singleton] at hr
    rcases hr with hr | rfl
    · obtain ⟨m, hm, hid⟩ := hs.owned r hr
      exact ⟨m, List.mem_append_left _ hm, hid⟩
    · exact ⟨c.newMemory, List.mem_append_right _ (List.mem_singleton_self _), rfl⟩

/-- **A memory that is updated has one more revision**, the next one. -/
theorem Linear.updated {work : Work} {goal : Goal} {row : VisibleRow} (hs : Linear s)
    (hadmits : Admits safe fold c s work (some row))
    (h : Wrote fold c work (some row) s s' goal) : Linear s' := by
  obtain ⟨-, hmemories⟩ := h.updated (Option.some_ne_none _)
  obtain ⟨hid, hvisible, -⟩ := hadmits.row
  have hrow : row.memory ∈ s.memories.rows := (mem_visibleRows.mp hvisible).1
  have hcurrent : row.memory.currentRevision = c.request.expectedRevision :=
    hadmits.revision row rfl
  refine ⟨fun m' hm' => ?_, fun m' hm' => ?_, fun r hr => ?_⟩
  · rw [hmemories, List.mem_map] at hm'
    obtain ⟨m, hm, rfl⟩ := hm'
    unfold MemoryRow.advance
    split
    · exact Nat.le_add_left 1 _
    · exact hs.begun m hm
  · rw [hmemories, List.mem_map] at hm'
    obtain ⟨m, hm, rfl⟩ := hm'
    rw [MemoryRow.advance_id]
    by_cases hsame : m.id = c.memoryId
    · obtain rfl : m = row.memory := memory_eq hm hrow (hsame.trans hid)
      rw [MemoryRow.advance_of hsame hcurrent, hsame]
      have := history_append h.revisions
      rw [show (c.newRevision work goal).memory = c.memoryId from rfl, ← hsame,
        hs.dense _ hm, hcurrent] at this
      rw [← hsame, this]
      show _ = List.range' 1 (c.request.expectedRevision + 1)
      rw [List.range'_1_concat, Nat.add_comm 1]
      rfl
    · rw [MemoryRow.advance_of_ne hsame,
        history_append_of_ne h.revisions fun hmemory => hsame hmemory.symm]
      exact hs.dense m hm
  · rw [h.revisions, List.mem_append, List.mem_singleton] at hr
    rw [hmemories]
    have hkept : ∀ m ∈ s.memories.rows, ∃ m' ∈ s.memories.rows.map (MemoryRow.advance c.memoryId
        c.request.expectedRevision (c.request.expectedRevision + 1)), m'.id = m.id :=
      fun m hm => ⟨_, List.mem_map_of_mem hm, MemoryRow.advance_id⟩
    rcases hr with hr | rfl
    · obtain ⟨m, hm, hmid⟩ := hs.owned r hr
      obtain ⟨m', hm', hsame⟩ := hkept m hm
      exact ⟨m', hm', hsame.trans hmid⟩
    · obtain ⟨m', hm', hsame⟩ := hkept row.memory hrow
      exact ⟨m', hm', hsame.trans hid.symm⟩

theorem Linear.wrote {work : Work} {goal : Goal} {existing : Option VisibleRow} (hs : Linear s)
    (hadmits : Admits safe fold c s work existing)
    (h : Wrote fold c work existing s s' goal) : Linear s' := by
  cases existing with
  | none => exact hs.created hadmits h
  | some row => exact hs.updated hadmits h

/-! ## Primaries apart -/

/-- Two memories that a conversation that sees one and is of its scope sees both of. -/
def World.Together (w : World) (m n : MemoryRow) : Prop :=
  m.owner = n.owner ∧ m.scope = n.scope ∧ w.scopeOf m.origin = w.scopeOf n.origin ∧
    (m.scope = .project ∨ m.origin = n.origin)

theorem World.Together.symm {w : World} {m n : MemoryRow} (h : w.Together m n) :
    w.Together n m := by
  obtain ⟨howner, hscope, horigins, h⟩ := h
  exact ⟨howner.symm, hscope.symm, horigins.symm,
    h.imp (fun h => hscope.symm.trans h) Eq.symm⟩

/-- **No two curated memories that are seen together have one primary.** -/
def Apart (fold : ℕ → List ℕ) (s : Store) : Prop :=
  ∀ m ∈ s.memories.rows, ∀ n ∈ s.memories.rows, m.kind = .curated → n.kind = .curated →
    s.world.Together m n → ∀ r ∈ s.revisions.rows, ∀ q ∈ s.revisions.rows,
      r.key = (m.id, m.currentRevision) → q.key = (n.id, n.currentRevision) →
      r.primary.normalize fold = q.primary.normalize fold → m.id = n.id

theorem scopeOf_of_mem {w : World} {a : Attachment} (ha : a ∈ w.attachments.rows) :
    w.scopeOf a.id = some a.projectScopeDigest := by
  unfold World.scopeOf
  rw [attachment?_of_mem ha]
  rfl

/-- A memory that is together with one that the actor sees is seen. -/
theorem sees_of_together {actor : Actor} {m n : MemoryRow} (hm : s.Sees actor m)
    (h : s.world.Together m n) : s.Sees actor n := by
  obtain ⟨howner, hsome, hscopes, hplace⟩ := hm
  obtain ⟨howners, hscope, horigins, hrest⟩ := h
  refine ⟨howners.symm.trans howner, horigins ▸ hsome, horigins.symm.trans hscopes, ?_⟩
  rcases hrest with hproject | horigin
  · exact .inl (hscope.symm.trans hproject)
  · exact hplace.imp (fun h => hscope.symm.trans h) fun h => horigin.symm.trans h

/-- **A primary that was let through is not that of another memory** that is seen together
with the one it is for. -/
theorem Admits.ne_primary {work : Work} {existing : Option VisibleRow} {m n : MemoryRow}
    {q : RevisionRow} (h : Admits safe fold c s work existing) (hs : Apart fold s)
    (hm : s.Sees c.actor m) (hid : m.id = c.memoryId) (hscope : m.scope = c.request.scope)
    (hexisting : ∀ row ∈ existing, row.memory.kind = m.kind ∧ row.memory.owner = m.owner ∧
      row.memory.scope = m.scope ∧ row.memory.origin = m.origin)
    (hn : n ∈ s.memories.rows) (hne : m.id ≠ n.id) (hkind : m.kind = .curated)
    (hnkind : n.kind = .curated) (htogether : s.world.Together m n) (hq : q ∈ s.revisions.rows)
    (hkey : q.key = (n.id, n.currentRevision)) :
    q.primary.normalize fold ≠ c.request.primaryAbstraction.normalize fold := by
  intro hsame
  have hrevision : s.revision? n.id n.currentRevision = some q := revision?_of_mem hq hkey
  have hvisible : (⟨n, q⟩ : VisibleRow) ∈ visibleRows s c.actor :=
    mem_visibleRows.mpr ⟨hn, sees_of_together hm htogether, hrevision⟩
  have hother : some n.id ≠ c.request.memoryId := by
    intro hother
    unfold Call.memoryId at hid
    rw [← hother] at hid
    exact hne hid
  by_cases hnew : ∀ row ∈ existing, row.revision.primary.normalize fold ≠
      c.request.primaryAbstraction.normalize fold
  · exact h.apart ⟨hnew, ⟨n, q⟩, hvisible, hother, htogether.2.1.symm.trans hscope, hsame⟩
  · -- the primary is the one that the memory had, which was apart already
    push Not at hnew
    obtain ⟨row, hrow, hkept⟩ := hnew
    obtain rfl : existing = some row := hrow
    obtain ⟨hrowid, hrowvisible, -⟩ := h.row
    obtain ⟨hrowmem, -, hrowrevision⟩ := mem_visibleRows.mp hrowvisible
    obtain ⟨hrkind, hrowner, hrscope, hrorigin⟩ := hexisting row rfl
    obtain ⟨hr, hrmemory, hrnumber⟩ := of_revision? hrowrevision
    have hrowtogether : s.world.Together row.memory n := by
      unfold World.Together
      rw [hrowner, hrscope, hrorigin]
      exact htogether
    have := hs row.memory hrowmem n hn (hrkind.trans hkind) hnkind hrowtogether row.revision hr q
      hq (Prod.ext hrmemory hrnumber) hkey (hkept.trans hsame.symm)
    exact hne (hid.trans (hrowid.trans this))

/-- **Primaries stay apart** when one memory, new or moved on, gets a revision. -/
theorem Apart.of_touched {work : Work} {existing : Option VisibleRow} {goal : Goal} {z : MemoryRow}
    (hs : Apart fold s) (hadmits : Admits safe fold c s work existing)
    (h : Wrote fold c work existing s s' goal) (hz : z.id = c.memoryId)
    (hcurrent : z.currentRevision = c.request.expectedRevision + 1)
    (hsees : s.Sees c.actor z) (hscope : z.scope = c.request.scope)
    (hexisting : ∀ row ∈ existing, row.memory.kind = z.kind ∧ row.memory.owner = z.owner ∧
      row.memory.scope = z.scope ∧ row.memory.origin = z.origin)
    (hrows : ∀ m ∈ s'.memories.rows, m = z ∨ m ∈ s.memories.rows ∧ z.id ≠ m.id) :
    Apart fold s' := by
  have hold : ∀ m : MemoryRow, z.id ≠ m.id → ∀ r ∈ s'.revisions.rows,
      r.key = (m.id, m.currentRevision) → r ∈ s.revisions.rows := by
    intro m hne r hr hkey
    rw [h.revisions, List.mem_append, List.mem_singleton] at hr
    rcases hr with hr | rfl
    · exact hr
    · exact absurd (hz.trans (congrArg Prod.fst hkey)) hne
  have hnew : ∀ r ∈ s'.revisions.rows, r.key = (z.id, z.currentRevision) →
      r.primary = c.request.primaryAbstraction.strip := by
    intro r hr hkey
    have hmem : c.newRevision work goal ∈ s'.revisions.rows := by
      rw [h.revisions]
      exact List.mem_append_right _ (List.mem_singleton_self _)
    have : r = c.newRevision work goal :=
      s'.revisions.eq_of_clash sameKey_symm hr hmem (hkey.trans (Prod.ext hz hcurrent))
    rw [this]
    rfl
  have htouched : ∀ n ∈ s.memories.rows, z.id ≠ n.id → z.kind = .curated → n.kind = .curated →
      s.world.Together z n → ∀ r ∈ s'.revisions.rows, ∀ q ∈ s'.revisions.rows,
        r.key = (z.id, z.currentRevision) → q.key = (n.id, n.currentRevision) →
        r.primary.normalize fold ≠ q.primary.normalize fold := by
    intro n hn hne hkind hnkind htogether r hr q hq hrkey hqkey hsame
    rw [hnew r hr hrkey, Text.normalize_strip] at hsame
    exact hadmits.ne_primary hs hsees hz hscope hexisting hn hne hkind hnkind htogether
      (hold n hne q hq hqkey) hqkey hsame.symm
  intro m hm n hn hmkind hnkind htogether r hr q hq hrkey hqkey hsame
  rw [h.world] at htogether
  rcases hrows m hm with rfl | ⟨hm, hmne⟩
  · rcases hrows n hn with rfl | ⟨hn, hnne⟩
    · rfl
    · exact absurd hsame (htouched n hn hnne hmkind hnkind htogether r hr q hq hrkey hqkey)
  · rcases hrows n hn with rfl | ⟨hn, hnne⟩
    · exact absurd hsame.symm
        (htouched m hm hmne hnkind hmkind htogether.symm q hq r hr hqkey hrkey)
    · exact hs m hm n hn hmkind hnkind htogether r (hold m hmne r hr hrkey) q
        (hold n hnne q hq hqkey) hrkey hqkey hsame

/-- An actor of the scope sees what it creates. -/
theorem sees_newMemory (h : s.InScope c.actor) : s.Sees c.actor c.newMemory := by
  obtain ⟨-, a, ha, hid, -⟩ := h
  refine ⟨rfl, ?_, rfl, .inr rfl⟩
  show (s.world.scopeOf c.actor.attachment).isSome
  rw [← hid, scopeOf_of_mem ha]
  rfl

theorem Apart.wrote {work : Work} {goal : Goal} {existing : Option VisibleRow}
    (hs : Apart fold s) (hadmits : Admits safe fold c s work existing)
    (h : Wrote fold c work existing s s' goal) : Apart fold s' := by
  cases existing with
  | none =>
    obtain ⟨-, hfresh, hmemories⟩ := h.created rfl
    refine hs.of_touched hadmits h (z := c.newMemory) rfl ?_ (sees_newMemory hadmits.scope) rfl
      (fun _ hrow => by cases hrow) fun m hm => ?_
    · exact congrArg (· + 1) (of_existingRow_none hadmits.listed).2.symm
    · rw [hmemories, List.mem_append, List.mem_singleton] at hm
      exact hm.symm.imp_right fun hm => ⟨hm, fun hid => hfresh m hm hid.symm⟩
  | some row =>
    obtain ⟨-, hmemories⟩ := h.updated (Option.some_ne_none _)
    obtain ⟨hid, hvisible, hscope, -⟩ := hadmits.row
    obtain ⟨hrow, hsees, -⟩ := mem_visibleRows.mp hvisible
    refine hs.of_touched hadmits h
      (z := { row.memory with currentRevision := c.request.expectedRevision + 1 }) hid.symm rfl
      hsees hscope (fun r hr => ?_) fun m' hm' => ?_
    · obtain rfl : row = r := Option.some.inj hr
      exact ⟨rfl, rfl, rfl, rfl⟩
    · rw [hmemories, List.mem_map] at hm'
      obtain ⟨m, hm, rfl⟩ := hm'
      by_cases hsame : m.id = c.memoryId
      · obtain rfl : m = row.memory := memory_eq hm hrow (hsame.trans hid)
        exact .inl (MemoryRow.advance_of hsame (hadmits.revision row rfl))
      · rw [MemoryRow.advance_of_ne hsame]
        exact .inr ⟨hm, fun h => hsame (h.symm.trans hid.symm)⟩

/-! ## Attachments -/

theorem Attached.wrote {work : Work} {goal : Goal} {existing : Option VisibleRow}
    (hs : Attached s) (h : Wrote fold c work existing s s' goal) : Attached s' := by
  intro m' hm'
  rw [h.world]
  cases existing with
  | none =>
    obtain ⟨⟨a, ha, hid, hprincipal, -, hproject⟩, -, hmemories⟩ := h.created rfl
    rw [hmemories, List.mem_append, List.mem_singleton] at hm'
    rcases hm' with hm' | rfl
    · exact hs m' hm'
    · exact ⟨a, ha, hid, hprincipal, hproject⟩
  | some row =>
    obtain ⟨-, hmemories⟩ := h.updated (Option.some_ne_none _)
    rw [hmemories, List.mem_map] at hm'
    obtain ⟨m, hm, rfl⟩ := hm'
    simp only [MemoryRow.advance_origin, MemoryRow.advance_owner, MemoryRow.advance_project]
    exact hs m hm

/-- **The invariant** of the runs. -/
structure Inv (fold : ℕ → List ℕ) (s : Store) : Prop where
  linear : Linear s
  attached : Attached s
  apart : Apart fold s

theorem Inv.remember (hs : Inv fold s) (c : Call) :
    Inv fold (Tx.commit (remember safe fold c) s) := by
  refine Tx.commit_of_wp hs ((remember_ensures (c := c)).mono fun _ t ht => ?_)
  rcases ht with ⟨rfl, -⟩ | ⟨work, existing, goal, hadmits, hwrote⟩
  · exact hs
  · exact ⟨hs.linear.wrote hadmits hwrote, hs.attached.wrote hwrote,
      hs.apart.wrote hadmits hwrote⟩

/-- The scope of an attachment does not change. -/
theorem World.Extends.scopeOf {w w' : World} (h : w.Extends w') {a : Attachment}
    (ha : a ∈ w.attachments.rows) : w'.scopeOf a.id = w.scopeOf a.id := by
  obtain ⟨b, hb, hidentity⟩ := h a ha
  have hid : b.id = a.id := congrArg Prod.fst hidentity
  have hscope : b.projectScopeDigest = a.projectScopeDigest :=
    congrArg (fun i => i.2.2.2) hidentity
  rw [scopeOf_of_mem ha, ← hid, scopeOf_of_mem hb, hscope]

theorem Inv.others (hs : Inv fold s) {w : World} (h : s.world.Extends w) :
    Inv fold { s with world := w } := by
  refine ⟨⟨hs.linear.begun, hs.linear.dense, hs.linear.owned⟩, fun m hm => ?_, ?_⟩
  · obtain ⟨a, ha, hid, hprincipal, hproject⟩ := hs.attached m hm
    obtain ⟨b, hb, hidentity⟩ := h a ha
    exact ⟨b, hb, (congrArg Prod.fst hidentity).trans hid,
      (congrArg (fun i => i.2.1) hidentity).trans hprincipal,
      (congrArg (fun i => i.2.2.1) hidentity).trans hproject⟩
  · intro m hm n hn hmkind hnkind htogether
    have hscope : ∀ k ∈ s.memories.rows, w.scopeOf k.origin = s.world.scopeOf k.origin :=
      fun k hk => by
        obtain ⟨a, ha, hid, -⟩ := hs.attached k hk
        rw [← hid]
        exact h.scopeOf ha
    obtain ⟨howner, hsame, horigins, hrest⟩ := htogether
    have horigins : w.scopeOf m.origin = w.scopeOf n.origin := horigins
    rw [hscope m hm, hscope n hn] at horigins
    exact hs.apart m hm n hn hmkind hnkind ⟨howner, hsame, horigins, hrest⟩

/-- **Every reachable store meets the invariant.** -/
theorem inv_of_reachable (h : (system safe fold).Reachable s) : Inv fold s := by
  refine TransitionSystem.Reachable.invariant (T := system safe fold) (I := Inv fold)
    (fun s hs => ⟨hs.linear, hs.attached, ?_⟩) (fun s e s' _ hs hstep => ?_) h
  · exact fun m hm _ _ hkind => absurd hkind (hs.imported m hm)
  · cases e with
    | remember c =>
      obtain rfl : Tx.commit (Memories.remember safe fold c) s = s' := Option.some.inj hstep
      exact hs.remember c
    | others w =>
      obtain ⟨hextends, rfl⟩ := TransitionSystem.of_guarded hstep
      exact hs.others hextends

/-! ## When an update commits -/

/-- **The texts of a call meet the constraints of the tables.** -/
structure Call.Storable (fold : ℕ → List ℕ) (c : Call) : Prop where
  encodable : c.request.primaryAbstraction.strip.encodable ∧ c.request.value.encodable
  texts : RevisionTexts c.request.primaryAbstraction.strip c.request.value
  cues : ∀ q ∈ c.newCues fold, q.Storable

/-- **An update that the service lets through**: its checks are passed, the Goal of its Work is
there, and what it answers is safe to show. -/
structure Updates (safe : Payload → Bool) (fold : ℕ → List ℕ) (c : Call) (s : Store) (work : Work)
    (row : VisibleRow) : Prop where
  admits : Admits safe fold c s work (some row)
  goal : (s.world.goal? work.id work.goalVersion).isSome
  shown : safe (metadataPayload c.request.primaryAbstraction.strip
    (cuesOf ((c.newCues fold).foldl addCue s.cues) c.memoryId)) = true

variable {work : Work} {row : VisibleRow}

/-- **The trigger compares projects**: it lets an update through exactly when the conversation
was attached with the project of the memory. -/
theorem revisionBound_iff {goal : Goal} (h : Admits safe fold c s work (some row))
    (hgoal : s.world.goal? work.id work.goalVersion = some goal) :
    s.RevisionBound (c.newRevision work goal) ↔ c.actor.project = row.memory.project := by
  obtain ⟨-, a, ha, haid, haprincipal, haproject, -⟩ := h.scope
  obtain ⟨hid, hvisible, -, hactive⟩ := h.row
  obtain ⟨hrow, ⟨howner, -, -, hplace⟩, -⟩ := mem_visibleRows.mp hvisible
  constructor
  · rintro ⟨m, hm, b, hb, hbid, hmid, -, -, hproject, -⟩
    obtain rfl : b = a := attachment_eq hb ha (hbid.trans haid.symm)
    obtain rfl : m = row.memory := memory_eq hm hrow (hmid.trans hid)
    exact haproject.symm.trans hproject
  · intro hproject
    obtain ⟨hwork, hworkid⟩ := UniqueRows.of_find? h.found
    obtain ⟨hgoalmem, hkey⟩ := UniqueRows.of_find? hgoal
    have hkey : goal.key = (work.id, work.goalVersion) := of_decide_eq_true hkey
    refine ⟨row.memory, hrow, a, ha, haid, hid.symm, howner, haprincipal.trans howner.symm,
      haproject.trans hproject, hplace.imp_right fun h => haid.trans h.symm, .inl ?_,
      .inr ⟨hactive, _, rfl, work, hwork, goal, hgoalmem, congrArg Prod.fst hkey,
        congrArg Prod.snd hkey, rfl, h.ours.1, h.ours.2, rfl, rfl⟩⟩
    rw [h.revision row rfl]
    rfl

/-- The number of a next revision is not taken. -/
theorem Linear.next_free (hs : Linear s) {m : MemoryRow} (hm : m ∈ s.memories.rows)
    {r : RevisionRow} (hr : r ∈ s.revisions.rows) : r.key ≠ (m.id, m.currentRevision + 1) := by
  intro hkey
  have hmemory : r.memory = m.id := congrArg Prod.fst hkey
  have hrevision : r.revision = m.currentRevision + 1 := congrArg Prod.snd hkey
  have hmem : r.revision ∈ s.history m.id :=
    List.mem_map_of_mem (List.mem_filter.mpr ⟨hr, decide_eq_true hmemory⟩)
  rw [hs.dense m hm, List.mem_range'_1] at hmem
  omega

/-- A key that was not recorded can be recorded. -/
theorem recordResult_of (hfresh : recorded s c = none) (view : View) :
    ∃ t, recordResult c view s = .ok (⟨⟩, t) := by
  obtain ⟨results, hinsert, -⟩ := UniqueRows.exists_insert (t := s.results)
    (a := ⟨c.actor.id, c.request.idempotencyKey, c.request, view⟩) fun r hr hclash => by
      have := UniqueRows.find?_none hfresh hr
      rw [decide_eq_true (show r.key = (c.actor.id, c.request.idempotencyKey) from hclash)] at this
      cases this
  refine ⟨{ s with results := results }, ?_⟩
  unfold recordResult
  rw [Tx.run_bind (s := s) (b := s) rfl, Tx.need_bind hinsert]
  rfl

/-- What is left of an update when its revision was inserted and its memory moved on. -/
theorem finish_of (hupdates : Updates safe fold c s work row) (hstorable : c.Storable fold)
    {goal : Goal} {t : Store} (hworld : t.world = s.world) (hcues : t.cues = s.cues)
    (hresults : t.results = s.results)
    (hmemories : t.memories.rows = s.memories.rows.map (MemoryRow.advance c.memoryId
      c.request.expectedRevision (c.request.expectedRevision + 1)))
    (hrevisions : t.revisions.rows = s.revisions.rows ++ [c.newRevision work goal]) :
    ∃ r, (do
      Tx.each insertCue (c.newCues fold)
      let u ← get
      let row ← Tx.need ((visibleRows u c.actor).find? fun row => row.memory.id = c.memoryId)
        .notFound
      let view ← metadata safe c.actor row
      recordResult c view
      pure view : Tx Store Error View) t = .ok r := by
  obtain ⟨hid, hvisible, -⟩ := hupdates.admits.row
  obtain ⟨hrow, hsees, -⟩ := mem_visibleRows.mp hvisible
  have hnew : c.newRevision work goal ∈ t.revisions.rows := by
    rw [hrevisions]
    exact List.mem_append_right _ (List.mem_singleton_self _)
  rw [Tx.run_bind (insertCues_of hstorable.cues fun q hq => ⟨_, hnew, by
    obtain ⟨cue, -, rfl⟩ := List.mem_map.mp hq
    rfl⟩)]
  set u : Store := { t with cues := (c.newCues fold).foldl addCue t.cues } with hu
  -- the memory is visible, with the revision that was just inserted
  set m : MemoryRow := { row.memory with currentRevision := c.request.expectedRevision + 1 } with hm
  have hmmem : m ∈ u.memories.rows := by
    show m ∈ t.memories.rows
    rw [hmemories]
    refine List.mem_map.mpr ⟨row.memory, hrow, ?_⟩
    exact MemoryRow.advance_of hid.symm (hupdates.admits.revision row rfl)
  have hmsees : u.Sees c.actor m := by
    unfold Store.Sees
    rw [show u.world = s.world from hworld]
    exact hsees
  have hmrevision : u.revision? m.id m.currentRevision = some (c.newRevision work goal) :=
    revision?_of_mem hnew (Prod.ext hid rfl)
  have hmvisible : (⟨m, c.newRevision work goal⟩ : VisibleRow) ∈ visibleRows u c.actor :=
    mem_visibleRows.mpr ⟨hmmem, hmsees, hmrevision⟩
  obtain ⟨found, hfound⟩ : ∃ found, (visibleRows u c.actor).find?
      (fun row => row.memory.id = c.memoryId) = some found := by
    rw [← Option.isSome_iff_exists, List.find?_isSome]
    exact ⟨_, hmvisible, decide_eq_true hid.symm⟩
  have hfoundid : found.memory.id = c.memoryId := by simpa using List.find?_some hfound
  obtain ⟨hfoundmem, -, hfoundrevision⟩ :=
    mem_visibleRows.mp (List.mem_of_find?_eq_some hfound)
  have hfoundmemory : found.memory = m := memory_eq hfoundmem hmmem (hfoundid.trans hid)
  rw [hfoundmemory, hmrevision] at hfoundrevision
  have hprimary : found.revision.primary = c.request.primaryAbstraction.strip := by
    rw [← Option.some.inj hfoundrevision]
    rfl
  rw [Tx.run_bind (s := u) (b := u) rfl, Tx.need_bind hfound]
  have hmetadata : metadata safe c.actor found u = .ok (viewOf u c.actor found, u) := by
    unfold metadata
    rw [Tx.run_bind (s := u) (b := u) rfl, Tx.require_bind]
    · rfl
    · rw [hprimary, hfoundid]
      show safe (metadataPayload _ (cuesOf ((c.newCues fold).foldl addCue t.cues) _)) = true
      rw [hcues]
      exact hupdates.shown
  rw [Tx.run_bind hmetadata]
  have hfresh : recorded u c = none := by
    unfold recorded
    show t.results.find? _ = none
    rw [hresults]
    exact hupdates.admits.fresh
  obtain ⟨v, hv⟩ := recordResult_of hfresh (viewOf u c.actor found)
  rw [Tx.run_bind hv]
  exact ⟨_, rfl⟩

/-- An update of a memory of the project of the conversation commits. -/
theorem commits_of (hs : Inv fold s) (hupdates : Updates safe fold c s work row)
    (hproject : c.actor.project = row.memory.project) (hstorable : c.Storable fold) :
    ∃ r, remember safe fold c s = .ok r := by
  obtain ⟨goal, hgoal⟩ := Option.isSome_iff_exists.mp hupdates.goal
  obtain ⟨hid, hvisible, -⟩ := hupdates.admits.row
  have hrow := (mem_visibleRows.mp hvisible).1
  have hcurrent := hupdates.admits.revision row rfl
  have hbound := (revisionBound_iff hupdates.admits hgoal).mpr hproject
  obtain ⟨revisions, hinsert, hrevisions⟩ := UniqueRows.exists_insert (t := s.revisions)
    (a := c.newRevision work goal) fun r hr hclash => by
      refine hs.linear.next_free hrow hr (Eq.trans hclash (Prod.ext hid ?_))
      exact congrArg (· + 1) hcurrent.symm
  have hupdate : updateCurrentRevision c.memoryId c.request.expectedRevision
      (c.request.expectedRevision + 1) { s with revisions := revisions } =
        .ok (⟨⟩, Store.advanced { s with revisions := revisions } c.memoryId
          c.request.expectedRevision (c.request.expectedRevision + 1)) := by
    unfold updateCurrentRevision
    rw [Tx.run_bind (b := { s with revisions := revisions }) rfl, Tx.require_bind]
    · rfl
    · intro m _ hmid hmcurrent
      refine ⟨congrArg (· + 1) hmcurrent.symm, c.newRevision work goal, ?_, hmid.symm, rfl⟩
      show _ ∈ revisions.rows
      rw [hrevisions]
      exact List.mem_append_right _ (List.mem_singleton_self _)
  unfold remember
  rw [Tx.run_bind (checkRequest_of hupdates.admits)]
  show ∃ r, carryOut safe fold c work (some row) s = .ok r
  unfold carryOut Tx.when
  rw [if_neg (Option.some_ne_none row), if_pos (Option.some_ne_none row),
    Tx.run_bind (s := s) (b := PUnit.unit) rfl, Tx.run_bind (s := s) (b := s) rfl,
    Tx.need_bind hgoal,
    Tx.run_bind (insertRevision_of hstorable.encodable hbound hstorable.texts hinsert),
    Tx.run_bind hupdate]
  exact finish_of hupdates hstorable rfl rfl rfl rfl hrevisions

/-- **An update that the service lets through commits exactly when** the conversation was
attached with the project of the memory, and the texts meet the constraints. -/
theorem commits_iff (hs : Inv fold s) (hupdates : Updates safe fold c s work row) :
    (∃ r, remember safe fold c s = .ok r) ↔
      c.actor.project = row.memory.project ∧ c.Storable fold := by
  constructor
  · rintro ⟨⟨view, t⟩, hrun⟩
    have hdone := (remember_ensures : Tx.Ensures s (remember safe fold c) _).run hrun
    rcases hdone with ⟨-, r, hrecorded, -⟩ | ⟨work', existing, goal, hadmits, hwrote⟩
    · rw [hupdates.admits.fresh] at hrecorded
      cases hrecorded
    · obtain rfl : work' = work := Option.some.inj (hadmits.found.symm.trans hupdates.admits.found)
      obtain rfl : existing = some row :=
        Except.ok.inj (hadmits.listed.symm.trans hupdates.admits.listed)
      have hbound := (hwrote.updated (Option.some_ne_none _)).1
      exact ⟨(revisionBound_iff hadmits hwrote.current).mp hbound, hwrote.encodable, hwrote.texts,
        hwrote.cues⟩
  · rintro ⟨hproject, hstorable⟩
    exact commits_of hs hupdates hproject hstorable

/-! ## Stale updates -/

/-- **An update that expects another revision writes nothing.** -/
theorem not_wrote_of_stale {existing : Option VisibleRow} {m : MemoryRow}
    (hm : m ∈ s.memories.rows) (hid : c.request.memoryId = some m.id)
    (hstale : m.currentRevision ≠ c.request.expectedRevision) :
    ¬ Admits safe fold c s work existing := by
  intro h
  cases existing with
  | none =>
    have := (of_existingRow_none h.listed).1
    rw [hid] at this
    cases this
  | some row =>
    obtain ⟨hrowid, hvisible, -⟩ := of_existingRow h.listed
    have hsame : row.memory = m := memory_eq (mem_visibleRows.mp hvisible).1 hm
      (Option.some.inj (hrowid.symm.trans hid))
    exact hstale (hsame ▸ h.revision row rfl)

/-- A call that writes adds its revision, and changes none. -/
theorem prefix_remember (s : Store) (c : Call) :
    s.revisions.rows <+: (Tx.commit (remember safe fold c) s).revisions.rows := by
  refine Tx.commit_of_wp (I := fun t => s.revisions.rows <+: t.revisions.rows)
    (List.prefix_refl _) ((remember_ensures (c := c)).mono fun _ t ht => ?_)
  rcases ht with ⟨rfl, -⟩ | ⟨work, existing, goal, -, hwrote⟩
  · exact List.prefix_refl _
  · rw [hwrote.revisions]
    exact List.prefix_append _ _

theorem prefix_of_runs {t : Store} (h : (system safe fold).Reachable s)
    (hrun : (system safe fold).Runs s t) : s.revisions.rows <+: t.revisions.rows := by
  refine TransitionSystem.Runs.lift (T := system safe fold)
    (R := fun a b => a.revisions.rows <+: b.revisions.rows)
    (fun _ => List.prefix_refl _) List.IsPrefix.trans (fun a e b _ hstep => ?_) h hrun
  cases e with
  | remember c =>
    obtain rfl : Tx.commit (remember safe fold c) a = b := Option.some.inj hstep
    exact prefix_remember a c
  | others w =>
    obtain ⟨-, rfl⟩ := TransitionSystem.of_guarded hstep
    exact List.prefix_refl _

/-- **Memories keep a linear history.** In every store that calls of `remember_memory` lead
to, the revisions of each memory are those up to its current one, and they stay; a call that
commits anew adds its own revision, the one after that which it expected; an update that expects
another revision changes nothing, and it fails unless it was recorded; the curated memories that
a conversation sees in one scope have different primaries. An update that the service lets
through commits exactly when the conversation was attached with the project of the memory, and
its texts meet the constraints of the tables. -/
theorem history_linear_writable (h : (system safe fold).Reachable s) :
    (∀ m ∈ s.memories.rows, s.history m.id = List.range' 1 m.currentRevision) ∧
    (∀ t, (system safe fold).Runs s t → s.revisions.rows <+: t.revisions.rows) ∧
    (∀ c view t, remember safe fold c s = .ok (view, t) → recorded s c = none →
      ∃ r, t.revisions.rows = s.revisions.rows ++ [r] ∧
        r.key = (c.memoryId, c.request.expectedRevision + 1) ∧
        r.primary = c.request.primaryAbstraction.strip ∧ r.value = c.request.value) ∧
    (∀ c, ∀ m ∈ s.memories.rows, c.request.memoryId = some m.id →
      m.currentRevision ≠ c.request.expectedRevision →
        Tx.commit (remember safe fold c) s = s ∧
          (recorded s c = none → ∃ e, remember safe fold c s = .error e)) ∧
    (∀ actor, ∀ x ∈ visibleRows s actor, ∀ y ∈ visibleRows s actor, x.memory.kind = .curated →
      y.memory.kind = .curated → x.memory.scope = y.memory.scope →
      x.revision.primary.normalize fold = y.revision.primary.normalize fold → x = y) ∧
    (∀ c work row, Updates safe fold c s work row → ((∃ r, remember safe fold c s = .ok r) ↔
      c.actor.project = row.memory.project ∧ c.Storable fold)) := by
  have hs : Inv fold s := inv_of_reachable h
  refine ⟨hs.linear.dense, fun t => prefix_of_runs h, fun c view t hrun hfresh => ?_,
    fun c m hm hid hstale => ?_, fun actor x hx y hy hxkind hykind hscope hsame => ?_,
    fun c work row => commits_iff hs⟩
  · rcases (remember_ensures (c := c) (s := s)).run hrun with
      ⟨-, r, hrecorded, -⟩ | ⟨work, existing, goal, -, hwrote⟩
    · rw [hfresh] at hrecorded
      cases hrecorded
    · exact ⟨c.newRevision work goal, hwrote.revisions, rfl, rfl, rfl⟩
  · have hdone : Tx.Ensures s (remember safe fold c) _ := remember_ensures
    have hsame : Tx.Ensures s (remember safe fold c) fun _ t => t = s ∧ recorded s c ≠ none :=
      hdone.mono fun _ t ht => by
        rcases ht with ⟨rfl, r, hrecorded, -⟩ | ⟨work, existing, goal, hadmits, -⟩
        · exact ⟨rfl, by rw [hrecorded]; exact Option.some_ne_none r⟩
        · exact absurd hadmits (not_wrote_of_stale hm hid hstale)
    refine ⟨Tx.commit_of_wp (I := fun t => t = s) rfl (hsame.mono fun _ _ ht => ht.1),
      fun hfresh => ?_⟩
    cases hrun : remember safe fold c s with
    | ok r => exact absurd hfresh (hsame.run hrun).2
    | error e => exact ⟨e, rfl⟩
  · obtain ⟨hxmem, ⟨hxowner, -, hxscope, hxplace⟩, hxrevision⟩ := mem_visibleRows.mp hx
    obtain ⟨hymem, ⟨hyowner, -, hyscope, hyplace⟩, hyrevision⟩ := mem_visibleRows.mp hy
    obtain ⟨hr, hrmemory, hrnumber⟩ := of_revision? hxrevision
    obtain ⟨hq, hqmemory, hqnumber⟩ := of_revision? hyrevision
    have hplace : x.memory.scope = .project ∨ x.memory.origin = y.memory.origin := by
      rcases hxplace with hxproject | hxorigin
      · exact .inl hxproject
      · exact hyplace.imp (fun h => hscope.trans h) fun h => hxorigin.trans h.symm
    have hid := hs.apart x.memory hxmem y.memory hymem hxkind hykind
      ⟨hxowner.trans hyowner.symm, hscope, hxscope.trans hyscope.symm, hplace⟩ x.revision hr
      y.revision hq (Prod.ext hrmemory hrnumber) (Prod.ext hqmemory hqnumber) hsame
    have hmemory : x.memory = y.memory := memory_eq hxmem hymem hid
    rw [hmemory, hyrevision] at hxrevision
    exact VisibleRow.ext hmemory (Option.some.inj hxrevision).symm

/-! ## Two conversations of one scope

The first was attached before its project had a verified identity, the second after. -/

def sampleWorld : World where
  caoPrincipals := ["cao"]
  attachments := ⟨[⟨"cat_1", "cao", "device", "identity", true⟩,
    ⟨"cat_2", "cao", "identity", "identity", true⟩], by decide⟩
  works := ⟨[⟨"work_1", some "cao", some "cat_1", 1⟩, ⟨"work_2", some "cao", some "cat_2", 1⟩],
    by decide⟩
  goals := ⟨[⟨"work_1", 1, "packet_1"⟩, ⟨"work_2", 1, "packet_2"⟩], by decide⟩

def sampleStart : Store where
  memories := .empty
  revisions := .empty
  cues := .empty
  results := .empty
  world := sampleWorld

/-- A project memory of the first conversation. -/
def sampleCreate : Call where
  actor := ⟨"cao", true, "cat_1", "device", true⟩
  request :=
    { workItemId := "work_1", primaryAbstraction := Text.ofString "Lint", cueAnchors := [],
      value := Text.ofString "slow", scope := .project, idempotencyKey := "key_1" }
  freshId := "mem_1"

/-- An update of this memory, by the conversation of an attachment. -/
def sampleUpdate (attachment project work : String) : Call where
  actor := ⟨"cao", true, attachment, project, true⟩
  request :=
    { workItemId := work, primaryAbstraction := Text.ofString "Lint", cueAnchors := [],
      value := Text.ofString "fast", scope := .project, memoryId := some "mem_1",
      expectedRevision := 1, idempotencyKey := "key_2" }
  freshId := "mem_2"

def allSafe (_ : Payload) : Bool := true

/-- A folding that is right for small letters. -/
def plainFold (c : ℕ) : List ℕ := [if 0x41 ≤ c ∧ c ≤ 0x5a then c + 32 else c]

def sampleStore : Store := Tx.commit (remember allSafe plainFold sampleCreate) sampleStart

def sampleRow : VisibleRow where
  memory := ⟨"mem_1", "cao", "cat_1", "device", .project, .curated, .active, 1⟩
  revision := ⟨"mem_1", 1, Text.ofString "Lint", Text.ofString "slow",
    some ⟨"work_1", 1, "packet_1"⟩, "cat_1", "cao"⟩

theorem sampleStart_start : Start sampleStart where
  linear := ⟨List.forall_mem_nil _, List.forall_mem_nil _, List.forall_mem_nil _⟩
  attached := List.forall_mem_nil _
  imported := List.forall_mem_nil _

theorem sampleStore_reachable : (system allSafe plainFold).Reachable sampleStore :=
  (TransitionSystem.Reachable.of_init sampleStart_start).next (e := .remember sampleCreate) rfl

/-- The checks let the update through, from either conversation. -/
theorem sampleUpdate_first : Updates allSafe plainFold (sampleUpdate "cat_1" "device" "work_1")
    sampleStore ⟨"work_1", some "cao", some "cat_1", 1⟩ sampleRow where
  admits := ⟨rfl, rfl, rfl, by decide, rfl, ⟨rfl, rfl⟩, rfl, rfl, by decide, by decide, by decide⟩
  goal := rfl
  shown := rfl

theorem sampleUpdate_second : Updates allSafe plainFold (sampleUpdate "cat_2" "identity" "work_2")
    sampleStore ⟨"work_2", some "cao", some "cat_2", 1⟩ sampleRow where
  admits := ⟨rfl, rfl, rfl, by decide, rfl, ⟨rfl, rfl⟩, rfl, rfl, by decide, by decide, by decide⟩
  goal := rfl
  shown := rfl

theorem sampleUpdate_storable :
    (sampleUpdate "cat_1" "device" "work_1").Storable plainFold where
  encodable := by decide
  texts := by decide
  cues := by
    intro q hq
    obtain rfl : q = ⟨"mem_1", Text.ofString "lint", Text.ofString "lint", 2⟩ :=
      List.mem_singleton.mp hq
    exact ⟨by decide, by decide⟩

/-- The first conversation updates its memory. -/
theorem history_linear_writable_first : sampleStore.history "mem_1" = [1] ∧
    ∃ r, remember allSafe plainFold (sampleUpdate "cat_1" "device" "work_1") sampleStore = .ok r :=
  ⟨(history_linear_writable sampleStore_reachable).1 sampleRow.memory (by decide),
    ((history_linear_writable sampleStore_reachable).2.2.2.2.2 _ _ _ sampleUpdate_first).mpr
      ⟨rfl, sampleUpdate_storable⟩⟩

/-- **The second conversation sees the memory and cannot update it**: every check of the service
lets the update through, and a trigger stops it. -/
theorem update_stopped_by_trigger :
    (system allSafe plainFold).Reachable sampleStore ∧
      sampleRow ∈ visibleRows sampleStore (sampleUpdate "cat_2" "identity" "work_2").actor ∧
      Updates allSafe plainFold (sampleUpdate "cat_2" "identity" "work_2") sampleStore
        ⟨"work_2", some "cao", some "cat_2", 1⟩ sampleRow ∧
      remember allSafe plainFold (sampleUpdate "cat_2" "identity" "work_2") sampleStore =
        .error .integrity :=
  ⟨sampleStore_reachable, by decide, sampleUpdate_second, rfl⟩

end Memories
