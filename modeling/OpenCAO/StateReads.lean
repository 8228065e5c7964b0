import OpenCAO.Models
import OpenCAO.Rows
import OpenCAO.TransitionSystem
import Mathlib.Logic.Function.Basic
import Mathlib.Order.Nat

/-!
# Admission of state reads

The CAO may not poll. Each tool that reads control-plane state is metered
by conversation and resource: a read is admitted when something happened
since the last one – a requester's input, a notification, a command of
the CAO itself – or when it asks for the next page of the last one. The
three frontiers of a resource are its *cause*, and the last read of a
resource is one row of `cao_state_read_cursors`.

A read is reserved before the state is looked at and finished after. A
read that fails puts back the row it found, if the row is still its own.
What it found may be the reservation of another read that has not
finished, or that finishes late, so what is true of the row in the table
has to be true of the rows the outstanding reads remember.

## What a cause admits

The frontiers only move forward, so the causes of a resource are seen in
order, and a row put back by a failed read is never ahead of the present
cause (`Inv.snapshot`). From this the two halves of the
discipline follow: under one cause the reads that did not fail are a first
one and the next pages of each other, and a cause under which all reads
failed is still good for one.

The digests of causes and page cursors are the causes and cursors
themselves, and a random reservation identifier is a new number.
-/

/-- The tools that read control-plane state, `STATE_READ_TOOLS`. -/
inductive StateReadTool where
  | getWork | getInbox | query | listManagedWorkers | readWorkHistory
  deriving DecidableEq, Repr

/-- A page cursor as a call carries it. -/
inductive PageCursor where
  | number (n : ℕ)
  | text (t : String)
  deriving DecidableEq, Repr

/-- Whether a cursor is one, and not the default of a first page. -/
def PageCursor.truthy : PageCursor → Bool
  | number n => n ≠ 0
  | text t => t ≠ ""

/-- **A call of a tool**, with what the owner's side knows of its caller. -/
structure StateReadCall where
  attachmentId : AttachmentId
  conversationCredential : Bool
  runtimeCredential : Bool
  readinessProbe : Bool
  /-- The tool, where it is one of the five. -/
  tool : Option StateReadTool
  workItemId : Option WorkId
  after : Option PageCursor
  beforeSequence : Option PageCursor
  cursor : Option PageCursor
  /-- The native input the conversation is at, where it can be observed. -/
  nativeDigest : Option String
  /-- Whether the caller acts for the current attachment. -/
  current : Bool
  deriving DecidableEq, Repr

/-- What is metered: a tool, for the tools of one Work with the Work. -/
structure StateReadResource where
  tool : StateReadTool
  workItemId : Option WorkId
  deriving DecidableEq, Repr

/-- The primary key of `cao_state_read_cursors`. -/
abbrev StateReadKey := AttachmentId × StateReadResource

namespace StateReadCall

/-- The tool of a call that is metered. -/
def metered (c : StateReadCall) : Option StateReadTool :=
  if c.conversationCredential || c.runtimeCredential then
    c.tool.filter fun tool => !(tool = .listManagedWorkers && c.readinessProbe)
  else none

/-- What a call reads. -/
def key (c : StateReadCall) (tool : StateReadTool) : StateReadKey :=
  (c.attachmentId,
    { tool
      workItemId := if tool = .getWork ∨ tool = .readWorkHistory then c.workItemId else none })

/-- The page a call asks for. -/
def suppliedCursor (c : StateReadCall) : StateReadTool → PageCursor
  | .getInbox => c.after.getD (.number 0)
  | .readWorkHistory => c.beforeSequence.getD (.number 0)
  | .getWork | .query | .listManagedWorkers => c.cursor.getD (.text "")

end StateReadCall

/-- The frontiers of input, notification and command, in this order. -/
abbrev StateReadCause := ℕ × ℕ × ℕ

/-- **A row of `cao_state_read_cursors`**, less its key. -/
structure StateReadCursor where
  cause : StateReadCause
  reservationId : ℕ
  pending : Bool
  nextCursor : Option PageCursor
  deriving DecidableEq, Repr

/-- A row of `cao_state_read_inputs`. -/
structure StateReadInput where
  sequence : ℕ
  attachmentId : AttachmentId
  inputDigest : String
  deriving DecidableEq, Repr

/-- **`StateReadReservation`**: what a read remembers until it is finished. -/
structure StateReadReservation where
  key : StateReadKey
  reservationId : ℕ
  previous : Option StateReadCursor
  deriving DecidableEq, Repr

/-- What a read answered, of it the fields that name a next page. Either may be
absent, and the first may be there and empty. -/
structure StateReadResult where
  nextCursor : Option (Option PageCursor)
  nextBeforeSequence : Option PageCursor
  deriving DecidableEq, Repr

/-- The next page a read issued. -/
def StateReadResult.issued (result : StateReadResult) : Option PageCursor :=
  (result.nextCursor.getD result.nextBeforeSequence).filter PageCursor.truthy

/-- The two refusals. -/
inductive StateReadRefusal where
  | notCurrent
  | pollingProhibited
  deriving DecidableEq, Repr

/-- **The tables admission reads**: the inputs with the last sequence, the two
other frontiers of each resource, and the last reads. -/
structure StateReadStore where
  inputs : List StateReadInput
  lastInput : ℕ
  notifications : StateReadKey → ℕ
  commands : StateReadKey → ℕ
  cursors : StateReadKey → Option StateReadCursor

namespace StateReadStore

/-- The last input of a conversation, or `0`. -/
def inputSequence (s : StateReadStore) (attachmentId : AttachmentId) : ℕ :=
  ((s.inputs.filter (·.attachmentId = attachmentId)).map (·.sequence)).foldr max 0

/-- The cause of a read. -/
def cause (s : StateReadStore) (key : StateReadKey) : StateReadCause :=
  (s.inputSequence key.1, s.notifications key, s.commands key)

/-- `INSERT OR IGNORE` of the input a conversation is at. -/
def recordInput (attachmentId : AttachmentId) (nativeDigest : Option String)
    (s : StateReadStore) : StateReadStore :=
  match nativeDigest.filter (· ≠ "") with
  | none => s
  | some digest =>
    if ∃ row ∈ s.inputs, row.attachmentId = attachmentId ∧ row.inputDigest = digest then s
    else
      { s with
        inputs := ⟨s.lastInput + 1, attachmentId, digest⟩ :: s.inputs
        lastInput := s.lastInput + 1 }

/-- Whether a read asks for the page the last one issued. -/
def forwardPage (row : Option StateReadCursor) (supplied : PageCursor) : Bool :=
  row.any fun row => supplied.truthy && row.nextCursor = some supplied && !row.pending

/-- **`reserve`**. -/
def reserve (c : StateReadCall) (reservationId : ℕ) (s : StateReadStore) :
    Except StateReadRefusal (Option StateReadReservation × StateReadStore) :=
  match c.metered with
  | none => .ok (none, s)
  | some tool =>
    if !c.current then .error .notCurrent
    else
      let s := s.recordInput c.attachmentId c.nativeDigest
      let key := c.key tool
      let row := s.cursors key
      if row.any (·.cause = s.cause key) && !forwardPage row (c.suppliedCursor tool) then
        .error .pollingProhibited
      else
        .ok (some ⟨key, reservationId, row⟩, { s with
          cursors := Function.update s.cursors key
            (some ⟨s.cause key, reservationId, true, none⟩) })

/-- The statement of `finish`: the row is changed only under its reservation. -/
def updateReserved (r : StateReadReservation)
    (f : StateReadCursor → Option StateReadCursor) (s : StateReadStore) : StateReadStore :=
  { s with
    cursors := Function.update s.cursors r.key ((s.cursors r.key).bind fun row =>
      if row.reservationId = r.reservationId then f row else some row) }

/-- **`finish`**: a failed read puts back what it found, which is nothing where it
was the first; another one records the page it issued. -/
def finish (r : StateReadReservation) (result : Option StateReadResult) (s : StateReadStore) :
    StateReadStore :=
  match result with
  | none => s.updateReserved r fun _ => r.previous
  | some result =>
    s.updateReserved r fun row => some { row with pending := false, nextCursor := result.issued }

end StateReadStore

/-! ## The system -/

/-- A read that was admitted, with the page it asked for and the reservation that
issued it. -/
structure StateReadAdmission where
  id : ℕ
  key : StateReadKey
  cause : StateReadCause
  supplied : PageCursor
  follows : Option ℕ
  deriving DecidableEq, Repr

/-- What happened to the reads. A read that finished issued a page, or none, or
failed. -/
inductive ReadEntry where
  | admitted (a : StateReadAdmission)
  | issued (id : ℕ) (page : Option PageCursor)
  | failed (id : ℕ)
  deriving DecidableEq, Repr

/-- **The state of the reads**: the tables, the reads under way, the number of
reads admitted, and the log of all reads. -/
structure StateReads where
  store : StateReadStore
  outstanding : List StateReadReservation
  nextReservation : ℕ
  log : List ReadEntry

namespace StateReads

open StateReadStore

/-- **The events.** -/
inductive Event where
  /-- A tool is called. -/
  | reserve (call : StateReadCall)
  /-- A read under way returns, or raises. -/
  | finish (r : StateReadReservation) (result : Option StateReadResult)
  /-- A read under way is lost with its process. -/
  | abandon (r : StateReadReservation)
  /-- Messages and commands are committed. -/
  | commit (notifications commands : StateReadKey → ℕ)

/-- How a read that was admitted enters the log. -/
def admission (call : StateReadCall) (tool : StateReadTool) (r : StateReadReservation)
    (store : StateReadStore) : StateReadAdmission where
  id := r.reservationId
  key := r.key
  cause := store.cause r.key
  supplied := call.suppliedCursor tool
  follows :=
    if forwardPage r.previous (call.suppliedCursor tool) then r.previous.map (·.reservationId)
    else none

/-- **One step.** -/
def step (s : StateReads) : Event → Option StateReads
  | .reserve call =>
    match s.store.reserve call s.nextReservation with
    -- A transaction that raises is rolled back, the input with it.
    | .error _ => some s
    | .ok (none, store) => some { s with store }
    | .ok (some r, store) =>
      some { s with
        store
        outstanding := r :: s.outstanding
        nextReservation := s.nextReservation + 1
        log := .admitted (admission call r.key.2.tool r store) :: s.log }
  | .finish r result =>
    if r ∈ s.outstanding then
      some { s with
        store := s.store.finish r result
        outstanding := s.outstanding.erase r
        log := (match result with
          | none => .failed r.reservationId
          | some result => .issued r.reservationId result.issued) :: s.log }
    else none
  | .abandon r =>
    if r ∈ s.outstanding then some { s with outstanding := s.outstanding.erase r } else none
  | .commit notifications commands =>
    -- The frontiers never go back.
    some { s with
      store := { s.store with
        notifications := fun key => max (s.store.notifications key) (notifications key)
        commands := fun key => max (s.store.commands key) (commands key) } }

/-- No conversation read anything yet. -/
def Initial (s : StateReads) : Prop :=
  (∀ key, s.store.cursors key = none) ∧ s.outstanding = [] ∧ s.log = []

/-- **The system of the state reads.** -/
def system : TransitionSystem StateReads Event := .ofFunction Initial step

end StateReads

/-! ## Frontiers -/

namespace StateReadStore

variable {s : StateReadStore}

@[simp] theorem cursors_recordInput (attachmentId : AttachmentId) (nativeDigest : Option String) :
    (s.recordInput attachmentId nativeDigest).cursors = s.cursors := by
  unfold recordInput
  split
  · rfl
  · split <;> rfl

/-- A new input moves the frontier of its conversation forward. -/
theorem cause_le_recordInput (attachmentId : AttachmentId) (nativeDigest : Option String)
    (key : StateReadKey) : s.cause key ≤ (s.recordInput attachmentId nativeDigest).cause key := by
  unfold recordInput
  split
  · exact le_refl _
  · split
    · exact le_refl _
    · refine Prod.mk_le_mk.mpr ⟨?_, le_refl _⟩
      unfold inputSequence
      rw [List.filter_cons]
      split
      · exact Nat.le_max_right _ _
      · exact le_refl _

/-- Finishing a read moves no frontier. -/
@[simp] theorem cause_finish (r : StateReadReservation) (result : Option StateReadResult)
    (key : StateReadKey) : (s.finish r result).cause key = s.cause key := by
  cases result <;> rfl

/-- A call that is not metered changes nothing. -/
theorem eq_of_reserve_none {c : StateReadCall} {id : ℕ} {s' : StateReadStore}
    (h : s.reserve c id = .ok (none, s')) : s' = s := by
  unfold reserve at h
  split at h
  · exact (Prod.mk.inj (Except.ok.inj h)).2.symm
  · split at h
    · cases h
    · dsimp only at h
      split at h
      · cases h
      · cases h

/-- **What a read that is admitted does**: it found the last row of its resource,
of an earlier cause or with the page it asks for, and left its own. -/
theorem reserve_cases {c : StateReadCall} {id : ℕ} {r : StateReadReservation} {s' : StateReadStore}
    (h : s.reserve c id = .ok (some r, s')) :
    c.metered = some r.key.2.tool ∧ r.key = c.key r.key.2.tool ∧ r.reservationId = id ∧
      r.previous = s.cursors r.key ∧
      (∀ row, r.previous = some row →
        row.cause = (s.recordInput c.attachmentId c.nativeDigest).cause r.key →
          forwardPage r.previous (c.suppliedCursor r.key.2.tool) = true) ∧
      s' = { s.recordInput c.attachmentId c.nativeDigest with
        cursors := Function.update s.cursors r.key
          (some ⟨(s.recordInput c.attachmentId c.nativeDigest).cause r.key, id, true, none⟩) } := by
  unfold reserve at h
  split at h
  · cases h
  · rename_i tool hmetered
    split at h
    · cases h
    · dsimp only at h
      split at h
      · cases h
      · rename_i hadmitted
        obtain ⟨hr, rfl⟩ := Prod.mk.inj (Except.ok.inj h)
        obtain rfl := Option.some.inj hr
        rw [cursors_recordInput] at hadmitted ⊢
        refine ⟨hmetered, rfl, rfl, rfl, fun row hrow hcause => ?_, rfl⟩
        change s.cursors (c.key tool) = some row at hrow
        show forwardPage (s.cursors (c.key tool)) (c.suppliedCursor tool) = true
        by_contra hpage
        refine hadmitted ?_
        rw [hrow] at hpage ⊢
        simpa [hcause] using hpage

/-- A page that is asked for is the one the last read issued. -/
theorem forwardPage_eq_true {row : StateReadCursor} {supplied : PageCursor}
    (h : forwardPage (some row) supplied = true) :
    supplied.truthy = true ∧ row.nextCursor = some supplied ∧ row.pending = false := by
  simpa [forwardPage, and_assoc] using h

/-- A row after a read finished is as before, or the one of that read. -/
theorem updateReserved_cases {r : StateReadReservation}
    {f : StateReadCursor → Option StateReadCursor} {key : StateReadKey} {row : StateReadCursor}
    (h : (s.updateReserved r f).cursors key = some row) :
    (s.cursors key = some row ∧ (key = r.key → row.reservationId ≠ r.reservationId)) ∨
      (key = r.key ∧ ∃ own, s.cursors key = some own ∧ own.reservationId = r.reservationId ∧
        f own = some row) := by
  unfold updateReserved at h
  dsimp only at h
  by_cases hkey : key = r.key
  · subst hkey
    rw [Function.update_self, Option.bind_eq_some_iff] at h
    obtain ⟨own, hown, hrow⟩ := h
    split at hrow
    · exact .inr ⟨rfl, own, hown, ‹_›, hrow⟩
    · obtain rfl := Option.some.inj hrow
      exact .inl ⟨hown, fun _ => ‹_›⟩
  · rw [Function.update_of_ne hkey] at h
    exact .inl ⟨h, fun heq => absurd heq hkey⟩

/-- The row of a key after a read finished. -/
theorem updateReserved_eq {r : StateReadReservation}
    {f : StateReadCursor → Option StateReadCursor} {key : StateReadKey} {row : StateReadCursor}
    (h : s.cursors key = some row) :
    (s.updateReserved r f).cursors key =
      if key = r.key ∧ row.reservationId = r.reservationId then f row else some row := by
  unfold updateReserved
  dsimp only
  by_cases hkey : key = r.key
  · subst hkey
    rw [Function.update_self, h]
    simp
  · rw [Function.update_of_ne hkey, h, if_neg fun hboth => hkey hboth.1]

end StateReadStore

namespace StateReads

open StateReadStore

/-! ## The rows

A row, in the table or remembered by a read, belongs to a read of its
resource that was admitted under its cause, and was issued its page if it
is not pending. -/

/-- **A row is backed by the log.** -/
structure Backed (s : StateReads) (key : StateReadKey) (row : StateReadCursor) : Prop where
  cause_le : row.cause ≤ s.store.cause key
  admitted : ∃ a, .admitted a ∈ s.log ∧ a.id = row.reservationId ∧ a.key = key ∧ a.cause = row.cause
  issued : row.pending = false → .issued row.reservationId row.nextCursor ∈ s.log

/-- What a read under way remembers: an earlier row of its resource, and under its
own cause one that is not pending. -/
structure Snapshot (s : StateReads) (a : StateReadAdmission) (row : StateReadCursor) : Prop where
  backed : Backed s a.key row
  cause_le : row.cause ≤ a.cause
  earlier : row.reservationId < a.id
  settled : row.cause = a.cause → row.pending = false

/-- A read that did not fail holds the row of its resource: the row is its own or a
later one under its cause, and so is what every later read under way would
put back. -/
structure Held (s : StateReads) (a : StateReadAdmission) : Prop where
  row : ∃ row, s.store.cursors a.key = some row ∧ row.cause = a.cause ∧ a.id ≤ row.reservationId
  later : ∀ r ∈ s.outstanding, r.key = a.key → a.id < r.reservationId →
    ∃ row, r.previous = some row ∧ row.cause = a.cause ∧ a.id ≤ row.reservationId

/-- **The invariant of the reads.** -/
structure Inv (s : StateReads) : Prop where
  /-- Reads are numbered in the order they are admitted. -/
  numbered : ∀ a, .admitted a ∈ s.log → a.id < s.nextReservation ∧
    a.cause ≤ s.store.cause a.key ∧ ∀ q, a.follows = some q → q < a.id
  unique : ∀ a b, .admitted a ∈ s.log → .admitted b ∈ s.log → a.id = b.id → a = b
  /-- No read fails and issues a page. -/
  outcome : ∀ q page, .issued q page ∈ s.log → .failed q ∉ s.log
  /-- Only reads that were admitted finish. -/
  finished : ∀ q, (.failed q ∈ s.log ∨ ∃ page, .issued q page ∈ s.log) → q < s.nextReservation
  distinct : (s.outstanding.map (·.reservationId)).Nodup
  /-- A read under way has not finished. -/
  unfinished : ∀ r ∈ s.outstanding,
    .failed r.reservationId ∉ s.log ∧ ∀ page, .issued r.reservationId page ∉ s.log
  snapshot : ∀ r ∈ s.outstanding, ∃ a, .admitted a ∈ s.log ∧ a.id = r.reservationId ∧
    a.key = r.key ∧ ∀ row, r.previous = some row → Snapshot s a row
  backed : ∀ key row, s.store.cursors key = some row → Backed s key row
  /-- A failed read left no row under the present cause. -/
  live : ∀ key row, s.store.cursors key = some row → row.pending = true →
    row.cause = s.store.cause key → .failed row.reservationId ∉ s.log
  held : ∀ a, .admitted a ∈ s.log → .failed a.id ∉ s.log → a.cause = s.store.cause a.key → Held s a

/-- The log only grows and the frontiers only move forward. -/
structure After (s s' : StateReads) : Prop where
  log : s.log ⊆ s'.log
  cause : ∀ key, s.store.cause key ≤ s'.store.cause key

theorem Backed.after {s s' : StateReads} {key : StateReadKey} {row : StateReadCursor}
    (h : Backed s key row) (hafter : After s s') : Backed s' key row := by
  obtain ⟨a, ha, hid, hkey, hcause⟩ := h.admitted
  exact ⟨h.cause_le.trans (hafter.cause key), ⟨a, hafter.log ha, hid, hkey, hcause⟩,
    fun hsettled => hafter.log (h.issued hsettled)⟩

theorem Snapshot.after {s s' : StateReads} {a : StateReadAdmission} {row : StateReadCursor}
    (h : Snapshot s a row) (hafter : After s s') : Snapshot s' a row :=
  { h with backed := h.backed.after hafter }

/-- **Frontiers move forward**: what is true of the present cause was. -/
theorem Inv.forward {s : StateReads} (h : Inv s) {store : StateReadStore}
    (hcursors : store.cursors = s.store.cursors)
    (hcause : ∀ key, s.store.cause key ≤ store.cause key) : Inv { s with store } := by
  have hafter : After s { s with store } := ⟨fun _ he => he, hcause⟩
  have hpresent : ∀ key cause, cause ≤ s.store.cause key → cause = store.cause key →
      cause = s.store.cause key := by
    intro key cause hle heq
    exact le_antisymm hle (heq ▸ hcause key)
  constructor
  · intro a ha
    obtain ⟨hid, hle, hfollows⟩ := h.numbered a ha
    exact ⟨hid, hle.trans (hcause a.key), hfollows⟩
  · exact h.unique
  · exact h.outcome
  · exact h.finished
  · exact h.distinct
  · exact h.unfinished
  · intro r hr
    obtain ⟨a, ha, hid, hkey, hrows⟩ := h.snapshot r hr
    exact ⟨a, ha, hid, hkey, fun row hrow => (hrows row hrow).after hafter⟩
  · intro key row hrow
    change store.cursors key = some row at hrow
    rw [hcursors] at hrow
    exact (h.backed key row hrow).after hafter
  · intro key row hrow hpending heq
    change store.cursors key = some row at hrow
    rw [hcursors] at hrow
    exact h.live key row hrow hpending (hpresent key _ (h.backed key row hrow).cause_le heq)
  · intro a ha hfailed heq
    obtain ⟨hrow, hlater⟩ := h.held a ha hfailed (hpresent a.key _ (h.numbered a ha).2.1 heq)
    refine ⟨?_, hlater⟩
    show ∃ row, store.cursors a.key = some row ∧ _
    rw [hcursors]
    exact hrow

/-- The state after a read was admitted. -/
def grant (s : StateReads) (r : StateReadReservation) (supplied : PageCursor)
    (follows : Option ℕ) : StateReads where
  store := { s.store with
    cursors := Function.update s.store.cursors r.key
      (some ⟨s.store.cause r.key, s.nextReservation, true, none⟩) }
  outstanding := r :: s.outstanding
  nextReservation := s.nextReservation + 1
  log := .admitted ⟨r.reservationId, r.key, s.store.cause r.key, supplied, follows⟩ :: s.log

/-- **A read is admitted.** -/
theorem Inv.grant {s : StateReads} (h : Inv s) {r : StateReadReservation}
    {supplied : PageCursor} {follows : Option ℕ}
    (hid : r.reservationId = s.nextReservation) (hprevious : r.previous = s.store.cursors r.key)
    (hsettled : ∀ row, r.previous = some row → row.cause = s.store.cause r.key →
      row.pending = false)
    (hfollows : ∀ q, follows = some q → ∃ row, r.previous = some row ∧ row.reservationId = q) :
    Inv (s.grant r supplied follows) := by
  have hafter : After s (s.grant r supplied follows) :=
    ⟨List.subset_cons_self _ _, fun _ => le_refl _⟩
  -- The rows in the table were numbered before this read.
  have hearlier : ∀ key row, s.store.cursors key = some row →
      row.reservationId < s.nextReservation := by
    intro key row hrow
    obtain ⟨a, ha, haid, -⟩ := (h.backed key row hrow).admitted
    rw [← haid]
    exact (h.numbered a ha).1
  have houtstanding : ∀ r' ∈ s.outstanding, r'.reservationId < s.nextReservation := by
    intro r' hr'
    obtain ⟨a, ha, haid, -⟩ := h.snapshot r' hr'
    rw [← haid]
    exact (h.numbered a ha).1
  constructor
  · intro a ha
    rcases List.mem_cons.mp ha with heq | hold
    · obtain rfl := ReadEntry.admitted.inj heq
      refine ⟨?_, le_refl _, fun q hq => ?_⟩
      · show r.reservationId < s.nextReservation + 1
        omega
      · obtain ⟨row, hrow, rfl⟩ := hfollows q hq
        rw [hprevious] at hrow
        show row.reservationId < r.reservationId
        rw [hid]
        exact hearlier _ row hrow
    · obtain ⟨hlt, hle, hq⟩ := h.numbered a hold
      exact ⟨Nat.lt_succ_of_lt hlt, hle, hq⟩
  · intro a b ha hb heq
    rcases List.mem_cons.mp ha with hnew | ha <;> rcases List.mem_cons.mp hb with hnew' | hb
    · rw [ReadEntry.admitted.inj hnew, ReadEntry.admitted.inj hnew']
    · have := (h.numbered b hb).1
      rw [ReadEntry.admitted.inj hnew] at heq
      change r.reservationId = b.id at heq
      omega
    · have := (h.numbered a ha).1
      rw [ReadEntry.admitted.inj hnew'] at heq
      change a.id = r.reservationId at heq
      omega
    · exact h.unique a b ha hb heq
  · intro q page hissued hfailed
    exact h.outcome q page (by simpa [StateReads.grant] using hissued)
      (by simpa [StateReads.grant] using hfailed)
  · intro q hq
    exact Nat.lt_succ_of_lt (h.finished q (by simpa [StateReads.grant] using hq))
  · show (r.reservationId :: s.outstanding.map (·.reservationId)).Nodup
    refine List.nodup_cons.mpr ⟨fun hmem => ?_, h.distinct⟩
    obtain ⟨r', hr', heq⟩ := List.mem_map.mp hmem
    have := houtstanding r' hr'
    omega
  · intro r' hr'
    rcases List.mem_cons.mp hr' with rfl | hold
    · -- A new number did not finish before.
      constructor
      · intro hfailed
        have := h.finished _ (.inl (by simpa [StateReads.grant] using hfailed))
        omega
      · intro page hissued
        have := h.finished _ (.inr ⟨page, by simpa [StateReads.grant] using hissued⟩)
        omega
    · simpa [StateReads.grant] using h.unfinished r' hold
  · intro r' hr'
    rcases List.mem_cons.mp hr' with rfl | hold
    · refine ⟨_, List.mem_cons_self, rfl, rfl, fun row hrow => ?_⟩
      have hbacked := h.backed r'.key row (hprevious ▸ hrow)
      refine ⟨hbacked.after hafter, hbacked.cause_le, ?_, hsettled row hrow⟩
      show row.reservationId < r'.reservationId
      rw [hid]
      exact hearlier _ row (hprevious ▸ hrow)
    · obtain ⟨a, ha, haid, hkey, hrows⟩ := h.snapshot r' hold
      exact ⟨a, List.mem_cons_of_mem _ ha, haid, hkey, fun row hrow => (hrows row hrow).after hafter⟩
  · intro key row hrow
    by_cases hkey : key = r.key
    · subst hkey
      obtain rfl : _ = row := by simpa [StateReads.grant] using hrow
      exact ⟨le_refl _, ⟨_, List.mem_cons_self, hid, rfl, rfl⟩, fun hpending => nomatch hpending⟩
    · have hold : s.store.cursors key = some row := by
        simpa [StateReads.grant, Function.update_of_ne hkey] using hrow
      exact (h.backed key row hold).after hafter
  · intro key row hrow hpending hcause hfailed
    have hfailed' : .failed row.reservationId ∈ s.log := by
      simpa [StateReads.grant] using hfailed
    by_cases hkey : key = r.key
    · subst hkey
      obtain rfl : _ = row := by simpa [StateReads.grant] using hrow
      exact absurd (h.finished _ (.inl hfailed')) (lt_irrefl _)
    · have hold : s.store.cursors key = some row := by
        simpa [StateReads.grant, Function.update_of_ne hkey] using hrow
      exact h.live key row hold hpending hcause hfailed'
  · intro a ha hfailed hcause
    rcases List.mem_cons.mp ha with heq | hold
    · obtain rfl := ReadEntry.admitted.inj heq
      refine ⟨⟨⟨s.store.cause r.key, s.nextReservation, true, none⟩, ?_, rfl, ?_⟩, ?_⟩
      · simp [StateReads.grant]
      · exact hid.le
      · intro r' hr' _ hlt
        rcases List.mem_cons.mp hr' with rfl | hr'
        · exact absurd hlt (lt_irrefl _)
        · have := houtstanding r' hr'
          change r.reservationId < r'.reservationId at hlt
          omega
    · have hunfailed : .failed a.id ∉ s.log := fun hf => hfailed (List.mem_cons_of_mem _ hf)
      obtain ⟨⟨row, hrow, hrowcause, hle⟩, hlater⟩ := h.held a hold hunfailed hcause
      constructor
      · by_cases hkey : a.key = r.key
        · refine ⟨⟨s.store.cause r.key, s.nextReservation, true, none⟩, ?_, ?_, ?_⟩
          · simp [StateReads.grant, hkey]
          · rw [← hkey]
            exact hcause.symm
          · exact (h.numbered a hold).1.le
        · refine ⟨row, ?_, hrowcause, hle⟩
          simpa [StateReads.grant, Function.update_of_ne hkey] using hrow
      · intro r' hr' hkey hlt
        rcases List.mem_cons.mp hr' with rfl | hr'
        · exact ⟨row, by rw [hprevious, hkey]; exact hrow, hrowcause, hle⟩
        · exact hlater r' hr' hkey hlt

/-- The entry of a read that finished. -/
def finishedEntry (r : StateReadReservation) : Option StateReadResult → ReadEntry
  | none => .failed r.reservationId
  | some result => .issued r.reservationId result.issued

/-- The state after a read finished. -/
def finished (s : StateReads) (r : StateReadReservation) (result : Option StateReadResult) :
    StateReads :=
  { s with
    store := s.store.finish r result
    outstanding := s.outstanding.erase r
    log := finishedEntry r result :: s.log }

/-- **A read finishes.** -/
theorem Inv.finish {s : StateReads} (h : Inv s) {r : StateReadReservation}
    (hr : r ∈ s.outstanding) (result : Option StateReadResult) :
    Inv (s.finished r result) := by
  have hafter : After s (s.finished r result) :=
    ⟨List.subset_cons_self _ _, fun key => by simp [StateReads.finished]⟩
  have hcause : ∀ key, (s.finished r result).store.cause key = s.store.cause key := by
    simp [StateReads.finished]
  obtain ⟨hunfailed, hunissued⟩ := h.unfinished r hr
  obtain ⟨own, hown, hownId, hownKey, hsnapshot⟩ := h.snapshot r hr
  have hstill : ∀ r' ∈ s.outstanding.erase r, r' ∈ s.outstanding ∧
      r'.reservationId ≠ r.reservationId := by
    intro r' hr'
    obtain ⟨hne, hmem⟩ := (List.Nodup.of_map _ h.distinct).mem_erase_iff.mp hr'
    exact ⟨hmem, fun heq => hne (List.inj_on_of_nodup_map h.distinct hmem hr heq)⟩
  have hadmitted : ∀ a, .admitted a ∈ (s.finished r result).log → .admitted a ∈ s.log := by
    intro a ha
    rcases List.mem_cons.mp ha with heq | hold
    · cases result <;> cases heq
    · exact hold
  have hfailed : ∀ q, .failed q ∈ (s.finished r result).log →
      .failed q ∈ s.log ∨ q = r.reservationId ∧ result = none := by
    intro q hq
    rcases List.mem_cons.mp hq with heq | hold
    · cases result with
      | none => exact .inr ⟨ReadEntry.failed.inj heq, rfl⟩
      | some => cases heq
    · exact .inl hold
  have hissued : ∀ q page, .issued q page ∈ (s.finished r result).log →
      .issued q page ∈ s.log ∨ q = r.reservationId ∧ result ≠ none := by
    intro q page hq
    rcases List.mem_cons.mp hq with heq | hold
    · cases result with
      | none => cases heq
      | some => exact .inr ⟨(ReadEntry.issued.inj heq).1, Option.some_ne_none _⟩
    · exact .inl hold
  -- A row that was put back, or of the page that was issued, is backed.
  have hrows : ∀ key row, (s.finished r result).store.cursors key = some row →
      Backed (s.finished r result) key row ∧
        (row.pending = true → row.cause = s.store.cause key →
          .failed row.reservationId ∉ (s.finished r result).log) := by
    intro key row hrow
    cases result with
    | none =>
      rcases updateReserved_cases hrow with ⟨hold, hother⟩ | ⟨rfl, -, -, -, hrow⟩
      · refine ⟨(h.backed key row hold).after hafter, fun hpending heq hf => ?_⟩
        rcases hfailed _ hf with hf | ⟨hid, -⟩
        · exact h.live key row hold hpending heq hf
        · obtain ⟨a, ha, haid, hakey, -⟩ := (h.backed key row hold).admitted
          obtain rfl := h.unique a own ha hown (by rw [haid, hid, hownId])
          exact hother (hakey ▸ hownKey) hid
      · have hback := hsnapshot row hrow
        refine ⟨hownKey ▸ hback.backed.after hafter, fun hpending heq => ?_⟩
        -- Under the present cause the row that is put back is not pending.
        have hle := (h.numbered own hown).2.1
        rw [hownKey, ← heq] at hle
        have hsettled := hback.settled (le_antisymm hback.cause_le hle)
        rw [hsettled] at hpending
        cases hpending
    | some result =>
      rcases updateReserved_cases hrow with ⟨hold, -⟩ | ⟨rfl, row₀, hrow₀, hid, hrow⟩
      · refine ⟨(h.backed key row hold).after hafter, fun hpending heq hf => ?_⟩
        rcases hfailed _ hf with hf | ⟨-, hnone⟩
        · exact h.live key row hold hpending heq hf
        · cases hnone
      · obtain rfl := Option.some.inj hrow
        obtain ⟨hle, hadm, -⟩ := (h.backed r.key row₀ hrow₀).after hafter
        refine ⟨⟨hle, hadm, fun _ => ?_⟩, fun hpending => nomatch hpending⟩
        show ReadEntry.issued row₀.reservationId result.issued ∈ _
        rw [hid]
        exact List.mem_cons_self
  constructor
  · intro a ha
    rw [hcause]
    exact h.numbered a (hadmitted a ha)
  · exact fun a b ha hb => h.unique a b (hadmitted a ha) (hadmitted b hb)
  · intro q page hq hf
    rcases hfailed q hf with hf | ⟨rfl, hnone⟩
    · rcases hissued q page hq with hq | ⟨rfl, -⟩
      · exact h.outcome q page hq hf
      · exact hunfailed hf
    · rcases hissued _ page hq with hq | ⟨-, hresult⟩
      · exact hunissued page hq
      · exact hresult hnone
  · have hlt : r.reservationId < s.nextReservation := hownId ▸ (h.numbered own hown).1
    rintro q (hf | ⟨page, hq⟩)
    · rcases hfailed q hf with hf | ⟨rfl, -⟩
      · exact h.finished q (.inl hf)
      · exact hlt
    · rcases hissued q page hq with hq | ⟨rfl, -⟩
      · exact h.finished q (.inr ⟨page, hq⟩)
      · exact hlt
  · exact h.distinct.sublist (List.erase_sublist.map _)
  · intro r' hr'
    obtain ⟨hmem, hne⟩ := hstill r' hr'
    refine ⟨fun hf => ?_, fun page hq => ?_⟩
    · rcases hfailed _ hf with hf | ⟨heq, -⟩
      · exact (h.unfinished r' hmem).1 hf
      · exact hne heq
    · rcases hissued _ page hq with hq | ⟨heq, -⟩
      · exact (h.unfinished r' hmem).2 page hq
      · exact hne heq
  · intro r' hr'
    obtain ⟨a, ha, hid, hkey, hsnap⟩ := h.snapshot r' (hstill r' hr').1
    exact ⟨a, hafter.log ha, hid, hkey, fun row hrow => (hsnap row hrow).after hafter⟩
  · exact fun key row hrow => (hrows key row hrow).1
  · intro key row hrow hpending heq
    rw [hcause] at heq
    exact (hrows key row hrow).2 hpending heq
  · intro a ha hf heq
    rw [hcause] at heq
    have hf' : .failed a.id ∉ s.log := fun hold => hf (hafter.log hold)
    obtain ⟨⟨row, hrow, hrowCause, hle⟩, hlater⟩ := h.held a (hadmitted a ha) hf' heq
    refine ⟨?_, fun r' hr' => hlater r' (hstill r' hr').1⟩
    cases result with
    | some result =>
      show ∃ row, (s.store.updateReserved r _).cursors a.key = some row ∧ _
      rw [updateReserved_eq hrow]
      split
      · exact ⟨_, rfl, hrowCause, hle⟩
      · exact ⟨row, rfl, hrowCause, hle⟩
    | none =>
      show ∃ row, (s.store.updateReserved r _).cursors a.key = some row ∧ _
      rw [updateReserved_eq hrow]
      split
      · rename_i hboth
        -- The read that failed came later, and puts back a row of the same cause.
        have hne : a.id ≠ r.reservationId := by
          rintro heq
          exact hf (heq ▸ List.mem_cons_self)
        exact hlater r hr hboth.1.symm (lt_of_le_of_ne (hboth.2 ▸ hle) hne)
      · exact ⟨row, rfl, hrowCause, hle⟩

/-- A read is lost: nothing is put back. -/
theorem Inv.abandon {s : StateReads} (h : Inv s) (r : StateReadReservation) :
    Inv { s with outstanding := s.outstanding.erase r } := by
  have hstill : ∀ r' ∈ s.outstanding.erase r, r' ∈ s.outstanding :=
    fun _ hr' => List.mem_of_mem_erase hr'
  have hafter : After s { s with outstanding := s.outstanding.erase r } :=
    ⟨fun _ he => he, fun _ => le_refl _⟩
  exact { h with
    distinct := h.distinct.sublist (List.erase_sublist.map _)
    unfinished := fun r' hr' => h.unfinished r' (hstill r' hr')
    snapshot := fun r' hr' => by
      obtain ⟨a, ha, hid, hkey, hrows⟩ := h.snapshot r' (hstill r' hr')
      exact ⟨a, ha, hid, hkey, fun row hrow => (hrows row hrow).after hafter⟩
    backed := fun key row hrow => (h.backed key row hrow).after hafter
    held := fun a ha hf heq =>
      ⟨(h.held a ha hf heq).row, fun r' hr' => (h.held a ha hf heq).later r' (hstill r' hr')⟩ }

/-! ## Runs -/

/-- The state when the input of a call was recorded. -/
def observed (s : StateReads) (c : StateReadCall) : StateReads :=
  { s with store := s.store.recordInput c.attachmentId c.nativeDigest }

theorem Inv.observed {s : StateReads} (h : Inv s) (c : StateReadCall) : Inv (s.observed c) :=
  h.forward (cursors_recordInput _ _) (cause_le_recordInput _ _)

/-- **A read that is admitted is admitted where its input is recorded.** -/
theorem grant_of_reserve {s : StateReads} {c : StateReadCall} {r : StateReadReservation}
    {store : StateReadStore} (h : s.store.reserve c s.nextReservation = .ok (some r, store)) :
    ({ store, outstanding := r :: s.outstanding, nextReservation := s.nextReservation + 1,
       log := .admitted (admission c r.key.2.tool r store) :: s.log } : StateReads) =
      (s.observed c).grant r (c.suppliedCursor r.key.2.tool)
        (admission c r.key.2.tool r store).follows := by
  obtain ⟨-, -, -, -, -, rfl⟩ := reserve_cases h
  unfold grant observed
  congr 1
  simp only [cursors_recordInput]

theorem Inv.reserve {s : StateReads} (h : Inv s) {c : StateReadCall} {r : StateReadReservation}
    {store : StateReadStore} (hreserve : s.store.reserve c s.nextReservation = .ok (some r, store)) :
    Inv ((s.observed c).grant r (c.suppliedCursor r.key.2.tool)
      (admission c r.key.2.tool r store).follows) := by
  obtain ⟨-, -, hid, hprevious, hpage, -⟩ := reserve_cases hreserve
  refine (h.observed c).grant hid ?_ (fun row hrow hcause => ?_) (fun q hq => ?_)
  · rw [hprevious]
    exact (congrFun (cursors_recordInput _ _) _).symm
  · have hforward := hpage row hrow hcause
    rw [hrow] at hforward
    exact (forwardPage_eq_true hforward).2.2
  · unfold admission at hq
    dsimp only at hq
    split at hq
    · exact Option.map_eq_some_iff.mp hq
    · cases hq

theorem inv_of_step {s s' : StateReads} {e : Event} (h : Inv s) (hstep : s.step e = some s') :
    Inv s' := by
  cases e with
  | reserve c =>
    unfold step at hstep
    dsimp only at hstep
    split at hstep
    · obtain rfl := Option.some.inj hstep
      exact h
    · rename_i store hreserve
      obtain rfl := Option.some.inj hstep
      obtain rfl := eq_of_reserve_none hreserve
      exact h
    · rename_i r store hreserve
      obtain rfl := Option.some.inj hstep
      rw [grant_of_reserve hreserve]
      exact h.reserve hreserve
  | finish r result =>
    obtain ⟨hr, rfl⟩ := TransitionSystem.of_guarded hstep
    exact h.finish hr result
  | abandon r =>
    obtain ⟨-, rfl⟩ := TransitionSystem.of_guarded hstep
    exact h.abandon r
  | commit notifications commands =>
    obtain rfl := Option.some.inj hstep
    refine h.forward rfl fun key => Prod.mk_le_mk.mpr ⟨le_refl _, Prod.mk_le_mk.mpr ⟨?_, ?_⟩⟩
    · exact Nat.le_max_left _ _
    · exact Nat.le_max_left _ _

theorem inv_of_reachable {s : StateReads} (hs : system.Reachable s) : Inv s := by
  refine TransitionSystem.Reachable.invariant (T := system) (fun s hinit => ?_)
    (fun _ _ _ _ h hstep => inv_of_step h hstep) hs
  obtain ⟨hcursors, houtstanding, hlog⟩ := hinit
  constructor <;> simp [hcursors, houtstanding, hlog]

/-! ## The discipline -/

/-- **A read is the next page of the reads since another one**: it asks for the page
that a read since the other one issued, and the other one did not ask for it. -/
def NextPage (log : List ReadEntry) (a b : StateReadAdmission) : Prop :=
  ∃ q, b.follows = some q ∧ b.supplied.truthy = true ∧ .issued q (some b.supplied) ∈ log ∧
    a.id ≤ q ∧ a.follows ≠ some q

/-- A second read under one cause continues the first. -/
theorem nextPage_of_reserve {s : StateReads} (h : Inv s) {c : StateReadCall}
    {r : StateReadReservation} {store : StateReadStore}
    (hreserve : s.store.reserve c s.nextReservation = .ok (some r, store)) {a : StateReadAdmission}
    (ha : .admitted a ∈ s.log) (hkey : a.key = r.key) (hcause : a.cause = store.cause r.key)
    (hfailed : .failed a.id ∉ s.log) :
    NextPage s.log a (admission c r.key.2.tool r store) := by
  obtain ⟨-, -, hid, hprevious, hpage, hstore⟩ := reserve_cases hreserve
  have hpresent : store.cause r.key = (s.observed c).store.cause r.key := by
    rw [hstore]
    rfl
  rw [hpresent] at hcause
  obtain ⟨⟨row, hrow, hrowCause, hle⟩, -⟩ :=
    (h.observed c).held a ha hfailed (by rw [hcause, hkey])
  have hprior : r.previous = some row := by
    rw [hprevious, ← hkey, ← hrow]
    exact (congrFun (cursors_recordInput _ _) _).symm
  have hforward := hpage row hprior (hrowCause.trans hcause)
  have hfollows : (admission c r.key.2.tool r store).follows = some row.reservationId := by
    show (if forwardPage r.previous _ = true then _ else none) = _
    rw [if_pos hforward, hprior]
    rfl
  rw [hprior] at hforward
  obtain ⟨htruthy, hnext, hsettled⟩ := forwardPage_eq_true hforward
  have hissued := ((h.observed c).backed a.key row hrow).issued hsettled
  rw [hnext] at hissued
  refine ⟨row.reservationId, hfollows, htruthy, hissued, hle, fun hearlier => ?_⟩
  have hlt := (h.numbered a ha).2.2 _ hearlier
  exact absurd hle (not_le.mpr hlt)

/-- Each read in the log continues the reads before it under its cause. -/
def Disciplined (log : List ReadEntry) : Prop :=
  ∀ later b earlier, log = later ++ .admitted b :: earlier →
    ∀ a, .admitted a ∈ earlier → a.key = b.key → a.cause = b.cause → .failed a.id ∉ earlier →
      NextPage earlier a b

theorem Disciplined.cons {log : List ReadEntry} {e : ReadEntry} (h : Disciplined log)
    (he : ∀ b, e = .admitted b → ∀ a, .admitted a ∈ log → a.key = b.key → a.cause = b.cause →
      .failed a.id ∉ log → NextPage log a b) : Disciplined (e :: log) := by
  intro later b earlier heq
  cases later with
  | nil =>
    obtain ⟨rfl, rfl⟩ := List.cons.inj heq
    exact he b rfl
  | cons e' later =>
    obtain ⟨-, heq⟩ := List.cons.inj heq
    exact h later b earlier heq

theorem disciplined_of_step {s s' : StateReads} {e : Event} (hinv : Inv s)
    (h : Disciplined s.log) (hstep : s.step e = some s') : Disciplined s'.log := by
  cases e with
  | reserve c =>
    unfold step at hstep
    dsimp only at hstep
    split at hstep
    · obtain rfl := Option.some.inj hstep
      exact h
    · obtain rfl := Option.some.inj hstep
      exact h
    · rename_i r store hreserve
      obtain rfl := Option.some.inj hstep
      refine h.cons fun b hb a ha hkey hcause hfailed => ?_
      obtain rfl := ReadEntry.admitted.inj hb
      exact nextPage_of_reserve hinv hreserve ha hkey hcause hfailed
  | finish r result =>
    obtain ⟨-, rfl⟩ := TransitionSystem.of_guarded hstep
    refine h.cons fun b hb => ?_
    cases result <;> cases hb
  | abandon r =>
    obtain ⟨-, rfl⟩ := TransitionSystem.of_guarded hstep
    exact h
  | commit notifications commands =>
    obtain rfl := Option.some.inj hstep
    exact h

theorem disciplined_of_reachable {s : StateReads} (hs : system.Reachable s) :
    Disciplined s.log := by
  refine TransitionSystem.Reachable.invariant (T := system) (I := fun s => Disciplined s.log)
    (fun s hinit => ?_) (fun _ _ _ hs h hstep => disciplined_of_step (inv_of_reachable hs) h hstep)
    hs
  intro later b earlier heq
  rw [hinit.2.2] at heq
  cases later <;> cases heq

/-- **A turn is not lost**: a call whose reads under the present cause all failed is
admitted. -/
theorem reserve_of_failed {s : StateReads} (h : Inv s) {c : StateReadCall} {tool : StateReadTool}
    (hmetered : c.metered = some tool) (hcurrent : c.current = true)
    (hfailed : ∀ a, .admitted a ∈ s.log → a.key = c.key tool →
      a.cause = (s.observed c).store.cause (c.key tool) → .failed a.id ∈ s.log) :
    ∃ r store, s.store.reserve c s.nextReservation = .ok (some r, store) := by
  have hnone : ∀ row, (s.observed c).store.cursors (c.key tool) = some row →
      row.cause ≠ (s.observed c).store.cause (c.key tool) := by
    intro row hrow hcause
    have hbacked := (h.observed c).backed _ row hrow
    obtain ⟨a, ha, hid, hkey, hacause⟩ := hbacked.admitted
    have hf := hfailed a ha hkey (hacause.trans hcause)
    rw [hid] at hf
    cases hpending : row.pending with
    | true => exact (h.observed c).live _ row hrow hpending hcause hf
    | false => exact h.outcome _ _ (hbacked.issued hpending) hf
  have hearlier : ((s.observed c).store.cursors (c.key tool)).any
      (·.cause = (s.observed c).store.cause (c.key tool)) = false := by
    rw [Option.any_eq_false]
    intro row hrow
    simpa using hnone row hrow
  unfold reserve
  rw [hmetered]
  dsimp only
  rw [hcurrent, if_neg (by decide)]
  change ((s.store.recordInput c.attachmentId c.nativeDigest).cursors (c.key tool)).any
    (·.cause = (s.store.recordInput c.attachmentId c.nativeDigest).cause (c.key tool)) = false
    at hearlier
  rw [hearlier, Bool.false_and, if_neg (by decide)]
  exact ⟨_, _, rfl⟩

/-- **State reads are admitted once, and no turn is lost.** Under one cause a read
after one that did not fail asks for the next page of the reads since, and no
two of them ask for the page of one read; and a call is admitted where every
read of its resource under the present cause failed. -/
theorem reads_disciplined {s : StateReads} (hs : system.Reachable s) :
    (∀ later b earlier, s.log = later ++ .admitted b :: earlier →
      ∀ a, .admitted a ∈ earlier → a.key = b.key → a.cause = b.cause → .failed a.id ∉ earlier →
        NextPage earlier a b) ∧
    ∀ c tool, c.metered = some tool → c.current = true →
      (∀ a, .admitted a ∈ s.log → a.key = c.key tool →
        a.cause = (s.observed c).store.cause (c.key tool) → .failed a.id ∈ s.log) →
      ∃ r store, s.store.reserve c s.nextReservation = .ok (some r, store) :=
  ⟨disciplined_of_reachable hs, fun _ _ hmetered hcurrent =>
    reserve_of_failed (inv_of_reachable hs) hmetered hcurrent⟩

/-- Nothing was read yet. -/
def unread : StateReads := ⟨⟨[], 0, fun _ => 0, fun _ => 0, fun _ => none⟩, [], 0, []⟩

theorem unread_initial : Initial unread := ⟨fun _ => rfl, rfl, rfl⟩

/-- The conversation `7` asks for a page of its Works. -/
def querying (cursor : Option PageCursor) : StateReadCall where
  attachmentId := 7
  conversationCredential := true
  runtimeCredential := false
  readinessProbe := false
  tool := some .query
  workItemId := none
  after := none
  beforeSequence := none
  cursor := cursor
  nativeDigest := some "turn-1"
  current := true

/-- The resource of a query. -/
def queries : StateReadKey := (7, ⟨.query, none⟩)

/-- A first page is read, and the second. -/
def paging : List Event :=
  [.reserve (querying none), .finish ⟨queries, 0, none⟩ (some ⟨some (some (.text "page-2")), none⟩),
   .reserve (querying (some (.text "page-2")))]

/-- The first page. -/
def firstPage : StateReadAdmission := ⟨0, queries, (1, 0, 0), .text "", none⟩

/-- The second page. -/
def secondPage : StateReadAdmission := ⟨1, queries, (1, 0, 0), .text "page-2", some 0⟩

/-- The second page continues the first, and the inbox can still be read. -/
theorem second_page_admitted :
    NextPage [.issued 0 (some (.text "page-2")), .admitted firstPage] firstPage secondPage ∧
      ∃ s, (system.Reachable s ∧ s.log.length = 3) ∧ ∃ r store,
        s.store.reserve { querying none with tool := some .getInbox } s.nextReservation =
          .ok (some r, store) := by
  obtain ⟨s, hs, hlog⟩ : ∃ s, system.Reachable s ∧ s.log =
      [.admitted secondPage, .issued 0 (some (.text "page-2")), .admitted firstPage] :=
    ⟨_, TransitionSystem.Reachable.replay paging (.of_init unread_initial) rfl, rfl⟩
  obtain ⟨hpages, hturn⟩ := reads_disciplined hs
  refine ⟨?_, s, ⟨hs, by rw [hlog]; rfl⟩, ?_⟩
  · exact hpages [] secondPage _ hlog firstPage (List.mem_cons_of_mem _ List.mem_cons_self) rfl rfl
      (by simp)
  · refine hturn _ .getInbox rfl rfl fun a ha hkey => ?_
    -- Both reads in the log are queries.
    have hquery : a.key = queries := by
      rw [hlog] at ha
      simp only [List.mem_cons, ReadEntry.admitted.injEq, reduceCtorEq, List.not_mem_nil,
        or_false, false_or] at ha
      rcases ha with rfl | rfl <;> rfl
    rw [hquery] at hkey
    exact absurd hkey (by decide)

end StateReads
