import OpenCAO.Models
import OpenCAO.Transaction
import OpenCAO.UniqueRows

/-!
# What a Worker leaves behind

When the thread of a managed Worker is finished or deleted, its unsettled Work is settled in
the same transaction: the Works are canceled with their Attempts, the Boundaries that are
open and the directives that are pending are superseded, and deliveries that nobody holds
are given up. What somebody holds or has held – a delivery that was dispatched, delivered or
acknowledged, one with a lease that runs – is evidence of an outcome that is not known here,
and stays.

The tables of this module are the ones that the settlement reads and writes. The event that
opened a Boundary is looked for in the log; whether it is there, and is what it should be,
is part of the call.
-/

namespace WorkerThreads

/-! ## Tables -/

inductive DirectiveState
  | pending
  | handled
  | superseded
  | canceled
  deriving DecidableEq, Repr

/-- Whether a row refers to a Boundary that settles it. -/
inductive Standing
  | «open»
  | disposed
  | superseded
  deriving DecidableEq, Repr

/-- A row of `principals`. -/
structure Principal where
  id : String
  role : PrincipalRole
  enabled : Bool
  deriving DecidableEq, Repr

/-- A row of `cao_session_attachments`. -/
structure Attachment where
  id : String
  principalId : String
  projectScopeDigest : String
  generation : ℕ
  active : Bool
  deriving DecidableEq, Repr

/-- A row of `work_items`. -/
structure Work where
  id : String
  assignedWorkerId : String
  supervisorId : String
  supervisorAttachmentId : Option String
  state : WorkState
  attentionOwner : AttentionOwner
  generation : ℕ
  userNeededBoundaryId : Option String
  pausedBoundaryId : Option String
  suspendedByWorkItemId : Option String
  deriving DecidableEq, Repr

/-- A row of `attempts`. -/
structure Attempt where
  id : String
  workItemId : String
  workerId : String
  state : AttemptState
  deriving DecidableEq, Repr

/-- A row of `boundaries`, with what refers to it. -/
structure Boundary where
  id : String
  workItemId : String
  generation : ℕ
  standing : Standing
  deriving DecidableEq, Repr

/-- A row of `directives`. -/
structure Directive where
  id : String
  targetWorkItemId : Option String
  createdWorkItemId : Option String
  state : DirectiveState
  deriving DecidableEq, Repr

/-- A row of `messages`. -/
structure Message where
  id : String
  workItemId : Option String
  attemptId : Option String
  senderId : String
  deriving DecidableEq, Repr

/-- A row of `message_deliveries`. -/
structure MessageDelivery where
  messageId : String
  recipientId : String
  state : DeliveryState
  generation : ℕ
  runtimeSessionId : Option String
  leaseUntil : Option ℕ
  ownerToken : String
  lastError : String
  nextAttemptAt : ℕ
  deriving DecidableEq, Repr

def Principal.Clash (a b : Principal) : Prop := a.id = b.id

def Work.Clash (a b : Work) : Prop := a.id = b.id

def MessageDelivery.Clash (a b : MessageDelivery) : Prop :=
  a.messageId = b.messageId ∧ a.recipientId = b.recipientId

instance : DecidableRel Principal.Clash := fun a b => inferInstanceAs (Decidable (a.id = b.id))

instance : DecidableRel Work.Clash := fun a b => inferInstanceAs (Decidable (a.id = b.id))

instance : DecidableRel MessageDelivery.Clash := fun _ _ => inferInstanceAs (Decidable (_ ∧ _))

/-- **The ledger**: what the rest of the control plane writes, as far as it is read here. -/
structure Ledger where
  principals : UniqueRows Principal Principal.Clash
  attachments : List Attachment
  works : UniqueRows Work Work.Clash
  attempts : List Attempt
  boundaries : List Boundary
  directives : List Directive
  messages : List Message
  deliveries : UniqueRows MessageDelivery MessageDelivery.Clash

def Ledger.empty : Ledger := ⟨.empty, [], .empty, [], [], [], [], .empty⟩

/-- Why a conflict is answered. -/
inductive Reason
  | idempotency
  | workerThreadGenerationConflict
  | workerThreadStateConflict
  | workerThreadFinishBlocked
  | workerThreadDeleteBlocked
  | workerConnectionRecoveryRequired
  | workerConnectionGenerationConflict
  | workerCommandBindingConflict
  | workerCommandGenerationConflict
  | workerCommandOutcomeUnsettled
  | workerInstructionOutcomeUnknown
  deriving DecidableEq, Repr

inductive Error
  | authorization
  | notFound
  | conflict (reason : Reason)
  | integrity
  /-- What the rest of a command raises. -/
  | other
  deriving DecidableEq, Repr

/-! ## Statements -/

def updateWorks (f : Work → Work) : Tx Ledger Error PUnit := do
  let l ← get
  let works ← Tx.need (l.works.update f) .integrity
  set { l with works := works }

def updateDeliveries (f : MessageDelivery → MessageDelivery) : Tx Ledger Error PUnit := do
  let l ← get
  let deliveries ← Tx.need (l.deliveries.update f) .integrity
  set { l with deliveries := deliveries }

/-! ## The settlement -/

/-- What is settled, and by whom. -/
structure Closing where
  actorId : String
  principalId : String
  /-- The project of the Worker. -/
  projectScopeDigest : String
  /-- The runtimes of its epochs. -/
  runtimeIds : List String
  /-- The Boundaries whose opening event is the one expected. -/
  opened : List String
  /-- How the blockers of this command are reported. -/
  blocked : Reason
  /-- `terminal_reason_code`. -/
  reasonCode : String
  now : ℕ
  deriving DecidableEq, Repr

/-- A Work that is not settled. -/
def Work.Unsettled (principalId : String) (w : Work) : Prop :=
  w.assignedWorkerId = principalId ∧ w.state.terminal = false

instance (principalId : String) (w : Work) : Decidable (w.Unsettled principalId) :=
  inferInstanceAs (Decidable (_ ∧ _))

/-- The Works of a Worker. -/
def Ledger.workRows (l : Ledger) (principalId : String) : List Work :=
  l.works.rows.filter fun w => w.assignedWorkerId = principalId

def Ledger.unsettledWork (l : Ledger) (principalId : String) : List Work :=
  l.works.rows.filter fun w => w.Unsettled principalId

/-- The Work is supervised by the caller, from the project of the Worker. -/
def Ledger.Supervised (l : Ledger) (c : Closing) (w : Work) : Prop :=
  w.supervisorId = c.actorId ∧ ∃ a ∈ l.attachments, w.supervisorAttachmentId = some a.id ∧
    a.principalId = c.actorId ∧ a.projectScopeDigest = c.projectScopeDigest

instance (l : Ledger) (c : Closing) (w : Work) : Decidable (l.Supervised c w) :=
  inferInstanceAs (Decidable (_ ∧ _))

/-- The row that the cancellation of `w` has in view is still there. `NULL = NULL` does not
hold. -/
def Work.Current (principalId : String) (w u : Work) : Prop :=
  u.id = w.id ∧ u.generation = w.generation ∧ u.state = w.state ∧
    u.assignedWorkerId = principalId ∧ w.supervisorAttachmentId ≠ none ∧
    u.supervisorAttachmentId = w.supervisorAttachmentId

instance (principalId : String) (w u : Work) : Decidable (Work.Current principalId w u) :=
  inferInstanceAs (Decidable (_ ∧ _ ∧ _ ∧ _ ∧ _ ∧ _))

/-- A Work is canceled; a suspension by a Work that is not settled along with it stays as it
is. -/
def Work.cancel (unsettled : List Work) (u : Work) : Work :=
  { u with
    state := .canceled
    attentionOwner := .none
    generation := u.generation + 1
    userNeededBoundaryId := none
    pausedBoundaryId := none
    suspendedByWorkItemId := u.suspendedByWorkItemId.filter fun id => ∀ w ∈ unsettled, w.id ≠ id }

/-- One Work of the settlement, with the Attempts of the Worker and with its Boundaries. -/
def cancelWork (c : Closing) (unsettled : List Work) (w : Work) : Tx Ledger Error PUnit := do
  let l ← get
  Tx.require (∃ u ∈ l.works.rows, Work.Current c.principalId w u) (.conflict c.blocked)
  updateWorks fun u => if Work.Current c.principalId w u then u.cancel unsettled else u
  modify fun l =>
    { l with
      attempts := l.attempts.map fun a =>
        if a.workItemId = w.id ∧ a.workerId = c.principalId ∧ a.state.terminal = false then
          { a with state := .canceled }
        else a
      boundaries := l.boundaries.map fun b =>
        if b.workItemId = w.id ∧ b.standing = .open ∧ b.id ∈ c.opened ∧
            b.generation ≤ w.generation then
          { b with standing := .superseded }
        else b }

/-- The directive is about Works of these, and about no other. -/
def Directive.About (ids : List String) (d : Directive) : Prop :=
  (d.targetWorkItemId ≠ none ∨ d.createdWorkItemId ≠ none) ∧
    (∀ id ∈ d.targetWorkItemId, id ∈ ids) ∧ ∀ id ∈ d.createdWorkItemId, id ∈ ids

instance (ids : List String) (d : Directive) : Decidable (d.About ids) :=
  inferInstanceAs (Decidable (_ ∧ _ ∧ _))

/-- Nobody holds the delivery. -/
def MessageDelivery.Unclaimed (now : ℕ) (d : MessageDelivery) : Prop :=
  d.state = .queued ∧ d.ownerToken = "" ∧ (∀ t ∈ d.leaseUntil, t ≤ now) ∨
    d.state = .leased ∧ (d.ownerToken = "" ∨ ∃ t ∈ d.leaseUntil, t ≤ now)

instance (now : ℕ) (d : MessageDelivery) : Decidable (d.Unclaimed now) :=
  inferInstanceAs (Decidable (_ ∧ _ ∧ _ ∨ _ ∧ _))

/-- The delivery has to do with the Worker. -/
def Ledger.Related (l : Ledger) (c : Closing) (ids : List String) (d : MessageDelivery) : Prop :=
  ∃ m ∈ l.messages, m.id = d.messageId ∧
    ((∃ id ∈ m.workItemId, id ∈ ids) ∨ m.senderId = c.principalId ∨
      d.recipientId = c.principalId ∨
      (∃ a ∈ l.attempts, m.attemptId = some a.id ∧ a.workerId = c.principalId) ∨
      ∃ id ∈ d.runtimeSessionId, id ∈ c.runtimeIds)

instance (l : Ledger) (c : Closing) (ids : List String) (d : MessageDelivery) :
    Decidable (l.Related c ids d) :=
  inferInstanceAs (Decidable (∃ m ∈ l.messages, _ ∧ _))

/-- The ledger part of `_terminalize_worker_thread_for_delete_tx`. What it only counts for its
event – anomalies of the metadata, effects and deliveries that stay – is not modelled. -/
def settleWorkerWork (c : Closing) : Tx Ledger Error PUnit := do
  let l ← get
  let unsettled := l.unsettledWork c.principalId
  let ids := (l.workRows c.principalId).map Work.id
  Tx.require (∀ w ∈ unsettled, l.Supervised c w) (.conflict c.blocked)
  Tx.require (∀ w ∈ unsettled, ∀ a ∈ l.attempts, a.workItemId = w.id → a.state.terminal = false →
    a.workerId = c.principalId) (.conflict c.blocked)
  Tx.each (cancelWork c unsettled) unsettled
  modify fun t =>
    { t with
      directives := t.directives.map fun d =>
        if d.state = .pending ∧ d.About ids then { d with state := .superseded } else d }
  updateDeliveries fun d =>
    if l.Related c ids d ∧ d.Unclaimed c.now then
      { d with
        state := .dead
        nextAttemptAt := c.now
        leaseUntil := none
        ownerToken := ""
        lastError := c.reasonCode }
    else d

/-! ## What is settled -/

variable {c : Closing} {l : Ledger}

theorem updateWorks_ensures (f : Work → Work) : Tx.Ensures l (updateWorks f) fun _ t =>
    ∃ works, works.rows = l.works.rows.map f ∧ t = { l with works := works } := by
  unfold updateWorks
  exact .get (.need fun works h => ⟨works, UniqueRows.rows_update h, rfl⟩)

theorem updateDeliveries_ensures (f : MessageDelivery → MessageDelivery) :
    Tx.Ensures l (updateDeliveries f) fun _ t => ∃ deliveries,
      deliveries.rows = l.deliveries.rows.map f ∧ t = { l with deliveries := deliveries } := by
  unfold updateDeliveries
  exact .get (.need fun deliveries h => ⟨deliveries, UniqueRows.rows_update h, rfl⟩)

theorem work_eq {u w : Work} (hu : u ∈ l.works.rows) (hw : w ∈ l.works.rows) (h : u.id = w.id) :
    u = w :=
  l.works.eq_of_clash (fun _ _ h => Eq.symm h) hu hw h

/-- The Works when some of the unsettled ones are still to be canceled. -/
def Work.during (unsettled rest : List Work) (u : Work) : Work :=
  if u ∈ unsettled ∧ u ∉ rest then u.cancel unsettled else u

theorem Work.during_id (unsettled rest : List Work) (u : Work) :
    (u.during unsettled rest).id = u.id := by
  unfold Work.during
  split <;> rfl

/-- What the cancellations have reached. -/
structure Canceling (c : Closing) (l : Ledger) (rest : List Work) (t : Ledger) : Prop where
  nodup : rest.Nodup
  subset : rest ⊆ l.unsettledWork c.principalId
  works : t.works.rows = l.works.rows.map
    (Work.during (l.unsettledWork c.principalId) rest)
  deliveries : t.deliveries = l.deliveries

theorem cancelWork_ensures {w : Work} {rest : List Work} {t : Ledger}
    (h : Canceling c l (w :: rest) t) :
    Tx.Ensures t (cancelWork c (l.unsettledWork c.principalId) w) fun _ t' =>
      Canceling c l rest t' := by
  have hw : w ∈ l.unsettledWork c.principalId := h.subset List.mem_cons_self
  obtain ⟨hrest, hnodup⟩ := List.nodup_cons.mp h.nodup
  unfold cancelWork
  refine .get (.require fun hcurrent => (updateWorks_ensures _).bind fun _ t₁ ht₁ => ?_)
  obtain ⟨works, hworks, rfl⟩ := ht₁
  refine ⟨hnodup, fun u hu => h.subset (List.mem_cons_of_mem w hu), ?_, h.deliveries⟩
  show works.rows = _
  rw [hworks, h.works, List.map_map]
  refine List.map_congr_left fun u hu => ?_
  show (if Work.Current c.principalId w (u.during _ (w :: rest)) then _ else _) = _
  by_cases hsame : u = w
  · -- the row that was found current is this one
    subst hsame
    have hnow : u.during (l.unsettledWork c.principalId) (u :: rest) = u :=
      if_neg fun h => h.2 List.mem_cons_self
    have hthen : u.during (l.unsettledWork c.principalId) rest = u.cancel _ := if_pos ⟨hw, hrest⟩
    have hfound : Work.Current c.principalId u u := by
      obtain ⟨v, hv, hvcurrent⟩ := hcurrent
      rw [h.works, List.mem_map] at hv
      obtain ⟨v', hv', rfl⟩ := hv
      obtain rfl : v' = u := work_eq hv' hu ((Work.during_id _ _ v').symm.trans hvcurrent.1)
      rwa [hnow] at hvcurrent
    rw [hnow, if_pos hfound, hthen]
  · have hwmem : w ∈ l.works.rows := (List.mem_filter.mp hw).1
    rw [if_neg fun hcurrent => hsame (work_eq hu hwmem
      ((Work.during_id _ _ u).symm.trans hcurrent.1))]
    have hiff : (u ∉ w :: rest) ↔ u ∉ rest := by
      rw [List.mem_cons]
      exact ⟨fun h hu => h (.inr hu), fun h => fun h' => h'.elim hsame h⟩
    unfold Work.during
    simp only [hiff]

/-- **The Work of a Worker is settled.** -/
structure Settled (principalId : String) (l l' : Ledger) : Prop where
  /-- Every unsettled Work is canceled, in its next generation. -/
  canceled : ∀ w ∈ l.works.rows, w.assignedWorkerId = principalId → w.state.terminal = false →
    ∃ w' ∈ l'.works.rows, w'.id = w.id ∧ w'.state = .canceled ∧ w'.generation = w.generation + 1
  /-- None is left. -/
  none : ∀ w ∈ l'.works.rows, w.assignedWorkerId = principalId → w.state.terminal = true
  /-- Others stay as they are. -/
  others : ∀ w ∈ l.works.rows, ¬ w.Unsettled principalId → w ∈ l'.works.rows
  /-- What was handed out stays as it is. -/
  deliveries : ∀ d ∈ l.deliveries.rows,
    d.state ∈ [DeliveryState.dispatched, .delivered, .acknowledged] → d ∈ l'.deliveries.rows

theorem Canceling.done {t : Ledger} (h : Canceling c l [] t) {w : Work} (hw : w ∈ l.works.rows) :
    (if w.Unsettled c.principalId then w.cancel (l.unsettledWork c.principalId) else w) ∈
      t.works.rows := by
  rw [h.works, List.mem_map]
  refine ⟨w, hw, ?_⟩
  have hiff : (w ∈ l.unsettledWork c.principalId ∧ w ∉ []) ↔ w.Unsettled c.principalId := by
    simp [Ledger.unsettledWork, hw]
  unfold Work.during
  simp only [hiff]

theorem settleWorkerWork_ensures (c : Closing) (l : Ledger) :
    Tx.Ensures l (settleWorkerWork c) fun _ l' => Settled c.principalId l l' := by
  unfold settleWorkerWork
  refine .get (.require fun _ => .require fun _ => ?_)
  have hnodup : (l.unsettledWork c.principalId).Nodup :=
    (List.Pairwise.imp (fun {u w} h (hsame : u = w) => h (congrArg Work.id hsame))
      l.works.unique).sublist List.filter_sublist
  have hstart : Canceling c l (l.unsettledWork c.principalId) l :=
    ⟨hnodup, fun _ h => h, ((List.map_congr_left fun u _ =>
      if_neg fun h => h.2 h.1).trans (List.map_id _)).symm, rfl⟩
  refine Tx.Ensures.bind (Tx.wp_each_rest (I := fun rest t => Canceling c l rest t) _
    (fun w rest t h => cancelWork_ensures h) hstart) fun _ t ht => ?_
  refine .modify ((updateDeliveries_ensures _).mono fun _ t' ht' => ?_)
  obtain ⟨deliveries, hdeliveries, rfl⟩ := ht'
  refine ⟨fun w hw hworker hstate => ?_, fun w hw hworker => ?_, fun w hw hsettled => ?_,
    fun d hd hheld => ?_⟩
  · have hmem := ht.done hw
    rw [if_pos ⟨hworker, hstate⟩] at hmem
    exact ⟨_, hmem, rfl, rfl, rfl⟩
  · rw [show _ = t.works.rows from rfl, ht.works, List.mem_map] at hw
    obtain ⟨u, hu, rfl⟩ := hw
    unfold Work.during at hworker ⊢
    split
    case isTrue => rfl
    case isFalse hnot =>
      rw [if_neg hnot] at hworker
      -- it would have been canceled
      refine (Bool.not_eq_false _).mp fun hstate => hnot ⟨?_, List.not_mem_nil⟩
      exact List.mem_filter.mpr ⟨hu, decide_eq_true ⟨hworker, hstate⟩⟩
  · have hmem := ht.done hw
    rwa [if_neg hsettled] at hmem
  · show d ∈ deliveries.rows
    rw [hdeliveries, show _ = l.deliveries.rows from congrArg UniqueRows.rows ht.deliveries]
    refine List.mem_map.mpr ⟨d, hd, if_neg fun h => ?_⟩
    rcases h.2 with h | h
    · rw [h.1] at hheld
      exact absurd hheld (by decide)
    · rw [h.1] at hheld
      exact absurd hheld (by decide)

end WorkerThreads
