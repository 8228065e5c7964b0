import OpenCAO.CommandLanes
import OpenCAO.Paging
import OpenCAO.WorkCursor
import Mathlib.Data.Prod.Lex
import Mathlib.Order.Lattice

/-!
# Listings in pages

Three listings are handed out in pages: the Works an actor may see, the inbox of a
principal, and the events. Each of them selects the rows first and cuts the page then, with
one row more than the page has, so that a row that is not shown takes nobody's place.

A page of Works ends with a cursor of three columns. They are the columns of the order, the
last of them a primary key, so no two Works are at one place even if their priorities and
instants are equal. The other two listings go by the sequence, which is a primary key.

A walk through any of them, with whatever limits, lists every row that was selected once
and in order (`listed_once`).
-/

/-- **A page** of a listing. -/
structure Page (α π : Type) where
  items : List α
  nextCursor : Option π

/-- Why a listing fails. -/
inductive ListingError where
  | authorization (reason : String)
  | validation (reason : String)
  | notFound (what : String)
  deriving DecidableEq, Repr

/-- The credential of a CAO that was attached. -/
inductive CaoCredential where
  | runtime | conversation
  deriving DecidableEq, Repr

/-- **Whoever lists.** -/
structure Lister where
  id : PrincipalId
  role : PrincipalRole
  /-- The conversation he calls from. -/
  attachmentId : Option AttachmentId
  credential : Option CaoCredential
  /-- His lease or launch is the current one: what `_require_role` asks of a credential of a
  runtime, `_require_current_cao_attachment_actor_tx` and `_require_worker_runtime_actor_tx`. -/
  current : Bool
  deriving DecidableEq, Repr

namespace Listings

/-- The page of the rows that were fetched, with the cursor of its last row. -/
def page {α π : Type} (limit : ℕ) (cursor : α → π) (rows : List α) : Page α π :=
  let fetched := rows.take (limit + 1)
  let hasMore : Bool := limit < fetched.length
  let items := fetched.take limit
  { items := items
    nextCursor := if hasMore then items.getLast?.map cursor else none }

theorem page_eq {α π : Type} (limit : ℕ) (cursor : α → π) (rows : List α) :
    page limit cursor rows
      = ⟨(Paging.cut limit rows).1, (Paging.cut limit rows).2.map cursor⟩ := by
  show Page.mk _ (if decide (limit < (rows.take (limit + 1)).length) = true then _ else _)
    = Page.mk _ (Option.map cursor (if limit < (rows.take (limit + 1)).length then _ else _))
  by_cases hmore : limit < (rows.take (limit + 1)).length
  · rw [if_pos (decide_eq_true hmore), if_pos hmore]
    rfl
  · rw [if_neg (by simpa using hmore), if_neg hmore]
    rfl

/-- `_require_role`, for the CAO. -/
def requireCao (a : Lister) : Except ListingError Unit :=
  if a.role ≠ .cao then .error (.authorization "principal role is not permitted")
  else if a.credential = some .runtime ∧ a.current = false then
    .error (.authorization "CAO runtime attachment lease is stale or revoked")
  else if a.credential = some .conversation ∧ a.current = false then
    .error (.authorization "CAO conversation attachment lease is stale or revoked")
  else .ok ()

/-- A credential of a conversation is for the CAO. -/
def requireCredential (a : Lister) : Except ListingError Unit :=
  if a.credential = some .conversation then requireCao a else .ok ()

/-! ## Works -/

/-- **A row of `work_items`**, as far as the listing reads it. -/
structure WorkRow where
  id : String
  priority : ℤ
  updatedAt : String
  requesterId : Option PrincipalId
  assignedWorkerId : PrincipalId
  supervisorAttachmentId : Option AttachmentId
  state : WorkState
  attentionOwner : AttentionOwner
  id_ne : id ≠ ""
  updatedAt_ne : updatedAt ≠ ""

/-- **The table of Works**: the identifier is its primary key. -/
structure WorkTable where
  rows : List WorkRow
  primaryKey : (rows.map WorkRow.id).Nodup

/-- The limit of a page of Works. -/
abbrev PageLimit := { limit : ℕ // 1 ≤ limit ∧ limit ≤ 1000 }

/-- **`QueryInput`**. -/
structure QueryInput where
  workerId : Option PrincipalId
  state : Option WorkState
  attentionOwner : Option AttentionOwner
  limit : PageLimit
  cursor : List Char

namespace WorkRow

variable (w : WorkRow)

/-- The place of a Work in the listing. -/
def cursor : WorkCursor := ⟨w.priority, w.updatedAt, w.id⟩

/-- The Work comes behind a cursor. -/
def Behind (c : WorkCursor) : Prop :=
  w.priority < c.priority ∨ (w.priority = c.priority ∧ w.updatedAt < c.updatedAt) ∨
    (w.priority = c.priority ∧ w.updatedAt = c.updatedAt ∧ w.id < c.id)

instance (c : WorkCursor) : Decidable (w.Behind c) := by
  unfold Behind
  infer_instance

/-- `ORDER BY priority DESC, updated_at DESC, id DESC`. -/
def key : ℤᵒᵈ ×ₗ Stringᵒᵈ ×ₗ Stringᵒᵈ :=
  toLex (OrderDual.toDual w.priority,
    toLex (OrderDual.toDual w.updatedAt, OrderDual.toDual w.id))

/-- **The cursor follows the order.** -/
theorem behind_iff (v w : WorkRow) : w.Behind v.cursor ↔ v.key < w.key := by
  unfold Behind key cursor
  rw [Prod.Lex.toLex_lt_toLex, Prod.Lex.toLex_lt_toLex]
  simp only [OrderDual.toDual_lt_toDual, OrderDual.toDual_inj]
  constructor
  · rintro (h | ⟨hp, h⟩ | ⟨hp, hu, h⟩)
    · exact .inl h
    · exact .inr ⟨hp.symm, .inl h⟩
    · exact .inr ⟨hp.symm, .inr ⟨hu.symm, h⟩⟩
  · rintro (h | ⟨hp, h | ⟨hu, h⟩⟩)
    · exact .inl h
    · exact .inr (.inl ⟨hp.symm, h⟩)
    · exact .inr (.inr ⟨hp.symm, hu.symm, h⟩)

theorem id_eq_of_key_eq {v w : WorkRow} (h : v.key = w.key) : v.id = w.id := by
  have := congrArg (fun k => OrderDual.ofDual (ofLex (ofLex k).2).2) h
  exact this

end WorkRow

namespace WorkTable

variable (T : WorkTable)

/-- `_authorize_work_actor`. -/
def authorizeWorkActor (actor : Lister) (w : WorkRow) : Except ListingError Unit :=
  if actor.role = .cao then
    if actor.attachmentId ≠ none ∧ w.supervisorAttachmentId ≠ actor.attachmentId then
      .error (.authorization "work item belongs to another CAO conversation")
    else .ok ()
  else if actor.role = .user ∧ w.requesterId = some actor.id then .ok ()
  else if actor.role = .worker ∧ w.assignedWorkerId = actor.id then .ok ()
  else .error (.authorization "work item is outside this principal's scope")


/-- **`get_work`**: the Work is answered as it stands. -/
def getWork (id : String) (actor : Option Lister) : Except ListingError WorkRow := do
  actor.forM requireCredential
  match T.rows.find? fun w => w.id = id with
  | none => .error (.notFound "work item")
  | some w =>
    match actor with
    | none => .ok w
    | some a => do
      authorizeWorkActor a w
      if a.role = .cao ∧ a.attachmentId ≠ none ∧ a.current = false then
        .error (.authorization "CAO attachment authority is unavailable")
      else .ok w

/-- The Works that an actor may list. -/
def scope : Option Lister → Except ListingError (WorkRow → Bool)
  | none => .ok fun _ => true
  | some a =>
    match a.role with
    | .user => .ok fun w => w.requesterId = some a.id
    | .worker => .ok fun w => w.assignedWorkerId = a.id
    | .cao =>
      match a.attachmentId with
      | some attachment => .ok fun w => w.supervisorAttachmentId = some attachment
      | none => .ok fun _ => true
    | .external => .error (.authorization "principal cannot query work items")
    | .dashboard => .error (.authorization "principal cannot query work items")

/-- The Works that were asked for. -/
def matching (request : QueryInput) (w : WorkRow) : Bool :=
  request.workerId.all (w.assignedWorkerId = ·) && request.state.all (w.state = ·) &&
    request.attentionOwner.all (w.attentionOwner = ·)

/-- The Works behind a cursor; without one, all of them. -/
def beyond (conv : WorkCursor.Conversions) (cursor : List Char) :
    Except ListingError (WorkRow → Bool) :=
  if cursor = [] then .ok fun _ => true
  else
    match WorkCursor.decode conv cursor with
    | none => .error (.validation "invalid work query cursor")
    | some c => .ok fun w => w.Behind c

/-- **`query_work`**. -/
def queryWork (conv : WorkCursor.Conversions) (request : QueryInput) (actor : Option Lister) :
    Except ListingError (Page WorkRow (List Char)) := do
  actor.forM requireCredential
  let allowed ← scope actor
  let behind ← beyond conv request.cursor
  let rows := Paging.ordered WorkRow.key
    (T.rows.filter fun w => allowed w && matching request w && behind w)
  let page := page request.limit (fun w => w.cursor.encode) rows
  let items ← page.items.mapM fun w => T.getWork w.id actor
  .ok { page with items := items }

/-- The actor may list Works. -/
def Admitted (actor : Option Lister) : Prop :=
  ∀ a ∈ actor, (a.role = .user ∨ a.role = .worker ∨ a.role = .cao) ∧
    (a.credential = some .conversation → a.role = .cao ∧ a.current = true) ∧
    (a.role = .cao → a.attachmentId ≠ none → a.current = true)

/-- **The actor sees a Work**: his own as a requester, those he is assigned to as a Worker,
and as the CAO those of his conversation, or all if he has none. -/
def Visible (actor : Option Lister) (w : WorkRow) : Prop :=
  ∀ a ∈ actor, (a.role = .user → w.requesterId = some a.id) ∧
    (a.role = .worker → w.assignedWorkerId = a.id) ∧
    (a.role = .cao → ∀ attachment ∈ a.attachmentId, w.supervisorAttachmentId = some attachment)

instance (actor : Option Lister) : DecidablePred (Visible actor) := fun w => by
  unfold Visible
  infer_instance

variable {T}

/-- An admitted actor lists what he sees. -/
theorem scope_of_admitted {actor : Option Lister} (h : Admitted actor) :
    scope actor = .ok fun w => Visible actor w := by
  cases actor with
  | none => simp [scope, Visible]
  | some a =>
    obtain ⟨hrole, -, -⟩ := h a rfl
    obtain ⟨id, role, attachment, credential, current⟩ := a
    rcases hrole with rfl | rfl | rfl
    · simp [scope, Visible]
    · simp [scope, Visible]
    · cases attachment <;> simp [scope, Visible]

/-- His credential passes. -/
theorem forM_of_admitted {actor : Option Lister} (h : Admitted actor) :
    actor.forM requireCredential = .ok () := by
  cases actor with
  | none => rfl
  | some a =>
    show requireCredential a = .ok ()
    unfold requireCredential requireCao
    by_cases hcredential : a.credential = some .conversation
    · obtain ⟨hrole, hcurrent⟩ := (h a rfl).2.1 hcredential
      simp [hrole, hcurrent]
    · simp [hcredential]

/-- **A Work that is listed is answered.** -/
theorem getWork_of_visible {actor : Option Lister} (h : Admitted actor) {w : WorkRow}
    (hw : w ∈ T.rows) (hvisible : Visible actor w) : T.getWork w.id actor = .ok w := by
  have hfind : T.rows.find? (fun v => decide (v.id = w.id)) = some w := by
    obtain ⟨v, hv⟩ : ∃ v, T.rows.find? (fun v => decide (v.id = w.id)) = some v := by
      rw [← Option.isSome_iff_exists, List.find?_isSome]
      exact ⟨w, hw, decide_eq_true rfl⟩
    have hid : v.id = w.id := by simpa using List.find?_some hv
    rw [hv, List.inj_on_of_nodup_map T.primaryKey (List.mem_of_find?_eq_some hv) hw hid]
  unfold getWork
  rw [forM_of_admitted h, hfind]
  cases actor with
  | none => rfl
  | some a =>
    obtain ⟨hroles, -, hcurrent⟩ := h a rfl
    obtain ⟨huser, hworker, hcao⟩ := hvisible a rfl
    have hauthorized : authorizeWorkActor a w = .ok () := by
      unfold authorizeWorkActor
      rcases hroles with hr | hr | hr
      · simp [hr, huser hr]
      · simp [hr, hworker hr]
      · rw [if_pos hr, if_neg]
        rintro ⟨hsome, hne⟩
        obtain ⟨attachment, hattachment⟩ := Option.ne_none_iff_exists'.mp hsome
        rw [hattachment] at hne
        exact hne (hcao hr attachment hattachment)
    show (authorizeWorkActor a w >>= fun _ => _) = _
    rw [hauthorized]
    refine if_neg ?_
    rintro ⟨hr, hsome, hfalse⟩
    rw [hcurrent hr hsome] at hfalse
    cases hfalse

/-- The Works of a listing. -/
def selected (T : WorkTable) (request : QueryInput) (actor : Option Lister) : List WorkRow :=
  T.rows.filter fun w => Visible actor w && matching request w

theorem nodup_selected (T : WorkTable) (request : QueryInput) (actor : Option Lister) :
    ((T.selected request actor).map WorkRow.key).Nodup := by
  refine List.Nodup.sublist (List.filter_sublist.map _) ?_
  refine List.Nodup.map_on (fun v hv w hw h => ?_) (List.Nodup.of_map _ T.primaryKey)
  exact List.inj_on_of_nodup_map T.primaryKey hv hw (WorkRow.id_eq_of_key_eq h)

/-- The Work comes behind the cursor of a page. -/
def behindText (conv : WorkCursor.Conversions) (cursor : List Char) (w : WorkRow) : Bool :=
  cursor = [] || (WorkCursor.decode conv cursor).any fun c => w.Behind c

theorem decode_cursor (conv : WorkCursor.Conversions) (w : WorkRow) :
    WorkCursor.decode conv w.cursor.encode = some w.cursor :=
  WorkCursor.decode_encode conv w.id_ne w.updatedAt_ne

/-- A page is read at its position. -/
theorem beyond_of_at {rows : List WorkRow} (conv : WorkCursor.Conversions) {p : List Char}
    (hp : Paging.At rows [] (fun w => w.cursor.encode) p) :
    beyond conv p = .ok (behindText conv p) := by
  rcases hp with rfl | ⟨w, -, rfl⟩
  · rfl
  · unfold beyond behindText
    rw [if_neg (WorkCursor.encode_ne_nil _), decode_cursor]
    simp [WorkCursor.encode_ne_nil]

theorem mapM_eq_self {ε α : Type} {f : α → Except ε α} {rows : List α}
    (h : ∀ w ∈ rows, f w = .ok w) : rows.mapM f = .ok rows := by
  induction rows with
  | nil => rfl
  | cons w rows ih =>
    obtain ⟨hw, hrows⟩ := List.forall_mem_cons.mp h
    rw [List.mapM_cons, hw, ih hrows]
    rfl

/-- **A page of Works.** -/
theorem queryWork_eq (conv : WorkCursor.Conversions) (request : QueryInput)
    {actor : Option Lister} (hactor : Admitted actor)
    (hp : Paging.At (T.selected request actor) [] (fun w => w.cursor.encode) request.cursor) :
    T.queryWork conv request actor = .ok (page request.limit (fun w => w.cursor.encode)
      (Paging.ordered WorkRow.key
        ((T.selected request actor).filter (behindText conv request.cursor)))) := by
  have hrows : T.rows.filter (fun w => decide (Visible actor w) && matching request w &&
      behindText conv request.cursor w)
        = (T.selected request actor).filter (behindText conv request.cursor) := by
    unfold selected
    rw [List.filter_filter]
    exact List.filter_congr fun w _ => Bool.and_comm _ _
  unfold queryWork
  rw [forM_of_admitted hactor, scope_of_admitted hactor, beyond_of_at conv hp]
  show (List.mapM (fun w : WorkRow => T.getWork w.id actor)
    (page _ _ (Paging.ordered WorkRow.key (T.rows.filter _))).items).bind _ = _
  rw [hrows, mapM_eq_self]
  · rfl
  · intro w hw
    rw [page_eq, Paging.cut_fst] at hw
    have hmem := (Paging.perm_ordered WorkRow.key _).mem_iff.mp (List.mem_of_mem_take hw)
    obtain ⟨hrow, hvisible⟩ := List.mem_filter.mp (List.mem_of_mem_filter hmem)
    exact getWork_of_visible hactor hrow
      (of_decide_eq_true (Bool.and_eq_true_iff.mp hvisible).1)

/-- The pages account for the Works. -/
theorem accounts (T : WorkTable) (conv : WorkCursor.Conversions) (request : QueryInput)
    {actor : Option Lister} (hactor : Admitted actor) :
    Paging.Accounts
      (fun (limit : PageLimit) cursor =>
        T.queryWork conv { request with limit := limit, cursor := cursor } actor)
      Page.nextCursor Page.items (fun _ => True)
      (Paging.At (T.selected request actor) [] fun w => w.cursor.encode)
      fun cursor => Paging.ordered WorkRow.key
        ((T.selected request actor).filter (behindText conv cursor)) := by
  refine Paging.accounts_of_keys (l := Subtype.val) (nodup_selected T request actor)
    (fun _ _ => rfl) (fun v _ w _ => ?_) (fun limit _ => limit.2.1) fun limit cursor _ hp => ?_
  · show (decide _ || _) = _
    rw [decode_cursor, decide_eq_false (WorkCursor.encode_ne_nil _)]
    exact decide_eq_decide.mpr (WorkRow.behind_iff v w)
  · refine ⟨_, queryWork_eq conv { request with limit := limit, cursor := cursor } hactor hp, ?_⟩
    rw [page_eq]
    exact ⟨rfl, rfl⟩

end WorkTable

/-! ## Listings by sequence -/

/-- The limit that is used of the one that was asked for. -/
def effectiveLimit (limit : ℤ) : ℕ := (min (max limit 1) 1000).toNat

theorem effectiveLimit_pos (limit : ℤ) : 0 < effectiveLimit limit := by
  unfold effectiveLimit
  omega

/-- **A page of the rows behind a sequence.** -/
def sequencePage {α : Type} (sequence : α → ℤ) (selected : List α) (after limit : ℤ) : Page α ℤ :=
  page (effectiveLimit limit) sequence
    (Paging.ordered sequence (selected.filter fun a => after < sequence a))

/-- The pages of a listing by sequence account for its rows. -/
theorem accounts_sequence {α : Type} {sequence : α → ℤ} {selected : List α}
    (hkeys : (selected.map sequence).Nodup) (hpos : ∀ a ∈ selected, 0 < sequence a)
    {read : ℤ → ℤ → Except ListingError (Page α ℤ)}
    (hread : ∀ limit after, read limit after = .ok (sequencePage sequence selected after limit)) :
    Paging.Accounts read Page.nextCursor Page.items (fun _ => True)
      (Paging.At selected 0 sequence)
      fun after => Paging.ordered sequence (selected.filter fun a => after < sequence a) := by
  refine Paging.accounts_of_keys (l := effectiveLimit) hkeys
    (fun a ha => decide_eq_true (hpos a ha)) (fun _ _ _ _ => rfl)
    (fun limit _ => effectiveLimit_pos limit) fun limit after _ _ => ⟨_, hread limit after, ?_⟩
  unfold sequencePage
  rw [page_eq]
  exact ⟨rfl, rfl⟩

/-! ### The inbox -/

/-- **The tables of an inbox**: the lanes, with one row for each message and recipient, and
the Attempt that each message is about. -/
structure InboxTable where
  lanes : CommandLanes
  attemptId : MessageId → Option RowId
  primaryKey : (lanes.deliveries.map Delivery.key).Nodup

namespace InboxTable

variable (T : InboxTable)

/-- `messages.sequence`. -/
def sequence (d : Delivery) : ℤ := d.messageId + 1

/-- **The rows of an inbox**: the notifications of the conversation that the caller is in, or
the heads of the lanes of one who is in none. -/
def shown (a : Lister) (attemptId : Option RowId) (includeAcknowledged : Bool) (d : Delivery) :
    Bool :=
  let isNew : Bool := includeAcknowledged || (d.state ≠ .acknowledged && d.state ≠ .handled)
  d.recipientId = a.id && d.messageId < T.lanes.messages.length &&
    attemptId.all (fun id => T.attemptId d.messageId = some id) &&
    match a.attachmentId with
    | some attachment => d.recipientAttachmentId = some attachment && isNew
    | none => isNew && decide (T.lanes.LaneHead d)

/-- **`get_inbox`**. -/
def getInbox (a : Lister) (attemptId : Option RowId) (includeAcknowledged : Bool)
    (limit after : ℤ) : Except ListingError (Page Delivery ℤ) := do
  requireCredential a
  if a.role = .cao ∧ a.attachmentId ≠ none ∧ a.current = false then
    .error (.authorization "CAO attachment authority is unavailable")
  else if a.role = .worker ∧ a.current = false then
    .error (.authorization "Worker operation requires a managed MCP runtime credential")
  else
    .ok (sequencePage sequence (T.lanes.deliveries.filter (T.shown a attemptId includeAcknowledged))
      after limit)

/-- The caller may read his inbox. -/
def Admitted (a : Lister) : Prop :=
  (a.credential = some .conversation → a.role = .cao ∧ a.current = true) ∧
    (a.role = .cao → a.attachmentId ≠ none → a.current = true) ∧
    (a.role = .worker → a.current = true)

variable {T}

theorem getInbox_eq {a : Lister} (h : Admitted a) (attemptId : Option RowId)
    (includeAcknowledged : Bool) (limit after : ℤ) :
    T.getInbox a attemptId includeAcknowledged limit after = .ok (sequencePage sequence
      (T.lanes.deliveries.filter (T.shown a attemptId includeAcknowledged)) after limit) := by
  obtain ⟨hcredential, hcao, hworker⟩ := h
  have hpass : requireCredential a = .ok () := by
    unfold requireCredential requireCao
    by_cases hconversation : a.credential = some .conversation
    · obtain ⟨hrole, hcurrent⟩ := hcredential hconversation
      simp [hrole, hcurrent]
    · simp [hconversation]
  unfold getInbox
  rw [hpass]
  show (if _ then _ else if _ then _ else _) = _
  rw [if_neg, if_neg]
  · rintro ⟨hr, hfalse⟩
    rw [hworker hr] at hfalse
    cases hfalse
  · rintro ⟨hr, hsome, hfalse⟩
    rw [hcao hr hsome] at hfalse
    cases hfalse

theorem nodup_shown (a : Lister) (attemptId : Option RowId) (includeAcknowledged : Bool) :
    ((T.lanes.deliveries.filter (T.shown a attemptId includeAcknowledged)).map sequence).Nodup := by
  have hkeys := T.primaryKey
  have hrecipient : ∀ d ∈ T.lanes.deliveries.filter (T.shown a attemptId includeAcknowledged),
      d.recipientId = a.id := fun d hd => by
    have hshown := (List.mem_filter.mp hd).2
    simp only [shown, Bool.and_eq_true] at hshown
    exact of_decide_eq_true hshown.1.1.1
  refine List.Nodup.map_on (fun d hd e he h => ?_) (List.Nodup.filter _ (.of_map _ hkeys))
  refine List.inj_on_of_nodup_map hkeys (List.mem_of_mem_filter hd) (List.mem_of_mem_filter he) ?_
  have hid : d.messageId = e.messageId := by
    have hsequence : (d.messageId : ℤ) + 1 = (e.messageId : ℤ) + 1 := h
    exact Int.natCast_inj.mp (add_right_cancel hsequence)
  exact Prod.ext hid ((hrecipient d hd).trans (hrecipient e he).symm)

end InboxTable

/-! ### Events -/

/-- **A row of `events`**, as far as the listing reads it. -/
structure EventRow where
  sequence : ℕ
  aggregateType : String
  aggregateId : String
  deriving DecidableEq, Repr

/-- **The table of events**: the sequence is its primary key, and begins at 1. -/
structure EventTable where
  rows : List EventRow
  primaryKey : (rows.map EventRow.sequence).Nodup
  sequence_pos : ∀ e ∈ rows, 0 < e.sequence

namespace EventTable

variable (T : EventTable)

/-- The events that were asked for. -/
def matching (aggregateType aggregateId : Option String) (e : EventRow) : Bool :=
  aggregateType.all (e.aggregateType = ·) && aggregateId.all (e.aggregateId = ·)

/-- **`list_events`**. -/
def listEvents (actor : Option Lister) (aggregateType aggregateId : Option String)
    (limit after : ℤ) : Except ListingError (Page EventRow ℤ) := do
  actor.forM requireCao
  .ok (sequencePage (fun e => (e.sequence : ℤ))
    (T.rows.filter (matching aggregateType aggregateId)) after limit)

/-- The actor may list events. -/
def Admitted (actor : Option Lister) : Prop :=
  ∀ a ∈ actor, a.role = .cao ∧ (a.credential ≠ none → a.current = true)

variable {T}

theorem listEvents_eq {actor : Option Lister} (h : Admitted actor)
    (aggregateType aggregateId : Option String) (limit after : ℤ) :
    T.listEvents actor aggregateType aggregateId limit after
      = .ok (sequencePage (fun e => (e.sequence : ℤ))
          (T.rows.filter (matching aggregateType aggregateId)) after limit) := by
  have hpass : actor.forM requireCao = .ok () := by
    cases actor with
    | none => rfl
    | some a =>
      obtain ⟨hrole, hcurrent⟩ := h a rfl
      show requireCao a = .ok ()
      unfold requireCao
      cases hcredential : a.credential with
      | none => simp [hrole]
      | some c => simp [hrole, hcurrent (by simp [hcredential])]
  unfold listEvents
  rw [hpass]
  rfl

theorem nodup_matching (aggregateType aggregateId : Option String) :
    ((T.rows.filter (matching aggregateType aggregateId)).map
      fun e => (e.sequence : ℤ)).Nodup := by
  have hkeys := T.primaryKey
  refine List.Nodup.map_on (fun d hd e he h => ?_) (List.Nodup.filter _ (.of_map _ hkeys))
  exact List.inj_on_of_nodup_map hkeys (List.mem_of_mem_filter hd) (List.mem_of_mem_filter he)
    (by exact_mod_cast h)

end EventTable

/-! ## Every row once -/

/-- **A listing is complete**: following the cursors ends, and lists every one of the rows once
and in order. -/
def ListedOnce {σ π α ε κ : Type} [LinearOrder κ] (read : σ → π → Except ε (Page α π)) (start : π)
    (limits : ℕ → σ) (key : α → κ) (rows : List α) : Prop :=
  ∃ pages, Paging.Walk read Page.nextCursor limits start pages ∧
    (pages.flatMap Page.items).Perm rows ∧
    (pages.flatMap Page.items).Pairwise fun a b => key a < key b

/-- Pages that account for rows in order list them. -/
theorem listedOnce_of_accounts {σ π α ε κ : Type} [LinearOrder κ]
    {read : σ → π → Except ε (Page α π)} {Reached : π → Prop} {left : π → List α} {start : π}
    {key : α → κ} {rows : List α}
    (h : Paging.Accounts read Page.nextCursor Page.items (fun _ => True) Reached left)
    (hstart : Reached start) (hleft : left start = Paging.ordered key rows)
    (hkeys : (rows.map key).Nodup) (limits : ℕ → σ) : ListedOnce read start limits key rows := by
  obtain ⟨pages, hwalk, hpages⟩ := h.exists_walk (s := limits) (fun _ => trivial) hstart
  rw [hleft] at hpages
  exact ⟨pages, hwalk, hpages ▸ Paging.perm_ordered key rows,
    hpages ▸ Paging.pairwise_ordered hkeys⟩

/-- A Work with an identifier, next to others of the same priority and instant. -/
def sampleRow (id : String) (hid : id ≠ "") : WorkRow :=
  { id := id, priority := 5, updatedAt := "2026-01-01T00:00:00Z", requesterId := none
    assignedWorkerId := 1, supervisorAttachmentId := some 3, state := .active
    attentionOwner := .worker, id_ne := hid, updatedAt_ne := by decide }

/-- Two Works at the border of a page. -/
def sampleWorks : WorkTable :=
  ⟨[sampleRow "work_a" (by decide), sampleRow "work_b" (by decide)], by decide⟩

/-- A CAO in a conversation. -/
def sampleCao : Lister := ⟨2, .cao, some 3, some .conversation, true⟩

/-- An inbox with a notification of that conversation and one of another. -/
def sampleInbox : InboxTable :=
  { lanes :=
      { dispatching :=
          ⟨0, [.queuedFor 0 0 (2, some 3, none), .queuedFor 0 1 (2, some 4, none)], [], []⟩
        messages := [none, none], pausedWorks := [], entered := [] }
    attemptId := fun _ => none
    primaryKey := by decide }

/-- Two events, of which the first is asked for. -/
def sampleEvents : EventTable :=
  ⟨[⟨1, "work", "work_a"⟩, ⟨2, "runtime", "runtime_a"⟩], by decide, by decide⟩

/-- Conversions that nobody asks for. -/
def sampleConversions : WorkCursor.Conversions := ⟨fun _ => none, fun _ => ""⟩

end Listings
