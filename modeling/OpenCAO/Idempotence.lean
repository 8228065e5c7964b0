import OpenCAO.KeyedCommands

/-!
# Repeated commands

What a key answers when it returns. The argument is the same for the four
lookups: the row that a first call left is still there after any run, because
no write removes it; it is the row that the lookup finds, because no other row
can stand beside it; and what follows the lookup is a comparison of digests
that writes nothing. So a call is executed at most once, whatever was executed
in between.

Two things keep the answer from being the first one. A message can be pruned,
and its key is then new again. And before the lookup, or with it, recoveries
may be derived again: a reasoner turn and a Boundary of a runtime recovery do
not leave every row as they found it.
-/

namespace Keyed

/-! ## Rows that stay -/

theorem Boundary.Reclassified.refl (b : Boundary) : b.Reclassified b := ⟨b.recoveryAction, rfl⟩

theorem Boundary.Reclassified.trans {a b c : Boundary} (hab : a.Reclassified b)
    (hbc : b.Reclassified c) : a.Reclassified c := by
  obtain ⟨_, rfl⟩ := hab
  obtain ⟨action, rfl⟩ := hbc
  exact ⟨action, rfl⟩

/-- The rows that are never removed, and the receipts with their intents. -/
structure Tables.Kept (t t' : Tables) : Prop where
  boundaries : ∀ b ∈ t.boundaries.rows, ∃ b' ∈ t'.boundaries.rows, b.Reclassified b'
  receipts : ∀ r ∈ t.sourceReceipts.rows, r ∈ t'.sourceReceipts.rows
  intents : ∀ i ∈ t.submittedIntents.rows, i ∈ t'.submittedIntents.rows

theorem Tables.Kept.refl (t : Tables) : t.Kept t where
  boundaries b hb := ⟨b, hb, .refl b⟩
  receipts _ hr := hr
  intents _ hi := hi

theorem Tables.Kept.trans {t₁ t₂ t₃ : Tables} (h₁ : t₁.Kept t₂) (h₂ : t₂.Kept t₃) :
    t₁.Kept t₃ where
  boundaries b hb := by
    obtain ⟨b₂, hb₂, hab⟩ := h₁.boundaries b hb
    obtain ⟨b₃, hb₃, hbc⟩ := h₂.boundaries b₂ hb₂
    exact ⟨b₃, hb₃, hab.trans hbc⟩
  receipts r hr := h₂.receipts r (h₁.receipts r hr)
  intents i hi := h₂.intents i (h₁.intents i hi)

theorem Tables.Reclassified.kept {t t' : Tables} (h : t.Reclassified t') : t.Kept t' where
  boundaries _ hb := Rows.exists_right h.boundaries hb
  receipts r hr := by rw [h.sourceReceipts]; exact hr
  intents i hi := by rw [h.submittedIntents]; exact hi

theorem kept_of_write {t t' : Tables} (h : Write t t') : t.Kept t' := by
  cases h with
  | message _ => exact ⟨(Tables.Kept.refl t).boundaries, fun _ hr => hr, fun _ hi => hi⟩
  | boundary h =>
    exact ⟨fun b hb => ⟨b, UniqueRows.mem_insert_of_mem h hb, .refl b⟩, fun _ hr => hr,
      fun _ hi => hi⟩
  | submitted hr hi _ =>
    exact ⟨(Tables.Kept.refl t).boundaries, fun _ h => UniqueRows.mem_insert_of_mem hr h,
      fun _ h => UniqueRows.mem_insert_of_mem hi h⟩
  | reclassify h => exact h.kept

theorem kept_of_writes {t t' : Tables} (h : Relation.ReflTransGen Write t t') : t.Kept t' := by
  induction h with
  | refl => exact .refl t
  | tail _ hlast ih => exact ih.trans (kept_of_write hlast)

/-- No transaction removes a message. -/
theorem messages_of_write {t t' : Tables} (h : Write t t') :
    t.messages.rows ⊆ t'.messages.rows := by
  cases h with
  | message h => exact fun _ hm => UniqueRows.mem_insert_of_mem h hm
  | boundary _ => exact fun _ hm => hm
  | submitted _ _ _ => exact fun _ hm => hm
  | reclassify h =>
    rw [h.messages]
    exact fun _ hm => hm

/-- Every receipt has its intent. -/
def Tables.Paired (t : Tables) : Prop :=
  ∀ r ∈ t.sourceReceipts.rows, ∃ i ∈ t.submittedIntents.rows,
    i.sourceReceiptId = r.id ∧ i.ordinal = 0

theorem paired_of_write {t t' : Tables} (h : Write t t') (ht : t.Paired) : t'.Paired := by
  cases h with
  | message _ => exact ht
  | boundary _ => exact ht
  | @submitted r i receipts intents hr hi h =>
    intro r' hr'
    rw [UniqueRows.rows_insert hr] at hr'
    rcases List.mem_append.mp hr' with hold | hnew
    · obtain ⟨i', hi', hof⟩ := ht r' hold
      exact ⟨i', UniqueRows.mem_insert_of_mem hi hi', hof⟩
    · rw [List.mem_singleton.mp hnew]
      exact ⟨i, UniqueRows.mem_insert hi, h⟩
  | reclassify h =>
    intro r hr
    rw [h.sourceReceipts] at hr
    rw [h.submittedIntents]
    exact ht r hr

/-- **Between two states of a run**: what is on record stays on record. -/
structure Store.Follows (s s' : Store) : Prop where
  ledger : s.ledger.rows ⊆ s'.ledger.rows
  tables : s.tables.Kept s'.tables
  paired : s.tables.Paired → s'.tables.Paired

theorem Store.Follows.refl (s : Store) : s.Follows s := ⟨fun _ h => h, .refl _, id⟩

theorem Store.Follows.trans {s₁ s₂ s₃ : Store} (h₁ : s₁.Follows s₂) (h₂ : s₂.Follows s₃) :
    s₁.Follows s₃ :=
  ⟨fun _ h => h₂.ledger (h₁.ledger h), h₁.tables.trans h₂.tables, fun h => h₂.paired (h₁.paired h)⟩

/-- Around a transaction, messages stay as well. -/
structure Store.Advances (s s' : Store) : Prop extends s.Follows s' where
  messages : s.tables.messages.rows ⊆ s'.tables.messages.rows

theorem Store.Advances.refl (s : Store) : s.Advances s := ⟨.refl s, fun _ h => h⟩

theorem Store.Advances.trans {s₁ s₂ s₃ : Store} (h₁ : s₁.Advances s₂) (h₂ : s₂.Advances s₃) :
    s₁.Advances s₃ :=
  ⟨h₁.toFollows.trans h₂.toFollows, fun _ h => h₂.messages (h₁.messages h)⟩

/-- Tables that were written, beside the same ledger. -/
theorem advances_of_write {t t' : Tables} (h : Write t t')
    (ledger : UniqueRows IdempotencyResult IdempotencyResult.Clash) :
    Store.Advances ⟨ledger, t⟩ ⟨ledger, t'⟩ :=
  ⟨⟨fun _ h => h, kept_of_write h, paired_of_write h⟩, messages_of_write h⟩

/-- A transaction of the tables leaves the ledger alone. -/
theorem Effect.ensures (m : Effect) (s : Store) :
    Tx.Ensures s (onTables m.run) fun _ s' => s.Advances s' ∧ s'.ledger = s.ledger := by
  refine Tx.wp_within (Tx.wp_mono (Tx.Makes.relates (m.made s.tables)
    (P := fun t t' => Store.Advances ⟨s.ledger, t⟩ ⟨s.ledger, t'⟩) (fun _ => .refl _)
    (fun _ _ _ => .trans) fun _ _ h => advances_of_write h s.ledger) ?_ fun _ h => h)
  exact fun _ _ h => ⟨h, rfl⟩

theorem Command.advances_opening (c : Command) (s : Store) : s.Advances (c.opening s) := by
  unfold Command.opening
  split
  · exact advances_of_write (.reclassify (c.backfill.reclassified s.tables)) s.ledger
  · exact .refl s

theorem Command.ledger_opening (c : Command) (s : Store) : (c.opening s).ledger = s.ledger := by
  unfold Command.opening
  split <;> rfl

/-! ## The ledger -/

theorem IdempotencyResult.Clash.symm (a b : IdempotencyResult) (h : a.Clash b) : b.Clash a :=
  ⟨h.1.symm, h.2.1.symm, h.2.2.symm⟩

/-- The row that is on record is the one the lookup finds. -/
theorem Store.resultOf_of_mem {s : Store} {row : IdempotencyResult} {operation : Operation}
    {q : Request} (hrow : row ∈ s.ledger.rows) (hof : row.Of operation q) :
    s.resultOf operation q = some row := by
  refine UniqueRows.find?_of_mem IdempotencyResult.Clash.symm _ (fun a b ha hb => ?_) hrow
    (by simpa using hof)
  have ha : a.Of operation q := by simpa using ha
  have hb : b.Of operation q := by simpa using hb
  exact ⟨ha.1.trans hb.1.symm, ha.2.1.trans hb.2.1.symm, ha.2.2.trans hb.2.2.symm⟩

theorem Store.of_resultOf {s : Store} {row : IdempotencyResult} {operation : Operation}
    {q : Request} (h : s.resultOf operation q = some row) :
    row ∈ s.ledger.rows ∧ row.Of operation q := by
  obtain ⟨hrow, hof⟩ := UniqueRows.of_find? h
  exact ⟨hrow, by simpa using hof⟩

theorem Store.onRecord_of_mem {s : Store} {row : IdempotencyResult} {operation : Operation}
    {q : Request} (hrow : row ∈ s.ledger.rows) (hof : row.Of operation q)
    (hkey : q.idempotencyKey ≠ "") : s.onRecord operation q = some row := by
  unfold Store.onRecord
  rw [if_neg hkey, Store.resultOf_of_mem hrow hof]

theorem Store.of_onRecord {s : Store} {row : IdempotencyResult} {operation : Operation}
    {q : Request} (h : s.onRecord operation q = some row) :
    q.idempotencyKey ≠ "" ∧ row ∈ s.ledger.rows ∧ row.Of operation q := by
  unfold Store.onRecord at h
  split at h
  case isTrue => cases h
  case isFalse hkey => exact ⟨hkey, Store.of_resultOf h⟩

theorem idempotentGet_of_none {s : Store} {operation : Operation} {q : Request}
    (h : s.onRecord operation q = none) : idempotentGet operation q s = .ok (none, s) := by
  refine Tx.run_of_wp ?_
  unfold idempotentGet
  simp only [Tx.wp_bind, Tx.wp_get, h, Tx.wp_pure, and_self]

theorem idempotentGet_of_some {s : Store} {row : IdempotencyResult} {operation : Operation}
    {q : Request} (h : s.onRecord operation q = some row) :
    idempotentGet operation q s = if row.requestDigest ∈ q.accepted then .ok (some row.result, s)
      else .error (.conflict "idempotency key was reused with different command parameters") := by
  by_cases haccepted : row.requestDigest ∈ q.accepted
  · rw [if_pos haccepted]
    refine Tx.run_of_wp ?_
    unfold idempotentGet
    simp only [Tx.wp_bind, Tx.wp_get, h, Tx.wp_require, Tx.wp_pure]
    exact ⟨fun _ => ⟨trivial, trivial⟩, fun hno => hno haccepted⟩
  · rw [if_neg haccepted]
    refine Tx.error_of_wp ?_
    unfold idempotentGet
    simp only [Tx.wp_bind, Tx.wp_get, h, Tx.wp_require, Tx.wp_pure]
    exact ⟨fun hyes => haccepted hyes, fun _ => trivial⟩

/-- **The lookup only reads**, and finds a row that the request accepts. -/
theorem reads_idempotentGet (operation : Operation) (q : Request) (s : Store) :
    Tx.Reads (fun found => found.isSome → ∃ row, s.onRecord operation q = some row ∧
      row.requestDigest ∈ q.accepted) s (idempotentGet operation q) := by
  unfold Tx.Reads Tx.wp
  cases hrow : s.onRecord operation q with
  | none =>
    rw [idempotentGet_of_none hrow]
    exact ⟨rfl, fun h => absurd h Bool.false_ne_true⟩
  | some row =>
    rw [idempotentGet_of_some hrow]
    by_cases haccepted : row.requestDigest ∈ q.accepted
    · rw [if_pos haccepted]
      exact ⟨rfl, fun _ => ⟨row, rfl, haccepted⟩⟩
    · rw [if_neg haccepted]
      trivial

/-- **A result is put on record**, and nothing else is written. -/
theorem ensures_idempotentPut (operation : Operation) (q : Request) (result : String)
    (s : Store) : Tx.Ensures s (idempotentPut operation q result) fun _ s' =>
      s.ledger.rows ⊆ s'.ledger.rows ∧ s'.tables = s.tables ∧
      (q.idempotencyKey ≠ "" → ∃ row ∈ s'.ledger.rows, row.Of operation q ∧
        row.requestDigest = q.requestDigest ∧
        (s.resultOf operation q = none → row.result = result)) := by
  refine Tx.Ensures.ite (fun hkey => ⟨fun _ h => h, rfl, fun h => absurd hkey h⟩) fun hkey => ?_
  refine Tx.Ensures.modify (Tx.Ensures.get ?_)
  unfold Tx.Ensures
  rw [Tx.wp_require]
  refine ⟨fun hput => ?_, fun _ => trivial⟩
  obtain ⟨row, hrow, hdigest⟩ := (Option.any_eq_true _ _).mp hput
  obtain ⟨hmem, hof⟩ := Store.of_resultOf hrow
  cases hinsert : s.ledger.insert ⟨q.actorId, operation, q.idempotencyKey, q.requestDigest,
    result⟩ with
  | none =>
    simp only [hinsert, Option.getD_none] at hmem ⊢
    refine ⟨fun _ h => h, trivial, fun _ => ⟨row, hmem, hof, by simpa using hdigest, fun hnone => ?_⟩⟩
    rw [Store.resultOf_of_mem hmem hof] at hnone
    cases hnone
  | some ledger =>
    simp only [hinsert, Option.getD_some] at hmem ⊢
    refine ⟨fun _ h => UniqueRows.mem_insert_of_mem hinsert h, trivial, fun _ =>
      ⟨row, hmem, hof, by simpa using hdigest, fun _ => ?_⟩⟩
    -- the row that was just inserted is the row that is found
    have hnew := UniqueRows.mem_insert hinsert
    rw [UniqueRows.eq_of_clash IdempotencyResult.Clash.symm ledger hmem hnew hof]

/-! ## Commands -/

/-- **What a call did that was complete**: its result is on record, under its digest if it
was the first one. -/
def Recorded (c : Command) (q : Request) (s : Store) (result : String) (s' : Store) : Prop :=
  q.idempotencyKey ≠ "" → ∃ row ∈ s'.ledger.rows, row.Of c.operation q ∧
    row.requestDigest ∈ q.accepted ∧
    (s.resultOf c.operation q = none → row.requestDigest = q.requestDigest ∧ row.result = result)

theorem ensures_execute (c : Command) (q : Request) (s : Store) :
    Tx.Ensures s (c.execute q) fun answer s' => s.Advances s' ∧
      (answer = none → s'.ledger = s.ledger) ∧
      ∀ result, answer = some result → Recorded c q s result s' := by
  refine Tx.Ensures.bind (c.effect.ensures s) fun answer s₁ h₁ => ?_
  cases answer with
  | none => exact ⟨h₁.1, fun _ => h₁.2, fun _ h => by cases h⟩
  | some result =>
    refine Tx.Ensures.bind (ensures_idempotentPut c.operation q result s₁) fun _ s₂ h₂ => ?_
    refine ⟨h₁.1.trans ⟨⟨h₂.1, ?_, ?_⟩, ?_⟩, (fun h => by cases h), fun result' hresult hkey => ?_⟩
    · rw [h₂.2.1]
      exact .refl _
    · rw [h₂.2.1]
      exact id
    · rw [h₂.2.1]
      exact fun _ h => h
    · obtain ⟨row, hmem, hof, hdigest, hresult'⟩ := h₂.2.2 hkey
      refine ⟨row, hmem, hof, hdigest ▸ List.mem_cons_self, fun hnone => ⟨hdigest, ?_⟩⟩
      have hsame : s₁.resultOf c.operation q = s.resultOf c.operation q := by
        unfold Store.resultOf
        rw [h₁.2]
      rw [hresult' (hsame.trans hnone)]
      exact Option.some.inj hresult

/-- **What a call does.** -/
theorem ensures_run (c : Command) (q : Request) (s : Store) :
    Tx.Ensures s (c.run q) fun answer s' => s.Advances s' ∧
      (answer = none → s'.ledger = s.ledger) ∧
      ∀ result, answer = some result → Recorded c q s result s' := by
  unfold Command.run
  refine Tx.Ensures.bind (P := fun _ s' => s' = s) ?_ fun _ s₀ h₀ => ?_
  · exact (Tx.wp_ask _).mpr ⟨fun _ _ => rfl, fun _ _ => trivial⟩
  rw [h₀]
  refine Tx.Ensures.modify (Tx.Reads.bind (reads_idempotentGet c.operation q _) fun found h => ?_)
  have hledger : (c.opening s).resultOf c.operation q = s.resultOf c.operation q := by
    unfold Store.resultOf
    rw [c.ledger_opening]
  cases found with
  | none =>
    refine Tx.Ensures.mono (ensures_execute c q (c.opening s)) fun answer s' h' => ?_
    refine ⟨(c.advances_opening s).trans h'.1, fun h => (h'.2.1 h).trans (c.ledger_opening s), ?_⟩
    intro result hresult
    have hrecorded := h'.2.2 result hresult
    unfold Recorded at hrecorded ⊢
    rw [hledger] at hrecorded
    exact hrecorded
  | some cached =>
    obtain ⟨row, hrow, haccepted⟩ := h rfl
    obtain ⟨-, hmem, hof⟩ := Store.of_onRecord hrow
    unfold Tx.Ensures Command.conclude
    rw [Tx.wp_map, Tx.wp_ask]
    refine ⟨fun answer _ => ⟨c.advances_opening s, (fun h => by cases h), ?_⟩, fun _ _ => trivial⟩
    intro result _ _
    refine ⟨row, hmem, hof, haccepted, fun hnone => ?_⟩
    rw [← hledger, Store.resultOf_of_mem hmem hof] at hnone
    cases hnone

/-- What a call is answered whose key is on record for a digest that it accepts. -/
def Command.repeated (c : Command) (row : IdempotencyResult) (s : Store) :
    Except Error (Option String × Store) :=
  (c.admits s).bind fun _ => (c.answer (c.opening s) row.result).map fun result =>
    (some result, c.opening s)

/-- What a call is answered whose key is on record for another digest. -/
def Command.refused (c : Command) (s : Store) : Except Error (Option String × Store) :=
  (c.admits s).bind fun _ =>
    .error (.conflict "idempotency key was reused with different command parameters")

/-- **A call whose key is on record.** -/
theorem run_of_mem {c : Command} {q : Request} {s : Store} {row : IdempotencyResult}
    (hrow : row ∈ s.ledger.rows) (hof : row.Of c.operation q) (hkey : q.idempotencyKey ≠ "") :
    c.run q s = if row.requestDigest ∈ q.accepted then c.repeated row s else c.refused s := by
  have hfind : (c.opening s).onRecord c.operation q = some row :=
    Store.onRecord_of_mem (by rw [c.ledger_opening]; exact hrow) hof hkey
  have hrun : c.run q s = (c.admits s).bind fun _ =>
      (idempotentGet c.operation q (c.opening s)).bind fun r => c.conclude q r.1 r.2 :=
    Tx.ask_bind _ _
  rw [hrun, idempotentGet_of_some hfind]
  unfold Command.repeated Command.refused
  cases c.admits s with
  | error e =>
    split <;> rfl
  | ok u =>
    by_cases haccepted : row.requestDigest ∈ q.accepted
    · simp only [haccepted, if_true]
      show ((c.answer (c.opening s) row.result).map _).bind _ = (c.answer _ _).map _
      cases c.answer (c.opening s) row.result <;> rfl
    · simp only [haccepted, if_false]
      rfl

/-! ## Messages -/

theorem Message.Clash.symm (a b : Message) (h : a.Clash b) : b.Clash a := by
  rcases h with hid | ⟨hsender, hkey, hne⟩
  · exact .inl hid.symm
  · exact .inr ⟨hsender.symm, hkey.symm, hkey ▸ hne⟩

/-- The message under a key is the one the lookup finds. -/
theorem Tables.messageUnder_of_mem {t : Tables} {m : Message} (hm : m ∈ t.messages.rows)
    (hkey : m.idempotencyKey ≠ "") : t.messageUnder m.senderId m.idempotencyKey = some m := by
  unfold Tables.messageUnder
  rw [if_neg hkey]
  refine UniqueRows.find?_of_mem Message.Clash.symm _ (fun a b ha hb => ?_) hm (by simp)
  have ha : a.senderId = m.senderId ∧ a.idempotencyKey = m.idempotencyKey := by simpa using ha
  have hb : b.senderId = m.senderId ∧ b.idempotencyKey = m.idempotencyKey := by simpa using hb
  exact .inr ⟨ha.1.trans hb.1.symm, ha.2.trans hb.2.symm, by rw [ha.2]; exact hkey⟩

/-- What a call is answered whose key is that of a message. -/
def Message.answered (m : Message) (q : MessageRequest) (t : Tables) :
    Except Error ((Message × List MessageDelivery) × Tables) :=
  ((prepareMessage q).run' t.directory).bind fun prepared =>
    if m.messageDigest = none ∨ m.messageDigest = some prepared.1 then .ok (t.bundle m, t)
    else .error (.conflict "message idempotency key was reused with different content")

/-- **A message whose key is taken.** -/
theorem message_of_mem {t : Tables} {m : Message} (hm : m ∈ t.messages.rows)
    (hne : m.idempotencyKey ≠ "") (now : Instant) (id : MessageId) {q : MessageRequest}
    (hsender : q.senderId = m.senderId) (hkey : q.idempotencyKey = m.idempotencyKey) :
    message now id q t = m.answered q t := by
  have hfind : t.messageUnder q.senderId q.idempotencyKey = some m := by
    rw [hsender, hkey]
    exact Tables.messageUnder_of_mem hm hne
  unfold message Message.answered
  rw [Tx.ask_bind]
  congr 1
  funext prepared
  by_cases hsame : m.messageDigest = none ∨ m.messageDigest = some prepared.1
  · rw [if_pos hsame]
    refine Tx.run_of_wp ?_
    simp only [Tx.wp_bind, Tx.wp_get, hfind, Tx.wp_require, Tx.wp_pure]
    exact ⟨fun _ => ⟨trivial, trivial⟩, fun hno => hno hsame⟩
  · rw [if_neg hsame]
    refine Tx.error_of_wp ?_
    simp only [Tx.wp_bind, Tx.wp_get, hfind, Tx.wp_require, Tx.wp_pure]
    exact ⟨fun hyes => hsame hyes, fun _ => trivial⟩

theorem makes_deliver (now : Instant) (q : MessageRequest) (b : Binding) (id : MessageId)
    (recipient : PrincipalId) (t : Tables) : Tx.Makes Write t (deliver now q b id recipient) := by
  refine Tx.Makes.get (Tx.Makes.need fun p _ => Tx.Makes.ite (fun _ => Tx.makes_require _ _)
    fun _ => Tx.Makes.require fun _ => Tx.Makes.require fun _ => Tx.Makes.ask fun runtime _ => ?_)
  unfold Tx.Makes
  rw [Tx.wp_modify]
  refine .single (.reclassify ⟨?_, rfl, rfl, rfl⟩)
  exact List.forall₂_same.mpr fun b _ => .refl b

/-- **A message is stored with writes**, and the row that is answered is there. -/
theorem makes_storeMessage (now : Instant) (id : MessageId) (q : MessageRequest)
    (content : MessageContent) (b : Binding) (t : Tables) :
    Tx.Ensures t (storeMessage now id q content b) fun bundle t' =>
      Relation.ReflTransGen Write t t' ∧ bundle.1 ∈ t'.messages.rows ∧
      bundle.1.senderId = q.senderId ∧ bundle.1.idempotencyKey = q.idempotencyKey ∧
      bundle.1.messageDigest = some content := by
  unfold storeMessage
  refine Tx.Ensures.get (Tx.Ensures.need fun messages hinsert => ?_)
  refine Tx.Ensures.bind (P := fun _ t' => t' = { t with messages }) rfl fun _ t₁ h₁ => ?_
  have hfirst : Write t t₁ := h₁ ▸ .message hinsert
  refine Tx.Ensures.bind (Tx.Makes.each fun recipient _ t => makes_deliver now q b id recipient t)
    fun _ t₂ h₂ => Tx.Ensures.get ⟨.head hfirst h₂, ?_, rfl, rfl, rfl⟩
  have hmem := UniqueRows.mem_insert hinsert
  rw [show messages = t₁.messages by rw [h₁]] at hmem
  clear h₁ hfirst
  induction h₂ with
  | refl => exact hmem
  | tail _ hlast ih => exact messages_of_write hlast ih

/-- **A call to send a message**: only writes, and the row it answers with is there. -/
theorem makes_message (now : Instant) (id : MessageId) (q : MessageRequest) (t : Tables) :
    Tx.Ensures t (message now id q) fun bundle t' =>
      Relation.ReflTransGen Write t t' ∧ bundle.1 ∈ t'.messages.rows ∧
      bundle.1.senderId = q.senderId ∧ bundle.1.idempotencyKey = q.idempotencyKey := by
  refine Tx.Ensures.ask fun prepared _ => Tx.Ensures.get ?_
  split
  case h_1 existing hfind =>
    refine Tx.Ensures.require fun _ => ⟨.refl, ?_⟩
    unfold Tables.messageUnder at hfind
    split at hfind
    · cases hfind
    · obtain ⟨hmem, hof⟩ := UniqueRows.of_find? hfind
      have hof : existing.senderId = q.senderId ∧ existing.idempotencyKey = q.idempotencyKey := by
        simpa using hof
      exact ⟨hmem, hof⟩
  case h_2 =>
    refine Tx.Ensures.mono (makes_storeMessage now id q prepared.1 prepared.2 t) fun _ _ h => ?_
    exact ⟨h.1, h.2.1, h.2.2.1, h.2.2.2.1⟩

/-! ## Boundaries -/

theorem Boundary.Clash.symm (a b : Boundary) (h : a.Clash b) : b.Clash a := by
  rcases h with hid | ⟨hsource, hevent⟩
  · exact .inl hid.symm
  · exact .inr ⟨hsource.symm, hevent.symm⟩

theorem Tables.boundaryOf_of_mem {t : Tables} {b : Boundary} (hb : b ∈ t.boundaries.rows) :
    t.boundaryOf b.sourcePrincipalId b.sourceEventId = some b := by
  refine UniqueRows.find?_of_mem Boundary.Clash.symm _ (fun a c ha hc => ?_) hb (by simp)
  have ha : a.sourcePrincipalId = b.sourcePrincipalId ∧ a.sourceEventId = b.sourceEventId := by
    simpa using ha
  have hc : c.sourcePrincipalId = b.sourcePrincipalId ∧ c.sourceEventId = b.sourceEventId := by
    simpa using hc
  exact .inr ⟨ha.1.trans hc.1.symm, ha.2.trans hc.2.symm⟩

theorem Tables.boundary_by_id {t : Tables} {b : Boundary} (hb : b ∈ t.boundaries.rows) :
    t.boundaries.find? (fun a => a.id = b.id) = some b := by
  refine UniqueRows.find?_of_mem Boundary.Clash.symm _ (fun a c ha hc => ?_) hb (by simp)
  have ha : a.id = b.id := by simpa using ha
  have hc : c.id = b.id := by simpa using hc
  exact .inl (ha.trans hc.symm)

/-- What a call is answered whose event has a Boundary: with this Boundary, after the
recoveries were derived again if it is about one. -/
def Boundary.answered (b : Boundary) (backfill : Backfill) (r : BoundaryInput) (t : Tables) :
    Except Error (Boundary × Tables) :=
  if b.inputDigest = r then
    if r.metadata.runtimeRecovery = true then
      .ok (((backfill.run t).boundaryOf b.sourcePrincipalId b.sourceEventId).getD b,
        backfill.run t)
    else .ok (b, t)
  else .error (.conflict "boundary source identity was reused with different data")

/-- **A Boundary whose event was reported.** -/
theorem recordBoundary_of_mem {t : Tables} {b : Boundary} (hb : b ∈ t.boundaries.rows)
    (backfill : Backfill) (now : Instant) (id : ℕ) {actor : Actor} {r : BoundaryInput}
    (hsource : actor.id = b.sourcePrincipalId) (hevent : r.sourceEventId = b.sourceEventId) :
    recordBoundary backfill now id actor r t = b.answered backfill r t := by
  have hfind : t.boundaryOf actor.id r.sourceEventId = some b := by
    rw [hsource, hevent]
    exact Tables.boundaryOf_of_mem hb
  unfold Boundary.answered
  by_cases hsame : b.inputDigest = r
  · rw [if_pos hsame]
    by_cases hrecovery : r.metadata.runtimeRecovery = true
    · rw [if_pos hrecovery]
      -- the Boundary is read again, by its identifier
      obtain ⟨b', hb', hreclassified⟩ := (backfill.reclassified t).kept.boundaries b hb
      have hid : (backfill.run t).boundaries.find? (fun a => a.id = b.id) = some b' := by
        rw [show b.id = b'.id by obtain ⟨_, rfl⟩ := hreclassified; rfl]
        exact Tables.boundary_by_id hb'
      have hkey : (backfill.run t).boundaryOf b.sourcePrincipalId b.sourceEventId = some b' := by
        obtain ⟨_, rfl⟩ := hreclassified
        exact Tables.boundaryOf_of_mem hb'
      refine Tx.run_of_wp ?_
      unfold recordBoundary
      simp only [Tx.wp_bind, Tx.wp_get, hfind, Tx.wp_require, Tx.wp_when, Tx.wp_modify,
        Tx.wp_need, hid, hkey, Option.getD_some]
      refine ⟨fun _ => ⟨fun _ => ⟨fun a ha => ⟨(Option.some.inj ha).symm, trivial⟩,
        fun hnone => ?_⟩, fun h => absurd hrecovery h⟩, fun h => h hsame⟩
      cases hnone
    · rw [if_neg hrecovery]
      refine Tx.run_of_wp ?_
      unfold recordBoundary
      simp only [Tx.wp_bind, Tx.wp_get, hfind, Tx.wp_require, Tx.wp_when, Tx.wp_modify,
        Tx.wp_need, Tables.boundary_by_id hb]
      refine ⟨fun _ => ⟨fun h => absurd h hrecovery, fun _ => ⟨fun a ha =>
        ⟨(Option.some.inj ha).symm, trivial⟩, fun hnone => ?_⟩⟩, fun h => h hsame⟩
      cases hnone
  · rw [if_neg hsame]
    refine Tx.error_of_wp ?_
    unfold recordBoundary
    simp only [Tx.wp_bind, Tx.wp_get, hfind, Tx.wp_require]
    exact ⟨fun h => absurd h hsame, fun _ => trivial⟩

theorem makes_backfill (backfill : Backfill) (c : Prop) [Decidable c] (t : Tables) :
    Tx.Makes Write t (Tx.when c (modify backfill.run) : Tx Tables Error PUnit) := by
  refine Tx.Makes.when fun _ => ?_
  unfold Tx.Makes
  rw [Tx.wp_modify]
  exact .single (.reclassify (backfill.reclassified t))

/-- The Boundary with this identifier, after writes. -/
theorem mem_of_find_id {t : Tables} {b b' : Boundary} {id : ℕ}
    (h : ∃ c ∈ t.boundaries.rows, b.Reclassified c) (hid : b.id = id)
    (hfind : t.boundaries.find? (fun a => a.id = id) = some b') :
    b' ∈ t.boundaries.rows ∧ b.Reclassified b' := by
  obtain ⟨c, hc, hreclassified⟩ := h
  have hfound := Tables.boundary_by_id hc
  have hcid : c.id = id := by
    obtain ⟨_, rfl⟩ := hreclassified
    exact hid
  rw [hcid, hfind] at hfound
  rw [Option.some.inj hfound]
  exact ⟨hc, hreclassified⟩

/-- **A call to record a Boundary**: only writes, and the row it answers with is there. -/
theorem makes_recordBoundary (backfill : Backfill) (now : Instant) (id : ℕ) (actor : Actor)
    (r : BoundaryInput) (t : Tables) :
    Tx.Ensures t (recordBoundary backfill now id actor r) fun b t' =>
      Relation.ReflTransGen Write t t' ∧ b ∈ t'.boundaries.rows ∧
      b.sourcePrincipalId = actor.id ∧ b.sourceEventId = r.sourceEventId ∧ b.inputDigest = r := by
  refine Tx.Ensures.get ?_
  split
  case h_1 existing hfind =>
    obtain ⟨hmem, hof⟩ := UniqueRows.of_find? hfind
    have hof : existing.sourcePrincipalId = actor.id ∧ existing.sourceEventId = r.sourceEventId := by
      simpa using hof
    refine Tx.Ensures.require fun hsame => ?_
    refine Tx.Ensures.bind (makes_backfill backfill _ t) fun _ t₁ h₁ => Tx.Ensures.get ?_
    unfold Tx.Ensures
    rw [Tx.wp_need]
    refine ⟨fun b hb => ?_, fun _ => trivial⟩
    have hkept : t.Kept t₁ := kept_of_writes h₁
    obtain ⟨hb, action, rfl⟩ := mem_of_find_id (hkept.boundaries existing hmem) rfl hb
    exact ⟨h₁, hb, hof.1, hof.2, hsame⟩
  case h_2 =>
    refine Tx.Ensures.get (Tx.Ensures.need fun work _ => Tx.Ensures.need fun attempt _ => ?_)
    refine Tx.Ensures.require fun _ => Tx.Ensures.require fun _ => Tx.Ensures.require fun _ =>
      Tx.Ensures.require fun _ => Tx.Ensures.require fun _ => Tx.Ensures.require fun _ =>
        Tx.Ensures.need fun boundaries hinsert => ?_
    refine Tx.Ensures.bind (P := fun _ t' => t' = { t with boundaries }) rfl fun _ t₁ h₁ => ?_
    have hfirst : Write t t₁ := h₁ ▸ .boundary hinsert
    have hmem := UniqueRows.mem_insert hinsert
    rw [show boundaries = t₁.boundaries by rw [h₁]] at hmem
    refine Tx.Ensures.bind (makes_backfill backfill _ t₁) fun _ t₂ h₂ => Tx.Ensures.get ?_
    unfold Tx.Ensures
    rw [Tx.wp_need]
    refine ⟨fun b hb => ?_, fun _ => trivial⟩
    have hkept : t₁.Kept t₂ := kept_of_writes h₂
    obtain ⟨hb, action, rfl⟩ := mem_of_find_id (hkept.boundaries _ hmem) rfl hb
    exact ⟨.head hfirst h₂, hb, rfl, rfl, rfl⟩

/-! ## Submitted intents -/

theorem SourceReceipt.Clash.symm (a b : SourceReceipt) (h : a.Clash b) : b.Clash a := by
  rcases h with hid | ⟨hsource, hsourceId⟩
  · exact .inl hid.symm
  · exact .inr ⟨hsource.symm, hsourceId.symm⟩

theorem SubmittedIntent.Clash.symm (a b : SubmittedIntent) (h : a.Clash b) : b.Clash a := by
  rcases h with hid | ⟨hreceipt, hordinal⟩
  · exact .inl hid.symm
  · exact .inr ⟨hreceipt.symm, hordinal.symm⟩

theorem Tables.receiptOf_of_mem {t : Tables} {r : SourceReceipt}
    (hr : r ∈ t.sourceReceipts.rows) : t.receiptOf r.sourcePrincipalId r.sourceId = some r := by
  refine UniqueRows.find?_of_mem SourceReceipt.Clash.symm _ (fun a b ha hb => ?_) hr (by simp)
  have ha : a.sourcePrincipalId = r.sourcePrincipalId ∧ a.sourceId = r.sourceId := by
    simpa using ha
  have hb : b.sourcePrincipalId = r.sourcePrincipalId ∧ b.sourceId = r.sourceId := by
    simpa using hb
  exact .inr ⟨ha.1.trans hb.1.symm, ha.2.trans hb.2.symm⟩

theorem Tables.intentOf_of_mem {t : Tables} {i : SubmittedIntent}
    (hi : i ∈ t.submittedIntents.rows) (hordinal : i.ordinal = 0) :
    t.intentOf i.sourceReceiptId = some i := by
  refine UniqueRows.find?_of_mem SubmittedIntent.Clash.symm _ (fun a b ha hb => ?_) hi
    (by simpa using hordinal)
  have ha : a.sourceReceiptId = i.sourceReceiptId ∧ a.ordinal = 0 := by simpa using ha
  have hb : b.sourceReceiptId = i.sourceReceiptId ∧ b.ordinal = 0 := by simpa using hb
  exact .inr ⟨ha.1.trans hb.1.symm, ha.2.trans hb.2.symm⟩

/-- What a call is answered whose source has a receipt. -/
def SourceReceipt.answered (r : SourceReceipt) (i : SubmittedIntent) (payloadDigest : String)
    (t : Tables) : Except Error ((SourceReceipt × SubmittedIntent) × Tables) :=
  if r.payloadDigest = payloadDigest then .ok ((r, i), t)
  else .error (.conflict "source identity was already used for a different submitted payload")

/-- **An intent whose source has a receipt.** -/
theorem recordSubmittedIntent_of_mem {t : Tables} {r : SourceReceipt} {i : SubmittedIntent}
    (hr : r ∈ t.sourceReceipts.rows) (hi : i ∈ t.submittedIntents.rows)
    (hof : i.sourceReceiptId = r.id ∧ i.ordinal = 0) (digest : String → String) (now : Instant)
    (receiptId : ReceiptId) (intentId : ℕ) (payload : String) :
    recordSubmittedIntent digest now receiptId intentId r.sourcePrincipalId r.sourceId payload t =
      r.answered i (digest payload) t := by
  have hintent : t.intentOf r.id = some i := by
    rw [← hof.1]
    exact Tables.intentOf_of_mem hi hof.2
  unfold SourceReceipt.answered
  by_cases hsame : r.payloadDigest = digest payload
  · rw [if_pos hsame]
    refine Tx.run_of_wp ?_
    unfold recordSubmittedIntent
    simp only [Tx.wp_bind, Tx.wp_get, Tables.receiptOf_of_mem hr, Tx.wp_require, Tx.wp_need,
      hintent, Tx.wp_pure]
    refine ⟨fun _ => ⟨fun a ha => ⟨?_, trivial⟩, fun hnone => ?_⟩, fun hno => hno hsame⟩
    · rw [Option.some.inj ha]
    · cases hnone
  · rw [if_neg hsame]
    refine Tx.error_of_wp ?_
    unfold recordSubmittedIntent
    simp only [Tx.wp_bind, Tx.wp_get, Tables.receiptOf_of_mem hr, Tx.wp_require]
    exact ⟨fun hyes => absurd hyes hsame, fun _ => trivial⟩

/-- **A call to record an intent**: only writes, and the rows it answers with are there. -/
theorem makes_recordSubmittedIntent (digest : String → String) (now : Instant)
    (receiptId : ReceiptId) (intentId : ℕ) (source : PrincipalId) (sourceId payload : String)
    (t : Tables) :
    Tx.Ensures t (recordSubmittedIntent digest now receiptId intentId source sourceId payload)
      fun answer t' => Relation.ReflTransGen Write t t' ∧
        answer.1 ∈ t'.sourceReceipts.rows ∧ answer.2 ∈ t'.submittedIntents.rows ∧
        answer.2.sourceReceiptId = answer.1.id ∧ answer.2.ordinal = 0 ∧
        answer.1.sourcePrincipalId = source ∧ answer.1.sourceId = sourceId ∧
        answer.1.payloadDigest = digest payload := by
  refine Tx.Ensures.get ?_
  split
  case h_1 existing hfind =>
    obtain ⟨hmem, hof⟩ := UniqueRows.of_find? hfind
    have hof : existing.sourcePrincipalId = source ∧ existing.sourceId = sourceId := by
      simpa using hof
    refine Tx.Ensures.require fun hsame => Tx.Ensures.need fun intent hintent => ?_
    obtain ⟨himem, hiof⟩ := UniqueRows.of_find? hintent
    have hiof : intent.sourceReceiptId = existing.id ∧ intent.ordinal = 0 := by simpa using hiof
    exact ⟨.refl, hmem, himem, hiof.1, hiof.2, hof.1, hof.2, hsame⟩
  case h_2 =>
    refine Tx.Ensures.need fun receipts hr => Tx.Ensures.need fun intents hi => ?_
    refine Tx.Ensures.bind (P := fun _ t' => t' = { t with
      sourceReceipts := receipts, submittedIntents := intents }) rfl fun _ t₁ h₁ => ?_
    rw [h₁]
    exact ⟨.single (.submitted hr hi ⟨rfl, rfl⟩), UniqueRows.mem_insert hr,
      UniqueRows.mem_insert hi, rfl, rfl, rfl, rfl, rfl⟩

/-! ## Runs -/

/-- A transaction advances the store, whether it succeeds or not. -/
theorem advances_commit {α : Type} {m : Tx Store Error α} {s : Store}
    (h : Tx.Ensures s m fun _ s' => s.Advances s') : s.Advances (Tx.commit m s) :=
  Tx.commit_of_wp (I := s.Advances) (.refl s) h

/-- The messages that an operation does not prune. -/
def Spares (m : Message) (s : Store) : Event → Prop
  | .prune cutoff retained => s.tables.prunes cutoff retained m = false
  | _ => True

/-- **What one operation keeps.** -/
theorem follows_of_step {s s' : Store} {e : Event} (h : step s e = some s') :
    s.Follows s' ∧ ∀ m ∈ s.tables.messages.rows, Spares m s e → m ∈ s'.tables.messages.rows := by
  have hall : s.Advances s' → s.Follows s' ∧
      ∀ m ∈ s.tables.messages.rows, Spares m s e → m ∈ s'.tables.messages.rows :=
    fun h => ⟨h.toFollows, fun m hm _ => h.messages hm⟩
  cases e with
  | command c q =>
    rw [← Option.some.inj h] at hall ⊢
    exact hall (advances_commit (Tx.Ensures.mono (ensures_run c q s) fun _ _ h => h.1))
  | complete c q =>
    rw [← Option.some.inj h] at hall ⊢
    exact hall (advances_commit (Tx.Ensures.mono (ensures_execute c q s) fun _ _ h => h.1))
  | transaction m =>
    rw [← Option.some.inj h] at hall ⊢
    exact hall (advances_commit (Tx.Ensures.mono (m.ensures s) fun _ _ h => h.1))
  | prune cutoff retained =>
    rw [← Option.some.inj h]
    refine ⟨⟨fun _ h => h, ⟨fun b hb => ⟨b, hb, .refl b⟩, fun _ h => h, fun _ h => h⟩, id⟩, ?_⟩
    exact fun m hm hspares => UniqueRows.mem_delete hm hspares

/-- What a run keeps. -/
theorem follows_of_runs {s s' : Store} (hs : system.Reachable s) (hruns : system.Runs s s') :
    s.Follows s' :=
  TransitionSystem.Runs.lift (T := system) Store.Follows.refl Store.Follows.trans
    (fun _ _ _ _ h => (follows_of_step h).1) hs hruns

/-- A message that no operation of a run prunes. -/
theorem spared_of_runs {m : Message} {s s' : Store}
    (hruns : (system.restrict (Spares m)).Runs s s')
    (hm : m ∈ s.tables.messages.rows) : m ∈ s'.tables.messages.rows := by
  induction hruns with
  | refl => exact hm
  | tail _ hlast ih =>
    obtain ⟨e, hspares, hstep⟩ := hlast
    exact (follows_of_step hstep).2 m ih hspares

/-- Every receipt has its intent, in every reachable state. -/
theorem paired_of_reachable {s : Store} (hs : system.Reachable s) : s.tables.Paired := by
  refine TransitionSystem.Reachable.invariant (T := system) (I := fun s => s.tables.Paired)
    (fun s hinit r hr => ?_) (fun s e s' _ hI hstep => (follows_of_step hstep).1.paired hI) hs
  rw [hinit.2.2.2.1] at hr
  cases hr

/-! ## Keys -/

/-- **A key of the ledger is settled**: whoever uses it again is answered with the result on
record, or refused. -/
def IdempotencyResult.Settled (row : IdempotencyResult) (s : Store) : Prop :=
  ∀ (c : Command) (q : Request), row.Of c.operation q → q.idempotencyKey ≠ "" →
    c.run q s = if row.requestDigest ∈ q.accepted then c.repeated row s else c.refused s

/-- **The key of a message is settled.** -/
def Message.Settled (m : Message) (t : Tables) : Prop :=
  ∀ (now : Instant) (id : MessageId) (q : MessageRequest), q.senderId = m.senderId →
    q.idempotencyKey = m.idempotencyKey → message now id q t = m.answered q t

/-- **The event of a Boundary is settled.** -/
def Boundary.Settled (b : Boundary) (t : Tables) : Prop :=
  ∀ (backfill : Backfill) (now : Instant) (id : ℕ) (actor : Actor) (r : BoundaryInput),
    actor.id = b.sourcePrincipalId → r.sourceEventId = b.sourceEventId →
      recordBoundary backfill now id actor r t = b.answered backfill r t

/-- **A source identity is settled.** -/
def SourceReceipt.Settled (r : SourceReceipt) (i : SubmittedIntent) (t : Tables) : Prop :=
  ∀ (digest : String → String) (now : Instant) (receiptId : ReceiptId) (intentId : ℕ)
    (payload : String), recordSubmittedIntent digest now receiptId intentId r.sourcePrincipalId
      r.sourceId payload t = r.answered i (digest payload) t

/-- **A keyed command is executed once.** From any reachable state, a call that fails commits
nothing, and one that goes on elsewhere puts nothing on record. A call that is complete is on
record afterwards, and settles its key whatever is executed next: a second call is answered
with that result, having written nothing but the recoveries that a reasoner turn derives
first, or is refused. The same holds of the last transaction of the cleanup. -/
theorem command_settles {s : Store} (hs : system.Reachable s) (c : Command) (q : Request) :
    (∀ e, c.run q s = .error e → Tx.commit (c.run q) s = s) ∧
    (∀ s₁, c.run q s = .ok (none, s₁) → s₁.ledger = s.ledger) ∧
    ∀ result s₁, q.idempotencyKey ≠ "" →
      (c.run q s = .ok (some result, s₁) ∨ c.execute q s = .ok (some result, s₁)) →
      ∃ row ∈ s₁.ledger.rows, row.Of c.operation q ∧ row.requestDigest ∈ q.accepted ∧
        (s.resultOf c.operation q = none →
          row.requestDigest = q.requestDigest ∧ row.result = result) ∧
        ∀ s₂, system.Runs s₁ s₂ → row.Settled s₂ := by
  refine ⟨fun e he => ?_, fun s₁ h₁ => ?_, fun result s₁ hkey h₁ => ?_⟩
  · unfold Tx.commit
    rw [he]
  · exact (Tx.Ensures.run (ensures_run c q s) h₁).2.1 rfl
  have hreach : system.Reachable s₁ := by
    rcases h₁ with h₁ | h₁
    · refine hs.next (e := .command c q) ?_
      show some (Tx.commit (c.run q) s) = some s₁
      unfold Tx.commit
      rw [h₁]
    · refine hs.next (e := .complete c q) ?_
      show some (Tx.commit (c.execute q) s) = some s₁
      unfold Tx.commit
      rw [h₁]
  have hrecorded : Recorded c q s result s₁ := by
    rcases h₁ with h₁ | h₁
    · exact (Tx.Ensures.run (ensures_run c q s) h₁).2.2 result rfl
    · exact (Tx.Ensures.run (ensures_execute c q s) h₁).2.2 result rfl
  obtain ⟨row, hmem, hof, haccepted, hfirst⟩ := hrecorded hkey
  refine ⟨row, hmem, hof, haccepted, hfirst, fun s₂ hruns c' q' hof' hkey' => ?_⟩
  exact run_of_mem ((follows_of_runs hreach hruns).ledger hmem) hof' hkey'

/-- **What the four lookups make of a state.** -/
structure Idempotent (s : Store) : Prop where
  /-- A command that fails leaves nothing, and one that is complete settles its key. -/
  commands : ∀ (c : Command) (q : Request),
    (∀ e, c.run q s = .error e → Tx.commit (c.run q) s = s) ∧
    (∀ s₁, c.run q s = .ok (none, s₁) → s₁.ledger = s.ledger) ∧
    ∀ result s₁, q.idempotencyKey ≠ "" →
      (c.run q s = .ok (some result, s₁) ∨ c.execute q s = .ok (some result, s₁)) →
      ∃ row ∈ s₁.ledger.rows, row.Of c.operation q ∧ row.requestDigest ∈ q.accepted ∧
        (s.resultOf c.operation q = none →
          row.requestDigest = q.requestDigest ∧ row.result = result) ∧
        ∀ s₂, system.Runs s₁ s₂ → row.Settled s₂
  /-- A message that is sent is stored, under its key. -/
  sent : ∀ now id q bundle t, message now id q s.tables = .ok (bundle, t) →
    bundle.1 ∈ t.messages.rows ∧ bundle.1.senderId = q.senderId ∧
      bundle.1.idempotencyKey = q.idempotencyKey
  /-- A message settles its key until it is pruned. -/
  messages : ∀ m ∈ s.tables.messages.rows, m.idempotencyKey ≠ "" →
    ∀ s₂, (system.restrict (Spares m)).Runs s s₂ → m.Settled s₂.tables
  /-- A Boundary that is recorded is stored, under its source and event. -/
  recorded : ∀ backfill now id actor r b t,
    recordBoundary backfill now id actor r s.tables = .ok (b, t) →
      b ∈ t.boundaries.rows ∧ b.sourcePrincipalId = actor.id ∧
        b.sourceEventId = r.sourceEventId ∧ b.inputDigest = r
  /-- A Boundary settles its event; only its recovery may be derived again. -/
  boundaries : ∀ b ∈ s.tables.boundaries.rows, ∀ s₂, system.Runs s s₂ →
    ∃ b' ∈ s₂.tables.boundaries.rows, b.Reclassified b' ∧ b'.Settled s₂.tables
  /-- An intent that is submitted is stored with its receipt. -/
  submitted : ∀ digest now receiptId intentId source sourceId payload answer t,
    recordSubmittedIntent digest now receiptId intentId source sourceId payload s.tables =
      .ok (answer, t) → answer.1 ∈ t.sourceReceipts.rows ∧ answer.1.sourcePrincipalId = source ∧
        answer.1.sourceId = sourceId ∧ answer.1.payloadDigest = digest payload
  /-- A receipt settles its source identity, with one intent. -/
  intents : ∀ r ∈ s.tables.sourceReceipts.rows, ∃ i ∈ s.tables.submittedIntents.rows,
    ∀ s₂, system.Runs s s₂ → r.Settled i s₂.tables

/-- One CAO and no Work. -/
def lone : Store where
  ledger := .empty
  tables :=
    { messages := .empty, deliveries := [], boundaries := .empty, sourceReceipts := .empty,
      submittedIntents := .empty,
      directory :=
        { goalRevisions := [], workItems := [], attempts := [], purposes := [],
          principals := [⟨0, .cao, true⟩], runtimes := [], attachments := [] } }

def reminder : MessageRequest where
  senderId := 0
  recipientIds := [0]
  kind := .system
  payload := ⟨none, none, none, "note"⟩
  workItemId := none
  attemptId := none
  correlationId := ""
  causationId := ""
  idempotencyKey := "note-1"
  goalVersion := none
  runtimeSessionId := none
  createDelivery := true

/-- Sending it. -/
def sendReminder (now : Instant) (id : MessageId) : Effect where
  run := (fun _ => none) <$> message now id reminder
  made t := by
    unfold Tx.Makes
    rw [Tx.wp_map]
    exact Tx.wp_mono (makes_message now id reminder t) (fun _ _ h => h.1) fun _ h => h

/-- Its recipient handles it. -/
def handleReminder : Effect where
  run := do
    modify fun t : Tables => { t with
      deliveries := t.deliveries.map fun d => { d with state := .handled } }
    pure none
  made _ := .single (.reclassify
    ⟨List.forall₂_same.mpr fun b _ => .refl b, rfl, rfl, rfl⟩)

theorem reachable_lone : system.Reachable lone :=
  .of_init ⟨rfl, rfl, rfl, rfl, rfl⟩

end Keyed
