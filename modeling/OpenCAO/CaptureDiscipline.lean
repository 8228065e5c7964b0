import OpenCAO.CaptureStreams

/-!
# The discipline of the capture streams

A stream ends once, is settled once, and its supervisor is told of its end
once, whoever writes the end and however often settlement and
reconciliation run. The tables say most of it themselves: the end of a
stream has one identifier, and is written under a check that there was
none.

That the supervisor is told once does not follow from the tables. The
reconciliation tells of an interrupted capture before the stream is
settled, so settlement must not tell of it again. It does not, because it
finds the first message by its Boundary (`Covered`), in the same
transaction; or because it never looks at the stream again, when a later
generation has ended before (`Shadowed`).
-/

/-! ## A ledger that grows

What settlement and reconciliation do to the ledger only adds to it, and no
Boundary is opened where one is open. -/

/-- **The ledger grows.** -/
structure CaptureLedger.Grows (l l' : CaptureLedger) : Prop where
  works : ∀ id, ∀ w ∈ l.work? id, ∃ w' ∈ l'.work? id,
    w'.id = w.id ∧ w'.generation = w.generation ∧ w'.toldTo = w.toldTo
  attempts : ∀ id, ∀ a ∈ l.attempt? id, ∃ a' ∈ l'.attempt? id, a'.id = a.id
  runtimes : l'.runtimes = l.runtimes
  messages : l.messages ⊆ l'.messages
  deliveries : l.deliveries ⊆ l'.deliveries
  boundaries : l.boundaries ⊆ l'.boundaries
  opened : ∀ b ∈ l'.boundaries, b ∈ l.boundaries ∨ ∀ b₀ ∈ l.boundaries, b₀.isOpen = true →
    b₀.attemptId = b.attemptId → b₀.generation ≠ b.generation

namespace CaptureLedger

variable {l l' : CaptureLedger}

theorem Grows.refl (l : CaptureLedger) : l.Grows l :=
  ⟨fun _ w hw => ⟨w, hw, rfl, rfl, rfl⟩, fun _ a ha => ⟨a, ha, rfl⟩, rfl, List.Subset.refl _,
    List.Subset.refl _, List.Subset.refl _, fun _ hb => .inl hb⟩

theorem Grows.trans {l₁ l₂ l₃ : CaptureLedger} (h₁ : l₁.Grows l₂) (h₂ : l₂.Grows l₃) :
    l₁.Grows l₃ where
  works id w hw := by
    obtain ⟨w', hw', hid, hgeneration, htold⟩ := h₁.works id w hw
    obtain ⟨w'', hw'', hid', hgeneration', htold'⟩ := h₂.works id w' hw'
    exact ⟨w'', hw'', hid'.trans hid, hgeneration'.trans hgeneration, htold'.trans htold⟩
  attempts id a ha := by
    obtain ⟨a', ha', hid⟩ := h₁.attempts id a ha
    obtain ⟨a'', ha'', hid'⟩ := h₂.attempts id a' ha'
    exact ⟨a'', ha'', hid'.trans hid⟩
  runtimes := h₂.runtimes.trans h₁.runtimes
  messages := List.Subset.trans h₁.messages h₂.messages
  deliveries := List.Subset.trans h₁.deliveries h₂.deliveries
  boundaries := List.Subset.trans h₁.boundaries h₂.boundaries
  opened b hb := by
    rcases h₂.opened b hb with hmid | hnone
    · exact h₁.opened b hmid
    · exact .inr fun b₀ hb₀ => hnone b₀ (h₁.boundaries hb₀)

theorem grows_handOver (w : CaptureWork) (a : CaptureAttempt) (state : AttemptState) :
    l.Grows (l.handOver w a state) where
  works id v hv := by
    obtain ⟨v', hv', rfl | rfl⟩ := Rows.find?_update (p := fun v => v.id = w.id)
      (f := fun v => { v with state := .waitingSupervisor, attentionOwner := .cao })
      (by exact fun _ => rfl) hv
    · exact ⟨v', hv', rfl, rfl, rfl⟩
    · exact ⟨_, hv', rfl, rfl, rfl⟩
  attempts id b hb := by
    obtain ⟨b', hb', rfl | rfl⟩ := Rows.find?_update (p := fun b => b.id = a.id)
      (f := fun b => { b with state := state }) (by exact fun _ => rfl) hb
    · exact ⟨b', hb', rfl⟩
    · exact ⟨_, hb', rfl⟩
  runtimes := rfl
  messages := List.Subset.refl _
  deliveries := List.Subset.refl _
  boundaries := List.Subset.refl _
  opened _ hb := .inl hb

/-- A Boundary is opened where none is open. -/
theorem grows_open {b : CaptureBoundary} (h : ∀ b₀ ∈ l.boundaries, b₀.isOpen = true →
    b₀.attemptId = b.attemptId → b₀.generation ≠ b.generation) :
    l.Grows { l with boundaries := l.boundaries ++ [b] } where
  works _ w hw := ⟨w, hw, rfl, rfl, rfl⟩
  attempts _ a ha := ⟨a, ha, rfl⟩
  runtimes := rfl
  messages := List.Subset.refl _
  deliveries := List.Subset.refl _
  boundaries := List.subset_append_left _ _
  opened b' hb' := by
    rcases List.mem_append.mp hb' with hold | hin
    · exact .inl hold
    · obtain rfl := List.mem_singleton.mp hin
      exact .inr h

theorem grows_send (m : CaptureMessage) (d : Delivery) :
    l.Grows { l with messages := l.messages ++ [m], deliveries := l.deliveries ++ [d] } where
  works _ w hw := ⟨w, hw, rfl, rfl, rfl⟩
  attempts _ a ha := ⟨a, ha, rfl⟩
  runtimes := rfl
  messages := List.subset_append_left _ _
  deliveries := List.subset_append_left _ _
  boundaries := List.Subset.refl _
  opened _ hb := .inl hb

/-- A runtime that has settled stays so. -/
theorem Grows.settled (h : l.Grows l') {id : RuntimeId} (hsettled : l.Settled id) :
    l'.Settled id := by
  unfold Settled runtime? at *
  rw [h.runtimes]
  exact hsettled

theorem boundary?_ne_none {w : CaptureWork} {a : CaptureAttempt} : l.boundary? w a ≠ none ↔
    ∃ b ∈ l.boundaries, b.attemptId = a.id ∧ b.generation = w.generation ∧ b.isOpen = true := by
  unfold boundary?
  rw [ne_eq, List.getLast?_eq_none_iff, List.filter_eq_nil_iff]
  push Not
  simp [and_assoc]

theorem anyBoundary?_eq_none {a : CaptureAttempt} : l.anyBoundary? a = none ↔
    ∀ b ∈ l.boundaries, b.attemptId = a.id → b.isOpen = false := by
  unfold anyBoundary?
  rw [List.getLast?_eq_none_iff, List.filter_eq_nil_iff]
  simp

end CaptureLedger

namespace CaptureStore

open Tx

variable {s s' : CaptureStore} {t : CaptureStream}

/-! ## The invariant -/

/-- The receipts of a stream. -/
def outputs (s : CaptureStore) (id : OutputStreamId) : List OutputId :=
  (s.receipts.filter fun r => r.streamId = id).map (·.id)

/-- The ends of a stream. -/
def turnEnds (s : CaptureStore) (id : OutputStreamId) : List OutputId :=
  (s.receipts.filter fun r => r.streamId = id && r.eventKind = .turnEnd).map (·.id)

/-- **The invariant of the capture tables.** -/
structure Inv (s : CaptureStore) : Prop where
  /-- The primary key of the streams. -/
  streams : (s.streams.map (·.id)).Nodup
  /-- The primary key of the receipts. -/
  receipts : (s.receipts.map (·.id)).Nodup
  /-- A receipt is identified by its stream and its item. -/
  identified : ∀ r ∈ s.receipts, (r.eventKind = .turnEnd ∧ r.id = .terminal r.streamId) ∨
    (r.eventKind = .message ∧ ∃ item, r.id = .message r.streamId item)
  /-- Only valid events are kept. -/
  valid : ∀ r ∈ s.receipts, ∀ e, r.eventDigest = .event e → e.Valid
  /-- Every receipt is of a stream. -/
  owned : ∀ r ∈ s.receipts, ∃ t ∈ s.streams, t.id = r.streamId
  /-- A stream names its one end. -/
  ended : ∀ t ∈ s.streams, s.turnEnds t.id = t.terminalOutputId.toList
  /-- What is settled has ended. -/
  settled : ∀ t ∈ s.streams, t.settledAt ≠ none → t.terminalOutputId ≠ none
  /-- A settlement was written once. -/
  settlements : s.settlements.Nodup
  settlements_settled : ∀ id ∈ s.settlements, ∃ t ∈ s.streams, t.id = id ∧ t.settledAt ≠ none
  /-- A notification was created once. -/
  notified : s.notified.Nodup
  notified_ended : ∀ id ∈ s.notified, ∃ t ∈ s.streams, t.id = id ∧ t.terminalOutputId ≠ none
  /-- A Boundary of an interrupted capture is of a stream that has ended. -/
  sources : ∀ b ∈ s.ledger.boundaries, ∀ o, b.source = .interrupted o →
    ∃ t ∈ s.streams, o = .terminal t.id ∧ t.terminalOutputId ≠ none

/-- **What a stream has reached stays**: it is about the same dispatch, its end is the
same and nothing is added behind it, and its settlement is the same. -/
structure Stays (s s' : CaptureStore) (t t' : CaptureStream) : Prop where
  id : t'.id = t.id
  attempt : t'.attemptId = t.attemptId
  work : t'.workItemId = t.workItemId
  ended : ∀ o, t.terminalOutputId = some o →
    t'.terminalOutputId = some o ∧ s'.outputs t.id = s.outputs t.id
  settled : ∀ x, t.settledAt = some x → t'.settledAt = some x

/-- No stream loses what it has reached. -/
def Extends (s s' : CaptureStore) : Prop :=
  ∀ t ∈ s.streams, ∃ t' ∈ s'.streams, Stays s s' t t'

theorem Extends.refl (s : CaptureStore) : Extends s s :=
  fun t ht => ⟨t, ht, rfl, rfl, rfl, fun _ h => ⟨h, rfl⟩, fun _ h => h⟩

theorem Extends.trans {s₁ s₂ s₃ : CaptureStore} (h₁ : Extends s₁ s₂) (h₂ : Extends s₂ s₃) :
    Extends s₁ s₃ := by
  intro t₁ ht₁
  obtain ⟨t₂, ht₂, h₁₂⟩ := h₁ t₁ ht₁
  obtain ⟨t₃, ht₃, h₂₃⟩ := h₂ t₂ ht₂
  refine ⟨t₃, ht₃, h₂₃.id.trans h₁₂.id, h₂₃.attempt.trans h₁₂.attempt,
    h₂₃.work.trans h₁₂.work, fun o ho => ?_, fun x hx => h₂₃.settled x (h₁₂.settled x hx)⟩
  obtain ⟨ho₂, houtputs⟩ := h₁₂.ended o ho
  obtain ⟨ho₃, houtputs'⟩ := h₂₃.ended o ho₂
  rw [h₁₂.id] at houtputs'
  exact ⟨ho₃, houtputs'.trans houtputs⟩

/-- The stream is passed over by settlement for a later generation. -/
def Shadowed (s : CaptureStore) (t : CaptureStream) : Prop :=
  ∃ u ∈ s.streams, u.id.runtimeId = t.id.runtimeId ∧ u.attemptId = t.attemptId ∧
    u.id.deliveryMessageId = t.id.deliveryMessageId ∧ u.terminalOutputId ≠ none ∧
    t.id.deliveryGeneration < u.id.deliveryGeneration

/-- The runtime has settled, there is an open Boundary that settlement would publish the
end of the stream at, and each such Boundary is told of. -/
def Covered (l : CaptureLedger) (t : CaptureStream) : Prop :=
  l.Settled t.id.runtimeId ∧ ∃ a ∈ l.attempt? t.attemptId, ∃ w ∈ l.work? t.workItemId, l.boundary? w a ≠ none ∧
    ∀ b ∈ l.boundaries, b.attemptId = a.id → b.generation = w.generation → b.isOpen = true →
      ∃ m ∈ l.messages, l.Tells w a b m

/-- **Whoever was notified is not notified again**: the stream is settled, is passed over,
or its notification is found. -/
def Told (s : CaptureStore) : Prop :=
  ∀ t ∈ s.streams, t.id ∈ s.notified → t.settledAt ≠ none ∨ s.Shadowed t ∨ Covered s.ledger t

/-- Between transactions a notified stream is settled or passed over. -/
def Quiet (s : CaptureStore) : Prop :=
  ∀ t ∈ s.streams, t.id ∈ s.notified → t.settledAt ≠ none ∨ s.Shadowed t

theorem Quiet.told (h : s.Quiet) : s.Told := fun t ht hn => (h t ht hn).imp_right .inl

theorem Inv.of_initial (h : s.Initial) : Inv s := by
  obtain ⟨hstreams, hreceipts, hsettlements, hnotified, hsources⟩ := h
  refine ⟨by simp [hstreams], by simp [hreceipts], by simp [hreceipts], by simp [hreceipts],
    by simp [hreceipts], by simp [hstreams], by simp [hstreams], by simp [hsettlements],
    by simp [hsettlements], by simp [hnotified], by simp [hnotified], fun b hb o ho => ?_⟩
  rw [hsources b hb] at ho
  cases ho

theorem quiet_of_initial (h : s.Initial) : s.Quiet := by
  intro t ht
  rw [h.1] at ht
  cases ht

/-! ## What a statement keeps -/

/-- The streams are told apart by their identifier. -/
theorem Inv.stream_eq (hs : Inv s) {t u : CaptureStream} (ht : t ∈ s.streams) (hu : u ∈ s.streams)
    (h : t.id = u.id) : t = u := Rows.eq_of_key hs.streams ht hu h

/-- A stream is found after an update, changed if it was meant. -/
theorem mem_update_streams (f : CaptureStream → CaptureStream) {streams : List CaptureStream}
    {u : CaptureStream} (hu : u ∈ streams) (id : OutputStreamId) :
    ∃ u' ∈ Rows.update (fun v => v.id = id) f streams,
      (u.id = id ∧ u' = f u) ∨ (u.id ≠ id ∧ u' = u) := by
  by_cases hid : u.id = id
  · exact ⟨f u, Rows.mem_update_of hu (by simpa using hid), .inl ⟨hid, rfl⟩⟩
  · exact ⟨u, Rows.mem_update_of_not hu (by simpa using hid), .inr ⟨hid, rfl⟩⟩

/-- Where the streams and the receipts stay, nothing is lost. -/
theorem Extends.of_eq (hstreams : s'.streams = s.streams)
    (houtputs : ∀ id, s'.outputs id = s.outputs id) : Extends s s' := by
  intro t ht
  rw [← hstreams] at ht
  exact ⟨t, ht, rfl, rfl, rfl, fun _ ho => ⟨ho, houtputs t.id⟩, fun _ hx => hx⟩

/-- An end that was reached stays. -/
theorem Extends.ended (h : Extends s s') {id : OutputStreamId}
    (ht : ∃ t ∈ s.streams, t.id = id ∧ t.terminalOutputId ≠ none) :
    ∃ t ∈ s'.streams, t.id = id ∧ t.terminalOutputId ≠ none := by
  obtain ⟨t, ht, rfl, hended⟩ := ht
  obtain ⟨t', ht', hstays⟩ := h t ht
  obtain ⟨o, ho⟩ := Option.ne_none_iff_exists'.mp hended
  refine ⟨t', ht', hstays.id, ?_⟩
  rw [(hstays.ended o ho).1]
  exact Option.some_ne_none o

/-- A settlement that was written stays. -/
theorem Extends.settled (h : Extends s s') {id : OutputStreamId}
    (ht : ∃ t ∈ s.streams, t.id = id ∧ t.settledAt ≠ none) :
    ∃ t ∈ s'.streams, t.id = id ∧ t.settledAt ≠ none := by
  obtain ⟨t, ht, rfl, hsettled⟩ := ht
  obtain ⟨t', ht', hstays⟩ := h t ht
  obtain ⟨x, hx⟩ := Option.ne_none_iff_exists'.mp hsettled
  refine ⟨t', ht', hstays.id, ?_⟩
  rw [hstays.settled x hx]
  exact Option.some_ne_none x

/-- A source that is of an ended stream stays so. -/
theorem Extends.source (h : Extends s s') {o : OutputId}
    (ht : ∃ t ∈ s.streams, o = .terminal t.id ∧ t.terminalOutputId ≠ none) :
    ∃ t ∈ s'.streams, o = .terminal t.id ∧ t.terminalOutputId ≠ none := by
  obtain ⟨t, ht, rfl, hended⟩ := ht
  obtain ⟨t', ht', hid, hkept⟩ := h.ended ⟨t, ht, rfl, hended⟩
  exact ⟨t', ht', by rw [hid], hkept⟩

/-! ### The ledger and the log -/

theorem extends_withLedger (l : CaptureLedger) : Extends s (s.withLedger l) :=
  .of_eq rfl fun _ => rfl

theorem Inv.withLedger (hs : Inv s) {l : CaptureLedger}
    (h : ∀ b ∈ l.boundaries, ∀ o, b.source = .interrupted o →
      ∃ t ∈ s.streams, o = .terminal t.id ∧ t.terminalOutputId ≠ none) :
    Inv (s.withLedger l) :=
  { hs with sources := h }

/-- Where nobody else records a Boundary of a capture, the sources stay. -/
theorem Inv.foreign (hs : Inv s) {l : CaptureLedger} (h : s.ledger.Foreign l) :
    Inv (s.withLedger l) := by
  refine hs.withLedger fun b hb o ho => ?_
  obtain ⟨b₀, hb₀, hsource⟩ := h b hb (by rw [ho]; exact fun h => by cases h)
  exact hs.sources b₀ hb₀ o (hsource.trans ho)

theorem Inv.notify (hs : Inv s) (ht : t ∈ s.streams) (hended : t.terminalOutputId ≠ none)
    (hnew : t.id ∉ s.notified) : Inv { s with notified := t.id :: s.notified } :=
  { hs with
    notified := List.nodup_cons.mpr ⟨hnew, hs.notified⟩
    notified_ended := by
      intro id hid
      rcases List.mem_cons.mp hid with rfl | hid
      · exact ⟨t, ht, rfl, hended⟩
      · exact hs.notified_ended id hid }

/-! ### Receipts -/

theorem outputs_link (id : OutputId) (n : Option WorkMessageId) (b : Option BoundaryId)
    (sid : OutputStreamId) : (s.link id n b).outputs sid = s.outputs sid :=
  Rows.map_filter_update (f := linked n b) (fun _ => rfl) (fun _ => rfl) s.receipts

theorem turnEnds_link (id : OutputId) (n : Option WorkMessageId) (b : Option BoundaryId)
    (sid : OutputStreamId) : (s.link id n b).turnEnds sid = s.turnEnds sid :=
  Rows.map_filter_update (f := linked n b) (fun _ => rfl) (fun _ => rfl) s.receipts

theorem extends_link (id : OutputId) (n : Option WorkMessageId) (b : Option BoundaryId) :
    Extends s (s.link id n b) := .of_eq rfl (outputs_link id n b)

/-- A linked receipt is one of before, with the same columns. -/
theorem of_mem_link {id : OutputId} {n : Option WorkMessageId} {b : Option BoundaryId}
    {r : OutputReceipt} (hr : r ∈ (s.link id n b).receipts) : ∃ r₀ ∈ s.receipts,
      r.id = r₀.id ∧ r.streamId = r₀.streamId ∧ r.eventKind = r₀.eventKind ∧
        r.eventDigest = r₀.eventDigest := by
  obtain ⟨r₀, hr₀, rfl⟩ := Rows.mem_update.mp hr
  refine ⟨r₀, hr₀, ?_⟩
  split <;> exact ⟨rfl, rfl, rfl, rfl⟩

theorem Inv.link (hs : Inv s) (id : OutputId) (n : Option WorkMessageId)
    (b : Option BoundaryId) : Inv (s.link id n b) :=
  { hs with
    receipts := by
      have : (s.link id n b).receipts.map (·.id) = s.receipts.map (·.id) :=
        Rows.map_update (f := linked n b) (fun _ _ => rfl) s.receipts
      rw [this]
      exact hs.receipts
    identified := fun r hr => by
      obtain ⟨r₀, hr₀, hid, hstream, hkind, -⟩ := of_mem_link hr
      rw [hid, hstream, hkind]
      exact hs.identified r₀ hr₀
    valid := fun r hr e he => by
      obtain ⟨r₀, hr₀, -, -, -, hdigest⟩ := of_mem_link hr
      exact hs.valid r₀ hr₀ e (hdigest.symm.trans he)
    owned := fun r hr => by
      obtain ⟨r₀, hr₀, -, hstream, -⟩ := of_mem_link hr
      rw [hstream]
      exact hs.owned r₀ hr₀
    ended := fun t ht => by
      rw [turnEnds_link]
      exact hs.ended t ht }

theorem outputs_insertReceipt {row : OutputReceipt} {id : OutputStreamId} (h : row.streamId ≠ id) :
    (s.insertReceipt row).outputs id = s.outputs id := by
  simp [outputs, insertReceipt, h]

/-- A text that is new in its stream. -/
theorem Inv.insertReceipt (hs : Inv s) {row : OutputReceipt} (ht : t ∈ s.streams)
    (hnew : ∀ r ∈ s.receipts, r.id ≠ row.id) (hstream : row.streamId = t.id)
    (hkind : row.eventKind = .message) (hid : ∃ item, row.id = .message row.streamId item)
    (hvalid : ∀ e, row.eventDigest = .event e → e.Valid) : Inv (s.insertReceipt row) :=
  { hs with
    receipts := by
      show ((s.receipts ++ [row]).map (·.id)).Nodup
      rw [List.map_append, List.nodup_append]
      refine ⟨hs.receipts, List.nodup_singleton _, ?_⟩
      rintro _ hid₁ _ hid₂ rfl
      obtain ⟨r, hr, hrid⟩ := List.mem_map.mp hid₁
      exact hnew r hr (hrid.trans (List.mem_singleton.mp hid₂))
    identified := fun r hr => by
      rcases List.mem_append.mp hr with hold | hin
      · exact hs.identified r hold
      · obtain rfl := List.mem_singleton.mp hin
        exact .inr ⟨hkind, hid⟩
    valid := fun r hr => by
      rcases List.mem_append.mp hr with hold | hin
      · exact hs.valid r hold
      · obtain rfl := List.mem_singleton.mp hin
        exact hvalid
    owned := fun r hr => by
      rcases List.mem_append.mp hr with hold | hin
      · exact hs.owned r hold
      · obtain rfl := List.mem_singleton.mp hin
        exact ⟨t, ht, hstream.symm⟩
    ended := fun u hu => by
      rw [← hs.ended u hu]
      simp [turnEnds, CaptureStore.insertReceipt, hkind] }

theorem extends_insertReceipt (hs : Inv s) {row : OutputReceipt} (ht : t ∈ s.streams)
    (hopen : t.terminalOutputId = none) (hstream : row.streamId = t.id) :
    Extends s (s.insertReceipt row) := by
  intro u hu
  refine ⟨u, hu, rfl, rfl, rfl, fun o ho => ⟨ho, outputs_insertReceipt ?_⟩, fun _ hx => hx⟩
  intro hsame
  obtain rfl := hs.stream_eq ht hu (hstream.symm.trans hsame)
  rw [hopen] at ho
  cases ho

/-! ### Streams -/

/-- A stream after an update is one of before, changed if it was meant. -/
theorem of_mem_update_streams {f : CaptureStream → CaptureStream} {streams : List CaptureStream}
    {id : OutputStreamId} {u' : CaptureStream}
    (hu' : u' ∈ Rows.update (fun v => v.id = id) f streams) :
    ∃ u ∈ streams, (u.id = id ∧ u' = f u) ∨ (u.id ≠ id ∧ u' = u) := by
  obtain ⟨u, hu, rfl⟩ := Rows.mem_update.mp hu'
  refine ⟨u, hu, ?_⟩
  by_cases hid : u.id = id
  · exact .inl ⟨hid, if_pos (decide_eq_true hid)⟩
  · exact .inr ⟨hid, if_neg (by simpa using hid)⟩

/-- Updates of streams keep their primary key. -/
theorem streams_nodup_update (hs : Inv s) {f : CaptureStream → CaptureStream}
    (hf : ∀ u, (f u).id = u.id) (id : OutputStreamId) :
    ((Rows.update (fun v => v.id = id) f s.streams).map (·.id)).Nodup := by
  rw [Rows.map_update (g := (·.id)) (fun u _ => hf u)]
  exact hs.streams

theorem extends_settle (hs : Inv s) (ht : t ∈ s.streams) (hopen : t.settledAt = none) :
    Extends s (s.settle t) := by
  intro u hu
  obtain ⟨u', hu', ⟨hsame, rfl⟩ | ⟨-, rfl⟩⟩ :=
    mem_update_streams (settledStream s.now) hu t.id
  · obtain rfl := hs.stream_eq hu ht hsame
    refine ⟨_, hu', rfl, rfl, rfl, fun o ho => ⟨ho, rfl⟩, fun x hx => ?_⟩
    rw [hopen] at hx
    cases hx
  · exact ⟨_, hu', rfl, rfl, rfl, fun o ho => ⟨ho, rfl⟩, fun x hx => hx⟩

/-- **A settlement is written once.** -/
theorem Inv.settle (hs : Inv s) (ht : t ∈ s.streams) (hended : t.terminalOutputId ≠ none)
    (hopen : t.settledAt = none) : Inv (s.settle t) := by
  have hextends := extends_settle hs ht hopen
  have hmem : settledStream s.now t ∈ (s.settle t).streams :=
    Rows.mem_update_of ht (decide_eq_true rfl)
  refine
    { hs with
      streams := streams_nodup_update hs (f := settledStream s.now) (fun _ => rfl) t.id
      owned := fun r hr => ?_
      ended := fun u' hu' => ?_
      settled := fun u' hu' => ?_
      settlements := List.nodup_cons.mpr ⟨fun hin => ?_, hs.settlements⟩
      settlements_settled := fun id hid => ?_
      notified_ended := fun id hid => hextends.ended (hs.notified_ended id hid)
      sources := fun b hb o ho => hextends.source (hs.sources b hb o ho) }
  · obtain ⟨u, hu, hid⟩ := hs.owned r hr
    obtain ⟨u', hu', hstays⟩ := hextends u hu
    exact ⟨u', hu', hstays.id.trans hid⟩
  · obtain ⟨u, hu, ⟨-, rfl⟩ | ⟨-, rfl⟩⟩ := of_mem_update_streams hu'
    · exact hs.ended u hu
    · exact hs.ended u' hu
  · obtain ⟨u, hu, ⟨hid, rfl⟩ | ⟨-, rfl⟩⟩ := of_mem_update_streams hu'
    · obtain rfl := hs.stream_eq hu ht hid
      exact fun _ => hended
    · exact hs.settled u' hu
  · obtain ⟨u, hu, hid, hsettled⟩ := hs.settlements_settled t.id hin
    obtain rfl := hs.stream_eq hu ht hid
    exact hsettled hopen
  · rcases List.mem_cons.mp hid with rfl | hid
    · exact ⟨_, hmem, rfl, Option.some_ne_none _⟩
    · exact hextends.settled (hs.settlements_settled id hid)

section Terminate

variable {row : OutputReceipt}

/-- Before a stream has ended there is no receipt of its end. -/
theorem Inv.terminal_new (hs : Inv s) (ht : t ∈ s.streams) (hopen : t.terminalOutputId = none) :
    ∀ r ∈ s.receipts, r.id ≠ .terminal t.id := by
  intro r hr hid
  have hends := hs.ended t ht
  rw [hopen] at hends
  rcases hs.identified r hr with ⟨hkind, hterminal⟩ | ⟨-, item, hmessage⟩
  · rw [hterminal] at hid
    obtain hstream := OutputId.terminal.inj hid
    have : r.id ∈ s.turnEnds t.id :=
      List.mem_map.mpr ⟨r, List.mem_filter.mpr ⟨hr, by simp [hstream, hkind]⟩, rfl⟩
    rw [hends] at this
    cases this
  · rw [hmessage] at hid
    cases hid

theorem extends_terminate (hs : Inv s) (ht : t ∈ s.streams) (hopen : t.terminalOutputId = none)
    (hstream : row.streamId = t.id) : Extends s (s.terminate t row) := by
  intro u hu
  obtain ⟨u', hu', ⟨hsame, rfl⟩ | ⟨hother, rfl⟩⟩ :=
    mem_update_streams (terminated row.id) hu t.id
  · obtain rfl := hs.stream_eq hu ht hsame
    refine ⟨_, hu', rfl, rfl, rfl, fun o ho => ?_, fun x hx => hx⟩
    rw [hopen] at ho
    cases ho
  · refine ⟨_, hu', rfl, rfl, rfl, fun o ho => ⟨ho, outputs_insertReceipt ?_⟩, fun x hx => hx⟩
    rw [hstream]
    exact fun h => hother h.symm

/-- **A stream ends once.** -/
theorem Inv.terminate (hs : Inv s) (ht : t ∈ s.streams) (hopen : t.terminalOutputId = none)
    (hstream : row.streamId = t.id) (hid : row.id = .terminal t.id)
    (hkind : row.eventKind = .turnEnd) (hvalid : ∀ e, row.eventDigest = .event e → e.Valid) :
    Inv (s.terminate t row) := by
  have hextends := extends_terminate hs ht hopen hstream
  refine
    { streams := streams_nodup_update hs (f := terminated row.id) (fun _ => rfl) t.id
      receipts := ?_
      identified := fun r hr => ?_
      valid := fun r hr => ?_
      owned := fun r hr => ?_
      ended := fun u' hu' => ?_
      settled := fun u' hu' hsettled => ?_
      settlements := hs.settlements
      settlements_settled := fun id hid => hextends.settled (hs.settlements_settled id hid)
      notified := hs.notified
      notified_ended := fun id hid => hextends.ended (hs.notified_ended id hid)
      sources := fun b hb o ho => hextends.source (hs.sources b hb o ho) }
  · show ((s.receipts ++ [row]).map (·.id)).Nodup
    rw [List.map_append, List.nodup_append]
    refine ⟨hs.receipts, List.nodup_singleton _, ?_⟩
    rintro _ hid₁ _ hid₂ rfl
    obtain ⟨r, hr, hrid⟩ := List.mem_map.mp hid₁
    have hrow := List.mem_singleton.mp hid₂
    exact hs.terminal_new ht hopen r hr (hrid.trans (hrow.trans hid))
  · rcases List.mem_append.mp hr with hold | hin
    · exact hs.identified r hold
    · obtain rfl := List.mem_singleton.mp hin
      exact .inl ⟨hkind, hid.trans (congrArg _ hstream.symm)⟩
  · rcases List.mem_append.mp hr with hold | hin
    · exact hs.valid r hold
    · obtain rfl := List.mem_singleton.mp hin
      exact hvalid
  · have hstreams : ∃ u ∈ s.streams, u.id = r.streamId := by
      rcases List.mem_append.mp hr with hold | hin
      · exact hs.owned r hold
      · obtain rfl := List.mem_singleton.mp hin
        exact ⟨t, ht, hstream.symm⟩
    obtain ⟨u, hu, hid'⟩ := hstreams
    obtain ⟨u', hu', hstays⟩ := hextends u hu
    exact ⟨u', hu', hstays.id.trans hid'⟩
  · have hturnEnds : ∀ id, (s.terminate t row).turnEnds id =
        s.turnEnds id ++ if row.streamId = id then [row.id] else [] := by
      intro id
      by_cases h : row.streamId = id <;>
        simp [turnEnds, CaptureStore.terminate, CaptureStore.insertReceipt, hkind, h]
    rw [hturnEnds]
    obtain ⟨u, hu, ⟨hsame, rfl⟩ | ⟨hother, rfl⟩⟩ := of_mem_update_streams hu'
    · obtain rfl := hs.stream_eq hu ht hsame
      show (s.turnEnds u.id ++ if row.streamId = u.id then [row.id] else []) = [row.id]
      rw [hs.ended u hu, hopen, if_pos hstream]
      rfl
    · rw [if_neg, List.append_nil, hs.ended u' hu]
      rw [hstream]
      exact fun h => hother h.symm
  · obtain ⟨u, hu, ⟨-, rfl⟩ | ⟨-, rfl⟩⟩ := of_mem_update_streams hu'
    · exact Option.some_ne_none _
    · exact hs.settled u' hu hsettled

end Terminate

/-- The provider names its thread and its turn. -/
theorem extends_correlated (id : OutputStreamId) (e : WorkerOutputEvent) (l : CaptureLedger) :
    Extends s { s.withLedger l with
      streams := Rows.update (fun u => u.id = id) (correlated e) s.streams } := by
  intro u hu
  obtain ⟨u', hu', ⟨-, rfl⟩ | ⟨-, rfl⟩⟩ := mem_update_streams (correlated e) hu id
  · exact ⟨_, hu', rfl, rfl, rfl, fun o ho => ⟨ho, rfl⟩, fun x hx => hx⟩
  · exact ⟨_, hu', rfl, rfl, rfl, fun o ho => ⟨ho, rfl⟩, fun x hx => hx⟩

theorem Inv.correlated (hs : Inv s) (id : OutputStreamId) (e : WorkerOutputEvent)
    {l : CaptureLedger} (hl : l.boundaries = s.ledger.boundaries) :
    Inv { s.withLedger l with
      streams := Rows.update (fun u => u.id = id) (CaptureStore.correlated e) s.streams } := by
  have hextends := extends_correlated (s := s) id e l
  refine
    { hs with
      streams := streams_nodup_update hs (f := CaptureStore.correlated e) (fun _ => rfl) id
      owned := fun r hr => ?_
      ended := fun u' hu' => ?_
      settled := fun u' hu' => ?_
      settlements_settled := fun id hid => hextends.settled (hs.settlements_settled id hid)
      notified_ended := fun id hid => hextends.ended (hs.notified_ended id hid)
      sources := fun b hb o ho => hextends.source (hs.sources b (hl ▸ hb) o ho) }
  · obtain ⟨u, hu, hid⟩ := hs.owned r hr
    obtain ⟨u', hu', hstays⟩ := hextends u hu
    exact ⟨u', hu', hstays.id.trans hid⟩
  · obtain ⟨u, hu, ⟨-, rfl⟩ | ⟨-, rfl⟩⟩ := of_mem_update_streams hu'
    · exact hs.ended u hu
    · exact hs.ended u' hu
  · obtain ⟨u, hu, ⟨-, rfl⟩ | ⟨-, rfl⟩⟩ := of_mem_update_streams hu'
    · exact hs.settled u hu
    · exact hs.settled u' hu

/-- A new stream. -/
theorem extends_open (t : CaptureStream) : Extends s { s with streams := s.streams ++ [t] } :=
  fun u hu =>
    ⟨u, List.mem_append_left _ hu, rfl, rfl, rfl, fun _ ho => ⟨ho, rfl⟩, fun _ hx => hx⟩

theorem Inv.open (hs : Inv s) (hnew : ∀ u ∈ s.streams, u.id ≠ t.id)
    (hended : t.terminalOutputId = none) (hsettled : t.settledAt = none) :
    Inv { s with streams := s.streams ++ [t] } := by
  have hextends := extends_open (s := s) t
  refine
    { hs with
      streams := ?_
      owned := fun r hr => ?_
      ended := fun u hu => ?_
      settled := fun u hu => ?_
      settlements_settled := fun id hid => hextends.settled (hs.settlements_settled id hid)
      notified_ended := fun id hid => hextends.ended (hs.notified_ended id hid)
      sources := fun b hb o ho => hextends.source (hs.sources b hb o ho) }
  · rw [List.map_append, List.nodup_append]
    refine ⟨hs.streams, List.nodup_singleton _, ?_⟩
    rintro _ hid₁ _ hid₂ rfl
    obtain ⟨u, hu, hid⟩ := List.mem_map.mp hid₁
    exact hnew u hu (hid.trans (List.mem_singleton.mp hid₂))
  · obtain ⟨u, hu, hid⟩ := hs.owned r hr
    exact ⟨u, List.mem_append_left _ hu, hid⟩
  · rcases List.mem_append.mp hu with hold | hin
    · exact hs.ended u hold
    · obtain rfl := List.mem_singleton.mp hin
      rw [hended]
      -- A receipt would be of a stream that was open before.
      refine List.map_eq_nil_iff.mpr (List.filter_eq_nil_iff.mpr fun r hr hstream => ?_)
      obtain ⟨v, hv, hid⟩ := hs.owned r hr
      simp only [Bool.and_eq_true, decide_eq_true_eq] at hstream
      exact hnew v hv (hid.trans hstream.1)
  · rcases List.mem_append.mp hu with hold | hin
    · exact hs.settled u hold
    · obtain rfl := List.mem_singleton.mp hin
      exact fun h => absurd hsettled h

/-! ## Who was told -/

/-- **A stream stays covered** while the ledger grows. -/
theorem Covered.mono {l l' : CaptureLedger} {t t' : CaptureStream} (h : Covered l t)
    (hgrows : l.Grows l') (hid : t'.id = t.id) (hattempt : t'.attemptId = t.attemptId)
    (hwork : t'.workItemId = t.workItemId) : Covered l' t' := by
  obtain ⟨hsettled, a, ha, w, hw, hsome, htold⟩ := h
  obtain ⟨b₀, hb₀, hattempt₀, hgeneration₀, hopen₀⟩ := CaptureLedger.boundary?_ne_none.mp hsome
  obtain ⟨a', ha', haid⟩ := hgrows.attempts t.attemptId a ha
  obtain ⟨w', hw', hwid, hgeneration, htoldTo⟩ := hgrows.works t.workItemId w hw
  refine ⟨hid ▸ hgrows.settled hsettled, a', hattempt ▸ ha', w', hwork ▸ hw', CaptureLedger.boundary?_ne_none.mpr
    ⟨b₀, hgrows.boundaries hb₀, hattempt₀.trans haid.symm, hgeneration₀.trans hgeneration.symm,
      hopen₀⟩, fun b hb hbattempt hbgeneration hopen => ?_⟩
  rw [haid] at hbattempt
  rw [hgeneration] at hbgeneration
  rcases hgrows.opened b hb with hold | hnone
  · obtain ⟨m, hm, hwid', haid', hbid, r, hr, hmid, hrecipient, hunsettled⟩ :=
      htold b hold hbattempt hbgeneration hopen
    refine ⟨m, hgrows.messages hm, ?_, ?_, hbid, r, hgrows.deliveries hr, hmid, ?_, hunsettled⟩
    · rw [hwid]
      exact hwid'
    · rw [haid]
      exact haid'
    · rw [htoldTo]
      exact hrecipient
  · exact absurd (hgeneration₀.trans hbgeneration.symm)
      (hnone b₀ hb₀ hopen₀ (hattempt₀.trans hbattempt.symm))

/-- A stream that is passed over remains so. -/
theorem Shadowed.mono {t t' : CaptureStream} (h : s.Shadowed t) (hextends : Extends s s')
    (hid : t'.id = t.id) (hattempt : t'.attemptId = t.attemptId) : s'.Shadowed t' := by
  obtain ⟨u, hu, hruntime, huattempt, hmessage, hended, hlt⟩ := h
  obtain ⟨u', hu', hstays⟩ := hextends u hu
  obtain ⟨o, ho⟩ := Option.ne_none_iff_exists'.mp hended
  refine ⟨u', hu', ?_, ?_, ?_, ?_, ?_⟩
  · rw [hstays.id, hid]
    exact hruntime
  · rw [hstays.attempt, hattempt]
    exact huattempt
  · rw [hstays.id, hid]
    exact hmessage
  · rw [(hstays.ended o ho).1]
    exact Option.some_ne_none o
  · rw [hstays.id, hid]
    exact hlt

/-- A stream of before, after a step that loses none. -/
theorem stays_of_id (hs' : Inv s') (hextends : Extends s s') {t' : CaptureStream}
    (ht' : t' ∈ s'.streams) (ht : ∃ t ∈ s.streams, t.id = t'.id) :
    ∃ t ∈ s.streams, Stays s s' t t' := by
  obtain ⟨t, ht, hid⟩ := ht
  obtain ⟨u, hu, hstays⟩ := hextends t ht
  obtain rfl := hs'.stream_eq hu ht' (hstays.id.trans hid)
  exact ⟨t, ht, hstays⟩

/-- **Whoever was told of stays told of**, where those notified now are. -/
theorem Told.mono (h : s.Told) (hs : Inv s) (hs' : Inv s') (hextends : Extends s s')
    (hgrows : s.ledger.Grows s'.ledger)
    (hnew : ∀ t' ∈ s'.streams, t'.id ∈ s'.notified → t'.id ∉ s.notified →
      t'.settledAt ≠ none ∨ s'.Shadowed t' ∨ Covered s'.ledger t') : s'.Told := by
  intro t' ht' hn'
  by_cases hn : t'.id ∈ s.notified
  · obtain ⟨u, hu, huid, -⟩ := hs.notified_ended t'.id hn
    obtain ⟨t, ht, hstays⟩ := stays_of_id hs' hextends ht' ⟨u, hu, huid⟩
    rw [hstays.id] at hn
    rcases h t ht hn with hsettled | hshadowed | hcovered
    · obtain ⟨x, hx⟩ := Option.ne_none_iff_exists'.mp hsettled
      left
      rw [hstays.settled x hx]
      exact Option.some_ne_none x
    · exact .inr (.inl (hshadowed.mono hextends hstays.id hstays.attempt))
    · exact .inr (.inr (hcovered.mono hgrows hstays.id hstays.attempt hstays.work))
  · exact hnew t' ht' hn' hn

/-- Between transactions, where those notified now are settled or passed over. -/
theorem Quiet.mono (h : s.Quiet) (hs : Inv s) (hs' : Inv s') (hextends : Extends s s')
    (hnew : ∀ t' ∈ s'.streams, t'.id ∈ s'.notified → t'.id ∉ s.notified →
      t'.settledAt ≠ none ∨ s'.Shadowed t') : s'.Quiet := by
  intro t' ht' hn'
  by_cases hn : t'.id ∈ s.notified
  · obtain ⟨u, hu, huid, -⟩ := hs.notified_ended t'.id hn
    obtain ⟨t, ht, hstays⟩ := stays_of_id hs' hextends ht' ⟨u, hu, huid⟩
    rw [hstays.id] at hn
    rcases h t ht hn with hsettled | hshadowed
    · obtain ⟨x, hx⟩ := Option.ne_none_iff_exists'.mp hsettled
      left
      rw [hstays.settled x hx]
      exact Option.some_ne_none x
    · exact .inr (hshadowed.mono hextends hstays.id hstays.attempt)
  · exact hnew t' ht' hn' hn

/-! ## What the programs do -/

/-- A Boundary of a capture is the one recorded before, or a new open one. -/
theorem recordBoundary_spec (w : CaptureWork) (a : CaptureAttempt) (kind : BoundaryKind)
    (source : CaptureSource) :
    Ensures s (recordBoundary w a kind source) fun b s' =>
      (s' = s ∧ b ∈ s.ledger.boundaries ∧ b.source = source) ∨
        (s' = s.withLedger { s.ledger with boundaries := s.ledger.boundaries ++ [b] } ∧
          b.attemptId = a.id ∧ b.generation = w.generation ∧ b.isOpen = true ∧
          b.source = source ∧ b.id.work = w.id) := by
  unfold recordBoundary
  refine Ensures.get ?_
  split
  · rename_i b hb
    refine Ensures.require fun _ => .inl ⟨rfl, List.mem_of_find?_eq_some hb, ?_⟩
    have := List.find?_some hb
    simp only [Bool.and_eq_true, decide_eq_true_eq] at this
    exact this.2
  · refine Ensures.require fun _ => Ensures.require fun _ => Ensures.require fun _ => ?_
    exact Ensures.modify (.inr ⟨rfl, rfl, rfl, rfl, rfl, rfl⟩)

/-- **A notification is the one sent before, or a new one**, which tells of its
Boundary. -/
theorem sendNotice_spec (id : OutputStreamId) (w : CaptureWork) (a : CaptureAttempt)
    (key : CaptureMessageKey) (boundaryId : Option BoundaryId) (notice : WorkerOutputNotice) :
    Ensures s (sendNotice id w a key boundaryId notice) fun m s' => s' = s ∨
      ∃ l, s' = { s.withLedger l with notified := id :: s.notified } ∧ s.ledger.Grows l ∧
        l.boundaries = s.ledger.boundaries ∧ m ∈ l.messages ∧
        ∀ b : CaptureBoundary, boundaryId = some b.id → l.Tells w a b m := by
  unfold sendNotice
  refine Ensures.get (Ensures.require fun _ => Ensures.require fun _ => ?_)
  split
  · exact Ensures.require fun _ => .inl rfl
  · refine Ensures.require fun _ => Ensures.modify (.inr ⟨_, rfl, ?_, rfl, ?_, fun b hb => ?_⟩)
    · exact CaptureLedger.grows_send _ _
    · exact List.mem_append_right _ (List.mem_singleton_self _)
    · exact ⟨rfl, rfl, hb, _, List.mem_append_right _ (List.mem_singleton_self _), rfl, rfl, rfl⟩

/-- Publishing opens a Boundary only where none is open, and not one of an interrupted
capture. -/
theorem publishBoundary_spec (w : CaptureWork) (a : CaptureAttempt) (output : OutputReceipt)
    (pending : Prop) [Decidable pending] :
    Ensures s (publishBoundary w a output (s.ledger.boundary? w a) pending) fun b s' =>
      ∃ l, s' = s.withLedger l ∧ s.ledger.Grows l ∧
        (∀ b ∈ l.boundaries, b ∈ s.ledger.boundaries ∨ ∀ o, b.source ≠ .interrupted o) ∧
        (s.ledger.boundary? w a ≠ none → l = s.ledger ∧ b = s.ledger.boundary? w a) := by
  unfold publishBoundary
  split
  · rename_i b hb
    exact ⟨s.ledger, rfl, .refl _, fun _ h => .inl h, fun _ => ⟨rfl, hb.symm⟩⟩
  · rename_i hnone
    refine Ensures.ite (fun _ => Ensures.modify ?_) fun _ =>
      ⟨s.ledger, rfl, .refl _, fun _ h => .inl h, fun h => absurd hnone h⟩
    refine Ensures.bind (recordBoundary_spec w a _ _) fun b s' hs' => ?_
    have hhandOver := CaptureLedger.grows_handOver (l := s.ledger) w a .waitingSupervisor
    rcases hs' with ⟨rfl, -, -⟩ | ⟨rfl, hattempt, hgeneration, -, hsource, -⟩
    · exact ⟨_, rfl, hhandOver, fun _ h => .inl h, fun h => absurd hnone h⟩
    · refine ⟨_, rfl, hhandOver.trans (CaptureLedger.grows_open ?_), fun b' hb' => ?_,
        fun h => absurd hnone h⟩
      · intro b₀ hb₀ hopen hattempt₀ hgeneration₀
        refine CaptureLedger.boundary?_ne_none.mpr ⟨b₀, hb₀, ?_, ?_, hopen⟩ hnone
        · exact hattempt₀.trans hattempt
        · exact hgeneration₀.trans hgeneration
      · rcases List.mem_append.mp hb' with hold | hin
        · exact .inl hold
        · obtain rfl := List.mem_singleton.mp hin
          refine .inr fun o ho => ?_
          rw [hsource] at ho
          cases ho

/-- **Settlement creates a notification only where none tells of the Boundary.** -/
theorem notify_spec (t : CaptureStream) (w : CaptureWork) (a : CaptureAttempt)
    (output : OutputReceipt) (boundary : Option CaptureBoundary) (pending : Prop)
    [Decidable pending] :
    Ensures s (notify t w a output boundary pending) fun _ s' => s' = s ∨
      (boundary.bind (s.ledger.notification? w a) = none ∧
        ∃ l, s' = { s.withLedger l with notified := t.id :: s.notified } ∧ s.ledger.Grows l ∧
          l.boundaries = s.ledger.boundaries) := by
  unfold notify
  refine Ensures.get ?_
  split
  · exact .inl rfl
  · rename_i hnone
    refine (sendNotice_spec t.id w a _ _ _).mono fun m s' hs' => ?_
    rcases hs' with rfl | ⟨l, rfl, hgrows, hboundaries, -⟩
    · exact .inl rfl
    · exact .inr ⟨hnone, l, rfl, hgrows, hboundaries⟩

/-! ### Settlement -/

/-- The stream a settlement is about has ended, and no later generation has. -/
theorem of_latestEnded {runtimeId : RuntimeId} {attemptId : RowId} {messageId : MessageId}
    (h : t ∈ s.latestEnded? runtimeId attemptId messageId) :
    t ∈ s.streams ∧ t.id.runtimeId = runtimeId ∧ t.attemptId = attemptId ∧
      t.id.deliveryMessageId = messageId ∧ t.terminalOutputId ≠ none ∧ ¬ s.Shadowed t := by
  unfold latestEnded? at h
  split at h
  · have hmem := List.mem_filter.mp (List.maxOn?_mem (Option.mem_def.mp h))
    simp only [Bool.and_eq_true, decide_eq_true_eq, Option.isSome_iff_ne_none] at hmem
    obtain ⟨ht, ⟨⟨hruntime, hattempt⟩, hmessage⟩, hended⟩ := hmem
    refine ⟨ht, hruntime, hattempt, hmessage, hended, ?_⟩
    rintro ⟨u, hu, hruntime', hattempt', hmessage', hended', hlt⟩
    have hin : u ∈ s.streams.filter fun t => t.id.runtimeId = runtimeId && t.attemptId = attemptId &&
        t.id.deliveryMessageId = messageId && t.terminalOutputId.isSome := by
      refine List.mem_filter.mpr ⟨hu, ?_⟩
      simp only [Bool.and_eq_true, decide_eq_true_eq, Option.isSome_iff_ne_none]
      exact ⟨⟨⟨hruntime'.trans hruntime, hattempt'.trans hattempt⟩, hmessage'.trans hmessage⟩,
        hended'⟩
    have hle := List.le_apply_get_maxOn?_of_mem (f := fun t : CaptureStream =>
      t.id.deliveryGeneration) hin
    rw [Option.get_of_mem _ h] at hle
    exact absurd hlt (not_lt.mpr hle)
  · cases h

/-- A stream that has ended, on a runtime that has settled, is settled or passed over when
settlement finds its stream settled. -/
theorem exists_latestEnded (ht : t ∈ s.streams) (hended : t.terminalOutputId ≠ none)
    (hsettled : s.ledger.Settled t.id.runtimeId) :
    ∃ u ∈ s.latestEnded? t.id.runtimeId t.attemptId t.id.deliveryMessageId,
      t.id.deliveryGeneration ≤ u.id.deliveryGeneration := by
  unfold latestEnded?
  rw [if_pos hsettled]
  have hin : t ∈ s.streams.filter fun u => u.id.runtimeId = t.id.runtimeId &&
      u.attemptId = t.attemptId && u.id.deliveryMessageId = t.id.deliveryMessageId &&
        u.terminalOutputId.isSome := by
    refine List.mem_filter.mpr ⟨ht, ?_⟩
    simp only [decide_true, Bool.and_self, Bool.true_and, Option.isSome_iff_ne_none]
    exact hended
  have hle := List.le_apply_get_maxOn?_of_mem (f := fun t : CaptureStream =>
    t.id.deliveryGeneration) hin
  exact ⟨_, Option.get_mem _, hle⟩

/-- **What a settlement does**: nothing, or it settles the stream it is about, and then
tells of it only if it is not covered. -/
inductive Finalizes (s : CaptureStore) (runtimeId : RuntimeId) (attemptId : RowId)
    (messageId : MessageId) : CaptureStore → Prop where
  | idle (h : ∀ t ∈ s.latestEnded? runtimeId attemptId messageId,
      t.settledAt ≠ none ∨ ¬ Covered s.ledger t) : Finalizes s runtimeId attemptId messageId s
  | settles (t : CaptureStream) (ht : t ∈ s.latestEnded? runtimeId attemptId messageId)
      (hopen : t.settledAt = none) (l : CaptureLedger) (n : List OutputStreamId)
      (hgrows : s.ledger.Grows l)
      (hsources : ∀ b ∈ l.boundaries, b ∈ s.ledger.boundaries ∨ ∀ o, b.source ≠ .interrupted o)
      (hn : n = s.notified ∨ (n = t.id :: s.notified ∧ ¬ Covered s.ledger t))
      (link : Option (OutputId × Option WorkMessageId × Option BoundaryId)) :
      Finalizes s runtimeId attemptId messageId
        (match link with
        | some (o, m, b) => (({ s.withLedger l with notified := n } : CaptureStore).link o m b).settle t
        | none => ({ s.withLedger l with notified := n } : CaptureStore).settle t)

theorem finalizeCapture_spec (runtimeId : RuntimeId) (attemptId : RowId)
    (messageId : MessageId) : Ensures s (finalizeCapture runtimeId attemptId messageId)
      fun _ s' => Finalizes s runtimeId attemptId messageId s' := by
  unfold finalizeCapture
  refine Ensures.get ?_
  split
  · rename_i hnone
    refine .idle fun t ht => ?_
    rw [hnone] at ht
    cases ht
  · rename_i t ht
    have honly : ∀ u ∈ s.latestEnded? runtimeId attemptId messageId, u = t := by
      intro u hu
      rw [ht] at hu
      exact (Option.some.inj hu).symm
    have hattempt : t.attemptId = attemptId := (of_latestEnded ht).2.2.1
    refine Ensures.need fun output _ => Ensures.ite (fun hsettled => ?_) fun hopen => ?_
    · refine .idle fun u hu => .inl ?_
      rw [honly u hu]
      exact hsettled
    have hopen : t.settledAt = none := not_not.mp hopen
    refine Ensures.need fun w hw => Ensures.need fun a ha => Ensures.need fun r _ => ?_
    -- What covers the stream is about the Work and the Attempt that are read here.
    have hcovered : Covered s.ledger t → s.ledger.boundary? w a ≠ none ∧
        ∀ b ∈ s.ledger.boundaries, b.attemptId = a.id → b.generation = w.generation →
          b.isOpen = true → ∃ m ∈ s.ledger.messages, s.ledger.Tells w a b m := by
      rintro ⟨-, a', ha', w', hw', hcover⟩
      rw [hattempt, ha] at ha'
      rw [hw] at hw'
      obtain rfl := Option.some.inj ha'
      obtain rfl := Option.some.inj hw'
      exact hcover
    refine Ensures.ite (fun _ => ?_) fun _ => Ensures.ite (fun hfailed => ?_) fun _ => ?_
    · exact .settles t ht hopen s.ledger s.notified (.refl _) (fun _ h => .inl h) (.inl rfl) none
    · refine .idle fun u hu => .inr fun hcover => ?_
      rw [honly u hu] at hcover
      exact (hcovered hcover).1 hfailed.1
    · refine Ensures.bind (publishBoundary_spec w a output _) fun boundary s₁ h₁ => ?_
      obtain ⟨l, rfl, hgrows, hsources, hsame⟩ := h₁
      refine Ensures.bind (notify_spec t w a output boundary _) fun m s₂ h₂ => ?_
      refine Ensures.modify (Ensures.get (Ensures.need fun _ _ => ?_))
      rcases h₂ with rfl | ⟨hnone, l', rfl, hgrows', hboundaries⟩
      · exact .settles t ht hopen l s.notified hgrows hsources (.inl rfl)
          (some (output.id, some ⟨w.id, m.id⟩, boundary.map (·.id)))
      · refine .settles t ht hopen l' (t.id :: s.notified) (hgrows.trans hgrows') ?_
          (.inr ⟨rfl, fun hcover => ?_⟩)
          (some (output.id, some ⟨w.id, m.id⟩, boundary.map (·.id)))
        · rw [hboundaries]
          exact hsources
        · obtain ⟨hsome, htold⟩ := hcovered hcover
          obtain ⟨rfl, rfl⟩ := hsame hsome
          obtain ⟨b, hb⟩ := Option.ne_none_iff_exists'.mp hsome
          have hmem := List.mem_filter.mp (List.mem_of_getLast? hb)
          simp only [Bool.and_eq_true, decide_eq_true_eq] at hmem
          obtain ⟨m', hm', htells⟩ := htold b hmem.1 hmem.2.1.1 hmem.2.1.2 hmem.2.2
          rw [hb] at hnone
          have hempty := List.getLast?_eq_none_iff.mp hnone
          exact List.filter_eq_nil_iff.mp hempty m' hm' (decide_eq_true htells)

/-- **A settlement keeps the tables in order**, and whoever it notifies is settled. -/
theorem Finalizes.keeps {runtimeId : RuntimeId} {attemptId : RowId} {messageId : MessageId}
    (h : Finalizes s runtimeId attemptId messageId s') (hs : Inv s) (htold : s.Told) :
    Inv s' ∧ Extends s s' ∧ s.ledger.Grows s'.ledger ∧
      ∀ t' ∈ s'.streams, t'.id ∈ s'.notified → t'.id ∉ s.notified → t'.settledAt ≠ none := by
  cases h with
  | idle h => exact ⟨hs, .refl s, .refl _, fun t' _ hn hn' => absurd hn hn'⟩
  | settles t ht hopen l n hgrows hsources hn link =>
    obtain ⟨hmem, -, -, -, hended, hshadowed⟩ := of_latestEnded ht
    have hledger : Inv (s.withLedger l) := by
      refine hs.withLedger fun b hb o ho => ?_
      rcases hsources b hb with hold | hother
      · exact hs.sources b hold o ho
      · exact absurd ho (hother o)
    have hnotified : Inv { s.withLedger l with notified := n } := by
      rcases hn with rfl | ⟨rfl, huncovered⟩
      · exact hledger
      · refine hledger.notify hmem hended fun hin => ?_
        rcases htold t hmem hin with hsettled | hpassed | hcovered
        · exact hsettled hopen
        · exact hshadowed hpassed
        · exact huncovered hcovered
    have hsame : Extends s ({ s.withLedger l with notified := n } : CaptureStore) :=
      .of_eq rfl fun _ => rfl
    -- The streams are the same until the last statement.
    have hsettle : ∀ s₁ : CaptureStore, Inv s₁ → Extends s s₁ → s₁.streams = s.streams →
        s₁.ledger = l → s₁.notified = n → Inv (s₁.settle t) ∧ Extends s (s₁.settle t) ∧
          s.ledger.Grows (s₁.settle t).ledger ∧
            ∀ t' ∈ (s₁.settle t).streams, t'.id ∈ (s₁.settle t).notified → t'.id ∉ s.notified →
              t'.settledAt ≠ none := by
      intro s₁ hs₁ hextends hstreams hledger₁ hnotified₁
      have hmem₁ : t ∈ s₁.streams := hstreams ▸ hmem
      refine ⟨hs₁.settle hmem₁ hended hopen, hextends.trans (extends_settle hs₁ hmem₁ hopen),
        hledger₁ ▸ hgrows, fun t' ht' hin hnew => ?_⟩
      obtain ⟨u, hu, ⟨-, rfl⟩ | ⟨hother, rfl⟩⟩ := of_mem_update_streams ht'
      · exact Option.some_ne_none _
      · have hin : t'.id ∈ n := hnotified₁ ▸ hin
        rcases hn with rfl | ⟨rfl, -⟩
        · exact absurd hin hnew
        · rcases List.mem_cons.mp hin with heq | hold
          · exact absurd heq hother
          · exact absurd hold hnew
    cases link with
    | none => exact hsettle _ hnotified hsame rfl rfl rfl
    | some link =>
      obtain ⟨o, m, b⟩ := link
      exact hsettle _ (hnotified.link o m b) (hsame.trans (extends_link o m b)) rfl rfl rfl

/-- **A covered stream is settled by its settlement**, or was passed over before. -/
theorem Finalizes.settled (h : Finalizes s t.id.runtimeId t.attemptId t.id.deliveryMessageId s')
    (hs : Inv s) (ht : t ∈ s.streams) (hended : t.terminalOutputId ≠ none)
    (hcovered : Covered s.ledger t) (hshadowed : ¬ s.Shadowed t) :
    ∃ t' ∈ s'.streams, t'.id = t.id ∧ t'.settledAt ≠ none := by
  obtain ⟨u, hu, hle⟩ := exists_latestEnded ht hended hcovered.1
  obtain ⟨humem, hruntime, hattempt, hmessage, huended, -⟩ := of_latestEnded hu
  -- The stream that is looked at is the covered one.
  have hsame : u = t := by
    refine hs.stream_eq humem ht ?_
    have hgeneration : u.id.deliveryGeneration = t.id.deliveryGeneration := by
      refine le_antisymm (not_lt.mp fun hlt => hshadowed ?_) hle
      exact ⟨u, humem, hruntime, hattempt, hmessage, huended, hlt⟩
    rcases hid : u.id with ⟨runtime, message, generation⟩
    rcases hid' : t.id with ⟨runtime', message', generation'⟩
    simp_all
  subst hsame
  cases h with
  | idle h =>
    rcases h u hu with hsettled | huncovered
    · exact ⟨u, ht, rfl, hsettled⟩
    · exact absurd hcovered huncovered
  | settles v hv hopen l n hgrows hsources hn link =>
    obtain rfl : u = v := Option.some.inj (hu.symm.trans hv)
    have hmem : ∀ s₁ : CaptureStore, s₁.streams = s.streams →
        ∃ t' ∈ (s₁.settle u).streams, t'.id = u.id ∧ t'.settledAt ≠ none := by
      intro s₁ hstreams
      exact ⟨settledStream s₁.now u, Rows.mem_update_of (hstreams ▸ ht) (decide_eq_true rfl), rfl,
        Option.some_ne_none _⟩
    cases link with
    | none => exact hmem _ rfl
    | some link => exact hmem _ rfl

/-! ### Reconciliation -/

/-- What the reconciliation of one stream leaves. -/
def interruptedBy (s : CaptureStore) (t : CaptureStream) (row : OutputReceipt) (l : CaptureLedger)
    (n : List OutputStreamId) (m : Option WorkMessageId) (b : Option BoundaryId) : CaptureStore :=
  ({ (s.terminate t row).withLedger l with notified := n } : CaptureStore).link row.id m b

/-- A Boundary that was just opened for an abandoned stream is the only open one. -/
theorem covered_of_abandoned {l l' : CaptureLedger} {a : CaptureAttempt} {w : CaptureWork}
    {b : CaptureBoundary} {m : CaptureMessage} (hsettled : l.Settled t.id.runtimeId)
    (ha : a ∈ l.attempt? t.attemptId) (hw : w ∈ l.work? t.workItemId) (hgrows : l.Grows l')
    (hnone : l.anyBoundary? a = none) (hboundaries : l'.boundaries = l.boundaries ++ [b])
    (hattempt : b.attemptId = a.id) (hgeneration : b.generation = w.generation)
    (hopen : b.isOpen = true) (hm : m ∈ l'.messages) (htells : l'.Tells w a b m) :
    Covered l' t := by
  obtain ⟨a', ha', haid⟩ := hgrows.attempts t.attemptId a ha
  obtain ⟨w', hw', hwid, hwgeneration, htoldTo⟩ := hgrows.works t.workItemId w hw
  have hb : b ∈ l'.boundaries := by
    rw [hboundaries]
    exact List.mem_append_right _ (List.mem_singleton_self b)
  refine ⟨hgrows.settled hsettled, a', ha', w', hw', CaptureLedger.boundary?_ne_none.mpr
    ⟨b, hb, hattempt.trans haid.symm, hgeneration.trans hwgeneration.symm, hopen⟩,
    fun b' hb' hattempt' _ hopen' => ?_⟩
  rw [hboundaries] at hb'
  rcases List.mem_append.mp hb' with hold | hin
  · have hclosed := CaptureLedger.anyBoundary?_eq_none.mp hnone b' hold (hattempt'.trans haid)
    rw [hopen'] at hclosed
    cases hclosed
  · obtain rfl := List.mem_singleton.mp hin
    obtain ⟨hwork, hattempt₀, hbid, r, hr, hmid, hrecipient, hunsettled⟩ := htells
    refine ⟨m, hm, ?_, ?_, hbid, r, hr, hmid, ?_, hunsettled⟩
    · rw [hwid]
      exact hwork
    · rw [haid]
      exact hattempt₀
    · rw [htoldTo]
      exact hrecipient

/-- **What the reconciliation does to one stream**: it ends it, and tells of it only with
a Boundary that covers it. -/
theorem interruptStream_spec (hs : Inv s) (ht : t ∈ s.streams) (hopen : t.terminalOutputId = none)
    (hsettled : s.ledger.Settled t.id.runtimeId) :
    Ensures s (interruptStream t) fun _ s' => s' = s ∨ ∃ row l n m b,
      s' = s.interruptedBy t row l n m b ∧ row.streamId = t.id ∧ row.id = .terminal t.id ∧
        row.eventKind = .turnEnd ∧ row.eventDigest = .captureInterrupted t.id ∧
        s.ledger.Grows l ∧
        (∀ b ∈ l.boundaries, b ∈ s.ledger.boundaries ∨ b.source = .interrupted (.terminal t.id)) ∧
        (n = s.notified ∨ (n = t.id :: s.notified ∧ Covered l t)) := by
  unfold interruptStream
  refine Ensures.get ?_
  split
  · rename_i a w ha hw
    refine Ensures.require fun _ => Ensures.modify ?_
    refine Ensures.ite (fun habandoned => Ensures.modify ?_) fun _ => ?_
    · refine Ensures.bind (recordBoundary_spec w a _ _) fun b s₁ h₁ => ?_
      rcases h₁ with ⟨-, hold, hsource⟩ | ⟨rfl, hattempt, hgeneration, hbopen, hsource, -⟩
      · -- The source event is new, because the stream had not ended.
        obtain ⟨u, hu, hid, hended⟩ := hs.sources b hold _ hsource
        obtain rfl := hs.stream_eq hu ht (OutputId.terminal.inj hid).symm
        exact absurd hopen hended
      · have hrecorded : s.ledger.Grows
            { s.ledger.handOver w a .systemReconciliation with
              boundaries := s.ledger.boundaries ++ [b] } := by
          refine (CaptureLedger.grows_handOver w a .systemReconciliation).trans
            (CaptureLedger.grows_open fun b₀ hb₀ hopen₀ hattempt₀ => ?_)
          have hclosed := CaptureLedger.anyBoundary?_eq_none.mp habandoned.1 b₀ hb₀
            (hattempt₀.trans hattempt)
          rw [hopen₀] at hclosed
          cases hclosed
        have hsources : ∀ b' ∈ s.ledger.boundaries ++ [b], b' ∈ s.ledger.boundaries ∨
            b'.source = .interrupted (.terminal t.id) := by
          intro b' hb'
          rcases List.mem_append.mp hb' with hold | hin
          · exact .inl hold
          · obtain rfl := List.mem_singleton.mp hin
            exact .inr hsource
        refine Ensures.bind (sendNotice_spec t.id w a _ _ _) fun m s₂ h₂ => ?_
        rcases h₂ with rfl | ⟨l, rfl, hgrows, hboundaries, hm, htells⟩
        · exact .inr ⟨_, _, s.notified, _, _, rfl, rfl, rfl, rfl, rfl, hrecorded, hsources, .inl rfl⟩
        · refine .inr ⟨_, l, t.id :: s.notified, _, _, rfl, rfl, rfl, rfl, rfl,
            hrecorded.trans hgrows, ?_, .inr ⟨rfl, ?_⟩⟩
          · rw [hboundaries]
            exact hsources
          · exact covered_of_abandoned hsettled ha hw (hrecorded.trans hgrows) habandoned.1
              hboundaries hattempt hgeneration hbopen hm (htells b rfl)
    · exact .inr ⟨_, s.ledger, s.notified, _, _, rfl, rfl, rfl, rfl, rfl, .refl _,
        fun _ h => .inl h, .inl rfl⟩
  · exact .inl rfl

/-- What holds while the streams that had not ended are ended: those left to do are as
they were found. -/
structure Interrupting (s₀ : CaptureStore) (rest : List CaptureStream) (s : CaptureStore) :
    Prop where
  inv : Inv s
  told : s.Told
  extends_ : Extends s₀ s
  distinct : (rest.map (·.id)).Nodup
  left : ∀ u ∈ rest, u ∈ s.streams ∧ u.terminalOutputId = none ∧
    s.ledger.Settled u.id.runtimeId

theorem Interrupting.next {s₀ : CaptureStore} {rest : List CaptureStream}
    (h : Interrupting s₀ (t :: rest) s) :
    Ensures s (interruptStream t) fun _ s' => Interrupting s₀ rest s' := by
  obtain ⟨ht, hopen, hsettled⟩ := h.left t List.mem_cons_self
  obtain ⟨hnot, hdistinct⟩ := List.nodup_cons.mp h.distinct
  refine (interruptStream_spec h.inv ht hopen hsettled).mono fun _ s' hs' => ?_
  rcases hs' with rfl | ⟨row, l, n, m, b, rfl, hstream, hid, hkind, hdigest, hgrows, hsources, hn⟩
  · exact ⟨h.inv, h.told, h.extends_, hdistinct, fun u hu => h.left u (List.mem_cons_of_mem _ hu)⟩
  have hvalid : ∀ e, row.eventDigest = .event e → e.Valid := fun e he => by
    rw [hdigest] at he
    cases he
  have hterminated := h.inv.terminate ht hopen hstream hid hkind hvalid
  have hextends := extends_terminate h.inv ht hopen hstream
  have hmem : terminated row.id t ∈ (s.terminate t row).streams :=
    Rows.mem_update_of ht (decide_eq_true rfl)
  have hledger : Inv ((s.terminate t row).withLedger l) := by
    refine hterminated.withLedger fun b hb o ho => ?_
    rcases hsources b hb with hold | hnew
    · exact hextends.source (h.inv.sources b hold o ho)
    · refine ⟨_, hmem, ?_, Option.some_ne_none _⟩
      rw [hnew] at ho
      exact (CaptureSource.interrupted.inj ho).symm
  have hnotified : Inv { (s.terminate t row).withLedger l with notified := n } := by
    rcases hn with rfl | ⟨rfl, -⟩
    · exact hledger
    · refine Inv.notify (t := terminated row.id t) hledger hmem (Option.some_ne_none _)
        fun hin => ?_
      obtain ⟨u, hu, huid, hended⟩ := h.inv.notified_ended t.id hin
      obtain rfl := h.inv.stream_eq hu ht huid
      exact hended hopen
  have hinv : Inv (s.interruptedBy t row l n m b) := hnotified.link row.id m b
  have hcarried : Extends (s.terminate t row)
      { (s.terminate t row).withLedger l with notified := n } := .of_eq rfl fun _ => rfl
  have hkept : Extends s (s.interruptedBy t row l n m b) :=
    (hextends.trans hcarried).trans (extends_link row.id m b)
  refine ⟨hinv, ?_, h.extends_.trans hkept, hdistinct, fun u hu => ?_⟩
  · refine h.told.mono h.inv hinv hkept hgrows fun t' ht' hin hnew => ?_
    rcases hn with rfl | ⟨rfl, hcovered⟩
    · exact absurd hin hnew
    · rcases List.mem_cons.mp hin with heq | hold
      · obtain rfl := hinv.stream_eq ht' hmem heq
        exact .inr (.inr (hcovered.mono (.refl l) rfl rfl rfl))
      · exact absurd hold hnew
  · obtain ⟨humem, huopen, husettled⟩ := h.left u (List.mem_cons_of_mem _ hu)
    refine ⟨Rows.mem_update_of_not humem ?_, huopen, hgrows.settled husettled⟩
    have hne : u.id ≠ t.id := fun heq => hnot (List.mem_map.mpr ⟨u, hu, heq⟩)
    simpa using hne

/-- What holds while the ended streams are settled: whoever was told of is settled,
passed over, or still to be settled. -/
structure Settling (s₀ : CaptureStore) (rest : List CaptureStream) (s : CaptureStore) : Prop where
  inv : Inv s
  told : s.Told
  extends_ : Extends s₀ s
  due : ∀ t ∈ s.streams, t.id ∈ s.notified → t.settledAt ≠ none ∨ s.Shadowed t ∨
    ∃ u ∈ rest, u.id = t.id ∧ u.attemptId = t.attemptId

theorem Settling.next {s₀ : CaptureStore} {u : CaptureStream} {rest : List CaptureStream}
    (h : Settling s₀ (u :: rest) s) :
    Ensures s (finalizeCapture u.id.runtimeId u.attemptId u.id.deliveryMessageId)
      fun _ s' => Settling s₀ rest s' := by
  refine (finalizeCapture_spec _ _ _).mono fun _ s' hs' => ?_
  obtain ⟨hinv, hextends, hgrows, hnew⟩ := hs'.keeps h.inv h.told
  refine ⟨hinv, h.told.mono h.inv hinv hextends hgrows fun t' ht' hin hnot =>
    .inl (hnew t' ht' hin hnot), h.extends_.trans hextends, fun t' ht' hin => ?_⟩
  by_cases hnot : t'.id ∈ s.notified
  · obtain ⟨v, hv, hvid, -⟩ := h.inv.notified_ended t'.id hnot
    obtain ⟨t, ht, hstays⟩ := stays_of_id hinv hextends ht' ⟨v, hv, hvid⟩
    rw [hstays.id] at hnot
    by_cases hpassed : s.Shadowed t
    · exact .inr (.inl (hpassed.mono hextends hstays.id hstays.attempt))
    by_cases hopen : t.settledAt = none
    · rcases h.due t ht hnot with hsettled | hshadowed | ⟨r, hr, hid, hattempt⟩
      · exact absurd hopen hsettled
      · exact absurd hshadowed hpassed
      · rcases List.mem_cons.mp hr with rfl | hrest
        · -- It is the stream's turn, and it is covered.
          have hcovered : Covered s.ledger t := by
            rcases h.told t ht hnot with hsettled | hshadowed | hcovered
            · exact absurd hopen hsettled
            · exact absurd hshadowed hpassed
            · exact hcovered
          obtain ⟨v, hv, hvid, hended⟩ := h.inv.notified_ended t.id hnot
          obtain rfl := h.inv.stream_eq hv ht hvid
          rw [hid, hattempt] at hs'
          obtain ⟨x, hx, hxid, hsettled⟩ := hs'.settled h.inv ht hended hcovered hpassed
          obtain rfl := hinv.stream_eq hx ht' (hxid.trans hstays.id.symm)
          exact .inl hsettled
        · exact .inr (.inr ⟨r, hrest, hid.trans hstays.id.symm, hattempt.trans hstays.attempt.symm⟩)
    · obtain ⟨x, hx⟩ := Option.ne_none_iff_exists'.mp hopen
      left
      rw [hstays.settled x hx]
      exact Option.some_ne_none x
  · exact .inl (hnew t' ht' hin hnot)

/-- **The reconciliation keeps the tables in order.** -/
theorem reconcileAbandonedCaptures_spec
    {recover : RuntimeId → CaptureLedger → Except CaptureError CaptureLedger}
    (hrecover : ∀ id l l', recover id l = .ok l' → l.Foreign l') (hs : Inv s) (hquiet : s.Quiet) :
    Ensures s (reconcileAbandonedCaptures recover)
      fun _ s' => Inv s' ∧ s'.Quiet ∧ Extends s s' := by
  unfold reconcileAbandonedCaptures
  refine Ensures.get (Ensures.bind (P := fun _ s₁ => Inv s₁ ∧ s₁.Quiet ∧ Extends s s₁) ?_ ?_)
  · -- The recovery of the control plane changes the ledger only.
    refine wp_each (I := fun s₁ => Inv s₁ ∧ s₁.Quiet ∧ Extends s s₁) _ (fun id _ s₁ h₁ => ?_)
      ⟨hs, hquiet, .refl s⟩
    refine Ensures.get ?_
    split
    · rename_i l hl
      have hinv := h₁.1.foreign (hrecover id s₁.ledger l hl)
      have hsame := extends_withLedger (s := s₁) l
      refine ⟨hinv, h₁.2.1.mono h₁.1 hinv hsame fun t' _ hin hnew => ?_, h₁.2.2.trans hsame⟩
      exact absurd hin hnew
    · exact ensures_throw _
  rintro - s₁ ⟨hinv₁, hquiet₁, hextends₁⟩
  refine Ensures.get (Ensures.bind (P := fun _ s₂ => Interrupting s [] s₂) ?_ ?_)
  · refine wp_each_rest (I := Interrupting s) _ (fun t rest s₂ h₂ => h₂.next) ?_
    refine ⟨hinv₁, hquiet₁.told, hextends₁,
      hinv₁.streams.sublist (List.filter_sublist.map CaptureStream.id), fun u hu => ?_⟩
    obtain ⟨hmem, hpending⟩ := List.mem_filter.mp hu
    simpa [hmem] using hpending
  rintro - s₂ ⟨hinv₂, htold₂, hextends₂, -, -⟩
  refine Ensures.get (Ensures.mono (Q := fun _ s₃ => Settling s [] s₃) ?_ fun _ s₃ h₃ => ?_)
  · refine wp_each_rest (I := Settling s) _ (fun t rest s₃ h₃ => ?_) ?_
    · exact Ensures.bind h₃.next fun _ _ h₄ => h₄
    refine ⟨hinv₂, htold₂, hextends₂, fun t ht hin => ?_⟩
    by_cases hopen : t.settledAt = none
    · rcases htold₂ t ht hin with hsettled | hshadowed | hcovered
      · exact .inl hsettled
      · exact .inr (.inl hshadowed)
      · -- It has ended, on a runtime that has settled.
        obtain ⟨u, hu, huid, hended⟩ := hinv₂.notified_ended t.id hin
        obtain rfl := hinv₂.stream_eq hu ht huid
        refine .inr (.inr ⟨u, List.mem_filter.mpr ⟨ht, ?_⟩, rfl, rfl⟩)
        simp [Option.isSome_iff_ne_none, hended, hopen, hcovered.1]
    · exact .inl hopen
  · refine ⟨h₃.inv, fun t ht hin => ?_, h₃.extends_⟩
    rcases h₃.due t ht hin with hsettled | hshadowed | ⟨u, hu, -⟩
    · exact .inl hsettled
    · exact .inr hshadowed
    · cases hu

/-! ### Observation -/

/-- **An observation keeps the tables in order**, and notifies nobody. -/
theorem observeOutput_spec (secrets : SecretScan) (staged : Bool) (d : OutputDispatch)
    (e : WorkerOutputEvent) (hs : Inv s) : Ensures s (observeOutput secrets staged d e)
      fun _ s' => Inv s' ∧ Extends s s' ∧ s'.notified = s.notified := by
  unfold observeOutput
  refine Ensures.require fun hvalid => Ensures.get (Ensures.need fun t ht =>
    Ensures.require fun _ => ?_)
  have hmem : t ∈ s.streams := List.mem_of_find?_eq_some ht
  split
  · exact Ensures.require fun _ => ⟨hs, .refl s, rfl⟩
  rename_i hnone
  refine Ensures.require fun hopen => Ensures.need fun a _ => Ensures.need fun w _ =>
    Ensures.require fun _ => Ensures.require fun _ => Ensures.require fun _ =>
    Ensures.ask fun content _ => Ensures.modify ?_
  have hfresh : ∀ r ∈ s.receipts, r.id ≠ t.outputId e := by
    intro r hr hid
    have hpassed := List.find?_eq_none.mp hnone r hr
    exact hpassed (decide_eq_true hid)
  -- The stream as it is after the provider has named its thread and its turn.
  have hboundaries : (s.ledger.keepThread d.runtimeId e).boundaries = s.ledger.boundaries := by
    unfold CaptureLedger.keepThread
    split <;> rfl
  have hinv₁ := hs.correlated t.id e hboundaries
  have hextends₁ := extends_correlated (s := s) t.id e (s.ledger.keepThread d.runtimeId e)
  have hmem₁ : correlated e t ∈ Rows.update (fun u => u.id = t.id) (correlated e) s.streams :=
    Rows.mem_update_of hmem (decide_eq_true rfl)
  have hdigest : ∀ e', (t.receipt e content).eventDigest = .event e' → e'.Valid := by
    intro e' he'
    obtain rfl := OutputEventDigest.event.inj he'
    exact hvalid
  have hreceipt : (t.receipt e content).streamId = (correlated e t).id := rfl
  refine Ensures.ite (fun hkind => Ensures.modify ?_) fun hkind => Ensures.modify ?_
  · have hid : t.outputId e = .terminal t.id := by
      unfold CaptureStream.outputId
      rw [hkind]
    have hinv₂ := hinv₁.terminate hmem₁ hopen hreceipt hid hkind hdigest
    have hextends₂ := hextends₁.trans (extends_terminate hinv₁ hmem₁ hopen hreceipt)
    refine Ensures.bind (P := fun _ s' => Inv s' ∧ Extends s s' ∧ s'.notified = s.notified) ?_
      fun _ _ h => h
    refine Ensures.ite (fun _ => ?_) fun _ => ⟨hinv₂, hextends₂, rfl⟩
    refine ⟨hinv₂.withLedger fun b hb => hinv₂.sources b hb,
      hextends₂.trans (extends_withLedger _), rfl⟩
  · have hmessage : e.kind = .message := by
      cases h : e.kind with
      | message => rfl
      | turnEnd => exact absurd h hkind
    have hid : t.outputId e = .message t.id e.itemId := by
      unfold CaptureStream.outputId
      rw [hmessage]
    refine ⟨hinv₁.insertReceipt hmem₁ hfresh hreceipt hmessage ⟨e.itemId, hid⟩ hdigest,
      hextends₁.trans (extends_insertReceipt hinv₁ hmem₁ hopen hreceipt), rfl⟩

/-! ## Runs -/

section Runs

variable {secrets : SecretScan}

/-- What holds between two steps. -/
structure Sound (s : CaptureStore) : Prop where
  inv : Inv s
  quiet : s.Quiet

/-- **One step** keeps the tables in order, and no stream loses what it has reached. -/
theorem Sound.step (h : s.Sound) {e : Event} (hstep : (system secrets).step s e s') :
    s'.Sound ∧ Extends s s' := by
  obtain ⟨hseparate, rfl⟩ := hstep
  have hcommit : ∀ {α : Type} {m : CaptureTx α},
      Ensures s m (fun _ s' => Inv s' ∧ s'.Quiet ∧ Extends s s') →
        (Tx.commit m s).Sound ∧ Extends s (Tx.commit m s) := by
    intro α m hm
    have hsame : Inv s ∧ s.Quiet ∧ Extends s s := ⟨h.inv, h.quiet, .refl s⟩
    obtain ⟨hinv, hquiet, hextends⟩ :=
      commit_of_wp (I := fun s' => Inv s' ∧ s'.Quiet ∧ Extends s s') hsame hm
    exact ⟨⟨hinv, hquiet⟩, hextends⟩
  cases e with
  | tick seconds =>
    have hsame : Extends s { s with now := s.now + seconds } := .of_eq rfl fun _ => rfl
    exact ⟨⟨{ h.inv with }, h.quiet⟩, hsame⟩
  | foreign l =>
    have hinv := h.inv.foreign hseparate
    have hsame := extends_withLedger (s := s) l
    exact ⟨⟨hinv, h.quiet.mono h.inv hinv hsame fun _ _ hin hnew => absurd hin hnew⟩, hsame⟩
  | begin d =>
    refine hcommit (Ensures.get (Ensures.need fun w _ => Ensures.require fun _ => ?_))
    split
    · exact Ensures.require fun _ => ⟨h.inv, h.quiet, .refl s⟩
    · rename_i hnone
      refine Ensures.require fun _ => ?_
      have hnew : ∀ u ∈ s.streams, u.id ≠ d.streamId := fun u hu hid =>
        List.find?_eq_none.mp hnone u hu (decide_eq_true hid)
      have hinv := h.inv.open (t := ⟨d.streamId, w.id, d.attemptId, d.enrollmentGeneration,
        w.generation, d.ownerToken, "", "", none, none⟩) hnew rfl rfl
      exact ⟨hinv, h.quiet.mono h.inv hinv (extends_open _) fun _ _ hin hnew => absurd hin hnew,
        extends_open _⟩
  | observe staged d e =>
    refine hcommit ((observeOutput_spec secrets staged d e h.inv).mono fun _ s' hs' => ?_)
    obtain ⟨hinv, hextends, hnotified⟩ := hs'
    refine ⟨hinv, h.quiet.mono h.inv hinv hextends fun _ _ hin hnew => ?_, hextends⟩
    rw [hnotified] at hin
    exact absurd hin hnew
  | finalize runtimeId attemptId messageId =>
    refine hcommit ((finalizeCapture_spec runtimeId attemptId messageId).mono fun _ s' hs' => ?_)
    obtain ⟨hinv, hextends, -, hnew⟩ := hs'.keeps h.inv h.quiet.told
    exact ⟨hinv, h.quiet.mono h.inv hinv hextends fun t' ht' hin hnot => .inl (hnew t' ht' hin hnot),
      hextends⟩
  | reconcile recover =>
    exact hcommit (reconcileAbandonedCaptures_spec hseparate h.inv h.quiet)

/-- **In every reachable state the tables are in order.** -/
theorem sound_of_reachable (hs : (system secrets).Reachable s) : s.Sound :=
  TransitionSystem.Reachable.invariant (T := system secrets) (I := Sound)
    (fun _ hinit => ⟨.of_initial hinit, quiet_of_initial hinit⟩)
    (fun _ _ _ _ h hstep => (h.step hstep).1) hs

/-- **An event that was stored is answered with its receipt**, and nothing is written. -/
theorem observeOutput_of_stored (hs : Inv s) {staged : Bool} {d : OutputDispatch}
    {e : WorkerOutputEvent} {row : OutputReceipt} (ht : s.streamOf? d = some t)
    (howner : t.ownerToken = d.ownerToken) (hrow : row ∈ s.receipts)
    (hid : row.id = t.outputId e) (hsame : row.eventDigest = .event e) :
    observeOutput secrets staged d e s = .ok (row, s) := by
  have hvalid : e.Valid := hs.valid row hrow e hsame
  have hfound : s.receipt? (t.outputId e) = some row := by
    rw [← hid]
    exact Rows.find?_key hs.receipts hrow
  refine run_of_wp ?_
  unfold observeOutput
  simp only [wp_bind, wp_require, wp_get, wp_need]
  refine ⟨fun _ => ⟨fun u hu => ⟨fun _ => ?_, fun h => ?_⟩, fun h => ?_⟩, fun h => h hvalid⟩
  · obtain rfl : t = u := Option.some.inj (ht.symm.trans hu)
    rw [hfound]
    simp [hsame]
  · obtain rfl : t = u := Option.some.inj (ht.symm.trans hu)
    exact h howner
  · rw [ht] at h
    cases h

/-- **An event under an identity that was used for another is refused.** -/
theorem observeOutput_of_reused (hs : Inv s) {staged : Bool} {d : OutputDispatch}
    {e : WorkerOutputEvent} {row : OutputReceipt} (ht : s.streamOf? d = some t)
    (hrow : row ∈ s.receipts) (hid : row.id = t.outputId e) (hother : row.eventDigest ≠ .event e) :
    ∃ err, observeOutput secrets staged d e s = .error err := by
  have hfound : s.receipt? (t.outputId e) = some row := by
    rw [← hid]
    exact Rows.find?_key hs.receipts hrow
  refine fails_of_wp (E := fun _ => True) ?_
  show Ensures s (observeOutput secrets staged d e) fun _ _ => False
  refine Ensures.require fun _ => Ensures.get (Ensures.need fun u hu => Ensures.require fun _ => ?_)
  obtain rfl : t = u := Option.some.inj (ht.symm.trans hu)
  rw [hfound]
  exact Ensures.require fun h => absurd h hother

/-- No text is a secret. -/
def plain : SecretScan := ⟨fun _ => false, fun _ => .ok false⟩

/-- A dispatch through runtime 3. -/
def sampleDispatch : OutputDispatch := ⟨3, ⟨0, 0⟩, 1, 1, 1, "dispatcher"⟩

/-- The end of its turn, with a text. -/
def sampleEnd : WorkerOutputEvent := ⟨"thread", "turn", "", .turnEnd, [100], .final, .completed, true⟩

/-- Work 0, whose Worker was sent message 1 through runtime 3. -/
def sampleCaptures : CaptureStore :=
  { now := 0
    ledger :=
      { works := [⟨0, some 7, 7, .active, .worker, 1, 1, false⟩]
        attempts := [⟨⟨0, 0⟩, 8, some 3, .working, 1, "packet"⟩]
        runtimes := [⟨3, .waiting, "", []⟩]
        enrollments := [⟨3, true, 1, .ready⟩]
        tickets := [⟨3, ⟨0, 0⟩, 1, .pending⟩]
        boundaries := []
        messages := [⟨1, 7, 8, some 0, some ⟨0, 0⟩, 1, "packet", .other, none, none⟩]
        deliveries := [⟨1, 8, none, .dispatched, 1, 1, 0, some 3, some 10, "dispatcher", "", .retryable⟩]
        enabledPrincipals := [7, 8] }
    streams := []
    receipts := []
    settlements := []
    notified := [] }

/-- The stream of the dispatch was opened, and its end was observed. -/
def captured : CaptureStore :=
  (sampleCaptures.step plain (.begin sampleDispatch)).step plain
    (.observe true sampleDispatch sampleEnd)

/-- **The discipline of the captures.** In every reachable state a stream has at most
one end, and names it. From there on, in every run, the end of a stream stays and no
receipt joins a stream that has ended; a settlement stays. An event that was stored is
answered with its receipt and no row is added; another event under its identity is
refused, and nothing changes. No settlement was written twice, and no stream was notified
of twice. -/
theorem capture_discipline (hs : (system secrets).Reachable s) :
    (∀ t ∈ s.streams, s.turnEnds t.id = t.terminalOutputId.toList) ∧
    (∀ s', (system secrets).Runs s s' → ∀ t ∈ s.streams, ∃ t' ∈ s'.streams, t'.id = t.id ∧
      (∀ o, t.terminalOutputId = some o →
        t'.terminalOutputId = some o ∧ s'.outputs t.id = s.outputs t.id) ∧
      ∀ x, t.settledAt = some x → t'.settledAt = some x) ∧
    (∀ staged d e t, s.streamOf? d = some t → ∀ row ∈ s.receipts, row.id = t.outputId e →
      (t.ownerToken = d.ownerToken → row.eventDigest = .event e →
        observeOutput secrets staged d e s = .ok (row, s)) ∧
      (row.eventDigest ≠ .event e →
        (∃ err, observeOutput secrets staged d e s = .error err) ∧
          s.step secrets (.observe staged d e) = s)) ∧
    s.settlements.Nodup ∧ s.notified.Nodup := by
  have hinv := (sound_of_reachable hs).inv
  refine ⟨hinv.ended, fun s' hruns t ht => ?_, fun staged d e t ht row hrow hid => ⟨?_, ?_⟩,
    hinv.settlements, hinv.notified⟩
  · have hextends : Extends s s' :=
      TransitionSystem.Runs.lift (T := system secrets) (R := Extends) Extends.refl Extends.trans
        (fun _ _ _ hreach hstep => ((sound_of_reachable hreach).step hstep).2) hs hruns
    obtain ⟨t', ht', hstays⟩ := hextends t ht
    exact ⟨t', ht', hstays.id, hstays.ended, hstays.settled⟩
  · exact fun howner hsame => observeOutput_of_stored hinv ht howner hrow hid hsame
  · intro hother
    obtain ⟨err, herr⟩ := observeOutput_of_reused hinv ht hrow hid hother
    refine ⟨⟨err, herr⟩, ?_⟩
    show Tx.commit (observeOutput secrets staged d e) s = s
    unfold Tx.commit
    rw [herr]

theorem reachable_captured : (system plain).Reachable captured := by
  have hinit : (system plain).Reachable sampleCaptures :=
    .of_init ⟨rfl, rfl, rfl, rfl, fun _ hb => by cases hb⟩
  have hbegun : (system plain).Reachable (sampleCaptures.step plain (.begin sampleDispatch)) :=
    hinit.next (e := Event.begin sampleDispatch) ⟨trivial, rfl⟩
  exact hbegun.next (e := Event.observe true sampleDispatch sampleEnd) ⟨trivial, rfl⟩

/-- The end that was observed is the one end of its stream, and is not stored again. -/
theorem capture_discipline_captured :
    captured.turnEnds ⟨3, 1, 1⟩ = [.terminal ⟨3, 1, 1⟩] ∧
      ∃ row, observeOutput plain true sampleDispatch sampleEnd captured = .ok (row, captured) := by
  obtain ⟨hends, -, hstored, -⟩ := capture_discipline reachable_captured
  obtain ⟨t, ht, hfound, howner, hid, hended, row, hrow, hrowid, hsame⟩ :
      ∃ t ∈ captured.streams, captured.streamOf? sampleDispatch = some t ∧
        t.ownerToken = sampleDispatch.ownerToken ∧ t.id = ⟨3, 1, 1⟩ ∧
        t.terminalOutputId = some (.terminal ⟨3, 1, 1⟩) ∧ ∃ row ∈ captured.receipts,
          row.id = t.outputId sampleEnd ∧ row.eventDigest = .event sampleEnd := by decide
  have hone := hends t ht
  rw [hid, hended] at hone
  exact ⟨hone, row, (hstored true sampleDispatch sampleEnd t hfound row hrow hrowid).1 howner hsame⟩

end Runs

end CaptureStore
