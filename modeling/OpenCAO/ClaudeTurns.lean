import OpenCAO.ClaudeOutput

/-!
# The events of a turn

Whatever the process of a turn writes, and whether or not the callback returns, the events are
messages with different items and then at most one end (`turn_discipline`). What carries this is
an invariant of the sink while the turn is open (`Sink.Open`): it is kept by `message`, which may
add an event (`open_message`), and `finish` adds the end (`finish_spec`). A line of the output does
one of these, or changes the sink in a way that the invariant does not see.

All that the callback gets is what `observe_output` takes for the envelope of an event
(`Event.Envelope`), but for the length of the names.
-/

namespace ClaudeOutput

open PyJson (Value)
open DesktopSocket (Items Loaded maxMessageBytes)

variable {host : Host} {s : Sink} {p : Parser} {itemId text : Text} {phase : OutputPhase}
  {status : TurnStatus} {complete : Bool}

/-! ## Pieces -/

/-- **A text that is cut fits**: it is a part of the text from its beginning, and the marker. -/
theorem boundedText_spec {limit : ℕ} {encoded : List UInt8} (h : Utf8.encode text = some encoded)
    (hlimit : marker.length ≤ limit) : ∃ bytes,
      Utf8.encode (boundedText limit text encoded) = some bytes ∧ bytes.length ≤ limit := by
  unfold boundedText
  split_ifs with hle
  · exact ⟨encoded, h, hle⟩
  · unfold Utf8.encode at h
    split_ifs at h with hall
    obtain rfl := Option.some.inj h
    have hmarker : Utf8.encode marker = some (marker.map UInt8.ofNat) ∧
        (marker.map UInt8.ofNat).length = marker.length := by decide +kernel
    obtain ⟨front, hfront, htake⟩ := Utf8.take_of_decodes hall
      (Utf8.decodes_cut (text.flatMap Utf8.encodeChar) (limit - marker.length))
    have hscalar : front.all Utf8.isScalar = true :=
      List.all_eq_true.mpr fun c hc => List.all_eq_true.mp hall c (hfront.subset hc)
    have hread : Utf8.decode (front.flatMap Utf8.encodeChar) = some front :=
      Utf8.decode_of_encode (if_pos hscalar)
    have hlength : (front.flatMap Utf8.encodeChar).length ≤ limit - marker.length := by
      rw [← htake, List.length_take]
      exact (Nat.min_le_left _ _).trans (Utf8.cut_le _ _)
    rw [htake, hread, Option.getD_some]
    refine ⟨(front ++ marker).flatMap Utf8.encodeChar, if_pos ?_, ?_⟩
    · have hplain : marker.all Utf8.isScalar = true := by decide +kernel
      rw [List.all_append, hscalar, hplain, Bool.and_self]
    · have hplain : (marker.flatMap Utf8.encodeChar).length = marker.length := by decide +kernel
      rw [List.flatMap_append, List.length_append, hplain]
      omega

/-! ## The sink of an open turn -/

/-- The text of an event fits. -/
def Event.Fits (limit : ℕ) (e : Event) : Prop :=
  marker.length ≤ limit → ∃ bytes, Utf8.encode e.text = some bytes ∧ bytes.length ≤ limit

/-- **What `observe_output` takes for the envelope of an event.** -/
structure Event.Envelope (e : Event) : Prop where
  message : e.kind = .message → e.itemId ≠ [] ∧ e.status = .running
  turnEnd : e.kind = .turnEnd → e.status ≠ .running
  bound : e.kind = .turnEnd ∧ (e.status = .failed ∨ e.status = .interrupted) ∧
    e.complete = false ∨ e.nativeThreadId ≠ [] ∧ e.turnId ≠ []

/-- **A message of a turn**, of a thread that has a name. -/
structure Event.Message (limit : ℕ) (thread turn : Text) (e : Event) : Prop where
  kind : e.kind = .message
  status : e.status = .running
  item : e.itemId ≠ []
  thread : e.nativeThreadId = thread ∧ thread ≠ []
  turn : e.turnId = turn ∧ turn ≠ []
  fits : e.Fits limit

/-- **A turn that is open**: it has messages only, of items that are known. -/
structure Sink.Open (host : Host) (s : Sink) : Prop where
  running : s.terminal = false
  messages : ∀ e ∈ s.delivered, e.Message host.limit s.nativeThreadId s.turnId
  items : (s.delivered.map Event.itemId).Sublist (s.itemDigests.map Prod.fst)
  nodup : (s.itemDigests.map Prod.fst).Nodup
  count : s.itemDigests.length ≤ 4096
  complete : s.complete = true → ∀ e ∈ s.delivered, e.complete = true

namespace Sink

theorem Open.spoil (h : s.Open host) : Open host { s with complete := false } :=
  { h with complete := by simp }

theorem Open.discard (h : s.Open host) (items : List Text) :
    Open host { s with pendingItems := items } :=
  { h with }

/-- A thread is named once. -/
theorem Open.named (h : s.Open host) {thread : Text}
    (hthread : s.nativeThreadId ≠ [] → thread = s.nativeThreadId) :
    Open host { s with nativeThreadId := thread } where
  running := h.running
  messages := fun e he => by
    have hmessage := h.messages e he
    obtain ⟨hsame, hne⟩ := hmessage.thread
    exact { hmessage with thread := hthread hne ▸ ⟨hsame, hne⟩ }
  items := h.items
  nodup := h.nodup
  count := h.count
  complete := h.complete

/-- A turn that has no messages yet may be named. -/
theorem Open.turned (h : s.Open host) {turn : Text} (hturn : s.turnId ≠ [] → turn = s.turnId) :
    Open host { s with turnId := turn } where
  running := h.running
  messages := fun e he => by
    have hmessage := h.messages e he
    obtain ⟨hsame, hne⟩ := hmessage.turn
    exact { hmessage with turn := hturn hne ▸ ⟨hsame, hne⟩ }
  items := h.items
  nodup := h.nodup
  count := h.count
  complete := h.complete

/-- **`message` keeps a turn open**, and its thread, its turn and its status as they are. -/
theorem open_message (h : s.Open host) (itemId text : Text) (phase : OutputPhase)
    (complete : Bool) : let t := (s.message host itemId text phase complete).1
      t.Open host ∧ t.nativeThreadId = s.nativeThreadId ∧ t.turnId = s.turnId ∧
        t.status = s.status := by
  unfold message
  split_ifs with hskip
  · exact ⟨h, rfl, rfl, rfl⟩
  push Not at hskip
  obtain ⟨-, hthread, hturn, hitem⟩ := hskip
  have hdiscard := h.discard (s.pendingItems.filter (· ≠ itemId))
  split
  · next document encoded _ hencode =>
    dsimp only
    split
    · split_ifs
      · exact ⟨hdiscard.spoil, rfl, rfl, rfl⟩
      · exact ⟨hdiscard, rfl, rfl, rfl⟩
    · next hnew =>
      split_ifs with hcount
      · exact ⟨hdiscard.spoil, rfl, rfl, rfl⟩
      have hfresh : itemId ∉ s.itemDigests.map Prod.fst := by
        rw [List.lookup_eq_none_iff] at hnew
        intro hmem
        obtain ⟨entry, hentry, rfl⟩ := List.mem_map.mp hmem
        simpa using hnew entry hentry
      have hnodup : ((s.itemDigests ++ [(itemId, host.sha256 document)]).map Prod.fst).Nodup := by
        rw [List.map_append]
        exact h.nodup.append (List.nodup_singleton itemId) (List.disjoint_singleton.mpr hfresh)
      have hlength : (s.itemDigests ++ [(itemId, host.sha256 document)]).length ≤ 4096 := by
        rw [List.length_append]
        exact not_le.mp hcount
      unfold call
      split_ifs with hcall
      · refine ⟨⟨h.running, ?_, ?_, hnodup, hlength, ?_⟩, rfl, rfl, rfl⟩
        · intro e he
          rcases List.mem_append.mp he with he | he
          · exact h.messages e he
          · obtain rfl := List.mem_singleton.mp he
            exact ⟨rfl, rfl, hitem, ⟨rfl, hthread⟩, ⟨rfl, hturn⟩, boundedText_spec hencode⟩
        · rw [List.map_append, List.map_append]
          exact h.items.append (List.Sublist.refl [itemId])
        · intro hcomplete e he
          obtain ⟨hbefore, hitem⟩ := Bool.and_eq_true_iff.mp hcomplete
          rcases List.mem_append.mp he with he | he
          · exact h.complete hbefore e he
          · obtain rfl := List.mem_singleton.mp he
            exact hitem
      · refine ⟨⟨h.running, h.messages, ?_, hnodup, hlength, ?_⟩, rfl, rfl, rfl⟩
        · rw [List.map_append]
          exact h.items.trans (List.sublist_append_left _ _)
        · exact fun hcomplete => h.complete (Bool.and_eq_true_iff.mp hcomplete).1
  · exact ⟨hdiscard, rfl, rfl, rfl⟩

/-- **The end of a turn**: of its thread, with its status, and complete only if its messages
are. -/
structure Ends (host : Host) (s : Sink) (messages : List Event) (e : Event) : Prop where
  kind : e.kind = .turnEnd
  status : e.status = s.status
  thread : e.nativeThreadId = s.nativeThreadId
  turn : e.turnId = s.turnId
  envelope : e.Envelope
  fits : e.Fits host.limit
  complete : e.complete = true → ∀ m ∈ messages, m.complete = true

/-- **A turn that has ended.** -/
structure Closed (host : Host) (s : Sink) : Prop where
  terminal : s.terminal = true
  told : ∃ t e, Open host t ∧ t.nativeThreadId = s.nativeThreadId ∧ t.turnId = s.turnId ∧
    s.delivered = t.delivered ++ [e] ∧ s.Ends host t.delivered e

theorem Closed.spoil (h : s.Closed host) : Closed host { s with complete := false } := by
  obtain ⟨hterminal, t, e, ht, hthread, hturn, hdelivered, hends⟩ := h
  exact ⟨hterminal, t, e, ht, hthread, hturn, hdelivered, { hends with }⟩

/-- **`finish` ends a turn**, unless it fails. -/
theorem finish_spec (h : s.Open host) (hstatus : status ≠ .running) (itemId text : Text)
    (hbound : complete = false ∧ status ≠ .completed ∨ s.nativeThreadId ≠ [] ∧ s.turnId ≠ []) :
    let t := (s.finish host status itemId text complete).1
    t.nativeThreadId = s.nativeThreadId ∧ t.turnId = s.turnId ∧ t.status = status ∧
      (t.Closed host ∨
        t.Open host ∧ (s.finish host status itemId text complete).2.isSome = true) := by
  unfold finish
  rw [h.running, if_neg Bool.false_ne_true]
  dsimp only
  cases hencode : Utf8.encode text with
  | none =>
    refine ⟨rfl, rfl, rfl, Or.inr ⟨?_, rfl⟩⟩
    refine ⟨rfl, h.messages, h.items, h.nodup, h.count, fun hcomplete => h.complete ?_⟩
    simp only [Bool.and_eq_true] at hcomplete
    exact hcomplete.1.1
  | some encoded =>
    dsimp only
    unfold call
    split_ifs with hcall
    · refine ⟨rfl, rfl, rfl, Or.inl ⟨rfl, s, _, h, rfl, rfl, rfl, ?_⟩⟩
      refine ⟨rfl, rfl, rfl, rfl, ⟨nofun, fun _ => hstatus, ?_⟩, boundedText_spec hencode, ?_⟩
      · refine hbound.imp (fun ⟨hcomplete, hne⟩ => ⟨rfl, ?_, ?_⟩) id
        · cases status with
          | running => exact absurd rfl hstatus
          | completed => exact absurd rfl hne
          | failed => exact Or.inl rfl
          | interrupted => exact Or.inr rfl
        · simp [hcomplete]
      · intro hcomplete
        simp only [Bool.and_eq_true] at hcomplete
        exact h.complete hcomplete.1.1.1
    · refine ⟨rfl, rfl, rfl, Or.inr ⟨?_, rfl⟩⟩
      refine ⟨rfl, h.messages, h.items, h.nodup, h.count, fun hcomplete => h.complete ?_⟩
      simp only [Bool.and_eq_true] at hcomplete
      exact hcomplete.1.1.1

/-- A message of a turn is in an envelope that is taken. -/
theorem envelope_message {limit : ℕ} {thread turn : Text} {e : Event}
    (h : e.Message limit thread turn) : e.Envelope :=
  ⟨fun _ => ⟨h.item, h.status⟩, by simp [h.kind],
    Or.inr ⟨h.thread.1 ▸ h.thread.2, h.turn.1 ▸ h.turn.2⟩⟩

/-- **What a turn that is open or has ended has told**: messages of different items, and the
end behind them. -/
theorem discipline (h : s.Open host ∨ s.Closed host) :
    ∃ messages ends, s.delivered = messages ++ ends ∧
      (messages.map Event.itemId).Nodup ∧ messages.length ≤ 4096 ∧
      (∀ e ∈ messages, e.Message host.limit s.nativeThreadId s.turnId) ∧
      (ends = [] ∨ ∃ e, ends = [e] ∧ s.Ends host messages e) ∧
      (∀ e ∈ s.delivered, e.Envelope) := by
  have hcount : ∀ {t : Sink}, t.Open host →
      (t.delivered.map Event.itemId).Nodup ∧ t.delivered.length ≤ 4096 := by
    intro t ht
    have hle := ht.items.length_le
    rw [List.length_map, List.length_map] at hle
    exact ⟨ht.items.nodup ht.nodup, hle.trans ht.count⟩
  rcases h with hs | ⟨-, t, e, ht, hthread, hturn, hdelivered, hends⟩
  · exact ⟨s.delivered, [], (List.append_nil _).symm, (hcount hs).1, (hcount hs).2, hs.messages,
      Or.inl rfl, fun e he => envelope_message (hs.messages e he)⟩
  · have hmessages := hthread ▸ hturn ▸ ht.messages
    refine ⟨t.delivered, [e], hdelivered, (hcount ht).1, (hcount ht).2, hmessages,
      Or.inr ⟨e, rfl, hends⟩, fun m hm => ?_⟩
    rcases List.mem_append.mp (hdelivered ▸ hm) with hm | hm
    · exact envelope_message (hmessages m hm)
    · rw [List.mem_singleton.mp hm]
      exact hends.envelope

/-- What `finish` tells is the end. -/
theorem of_mem_finish {e : Event}
    (h : e ∈ (s.finish host status itemId text complete).1.delivered) : e ∈ s.delivered ∨
      e.kind = .turnEnd ∧ e.status = status ∧ (complete = false → e.complete = false) := by
  unfold finish at h
  split at h
  · exact Or.inl h
  · cases hencode : Utf8.encode text with
    | none =>
      rw [hencode] at h
      exact Or.inl h
    | some encoded =>
      rw [hencode] at h
      dsimp only at h
      unfold call at h
      split_ifs at h with hcall
      · refine (List.mem_append.mp h).imp id fun he => ?_
        obtain rfl := List.mem_singleton.mp he
        exact ⟨rfl, rfl, by simp +contextual⟩
      · exact Or.inl h

end Sink

/-! ## The lines of the output -/

/-- **What holds of a parser**, whatever lines it was given. -/
structure Parser.Sound (host : Host) (nativeSessionId : Text) (p : Parser) : Prop where
  turn : p.sink.turnId = host.userMessageUuid
  thread : nativeSessionId ≠ [] → p.sink.nativeThreadId = nativeSessionId
  named : p.bound = true → p.sink.nativeThreadId ≠ []
  sink : p.sink.Open host ∨ p.sink.Closed host

namespace Parser

variable {nativeSessionId : Text} {value : Items}

/-- The sink is told that something is missing. -/
theorem Sound.spoil (h : p.Sound host nativeSessionId) : p.spoil.Sound host nativeSessionId :=
  ⟨h.turn, h.thread, h.named, h.sink.imp Sink.Open.spoil Sink.Closed.spoil⟩

theorem Sound.rate (h : p.Sound host nativeSessionId) (limited : Bool) :
    Sound host nativeSessionId { p with rateLimited := limited } :=
  ⟨h.turn, h.thread, h.named, h.sink⟩

theorem Sound.lift_message (h : p.Sound host nativeSessionId) (hopen : p.sink.Open host)
    (itemId text : Text) (phase : OutputPhase) (complete : Bool) :
    (p.lift (p.sink.message host itemId text phase complete)).1.Sound host nativeSessionId := by
  obtain ⟨ho, hthread, hturn, -⟩ := Sink.open_message hopen itemId text phase complete
  refine ⟨hturn.trans h.turn, fun hne => hthread.trans (h.thread hne), fun hb => ?_, Or.inl ho⟩
  show (p.sink.message host itemId text phase complete).1.nativeThreadId ≠ []
  rw [hthread]
  exact h.named hb

theorem Sound.lift_finish (h : p.Sound host nativeSessionId) (hopen : p.sink.Open host)
    (hstatus : status ≠ .running) (itemId text : Text)
    (hbound : complete = false ∧ status ≠ .completed ∨
      p.sink.nativeThreadId ≠ [] ∧ p.sink.turnId ≠ []) :
    (p.lift (p.sink.finish host status itemId text complete)).1.Sound host nativeSessionId := by
  obtain ⟨hthread, hturn, -, hends⟩ := Sink.finish_spec hopen hstatus itemId text hbound
  refine ⟨hturn.trans h.turn, fun hne => hthread.trans (h.thread hne), fun hb => ?_,
    hends.symm.imp And.left id⟩
  show (p.sink.finish host status itemId text complete).1.nativeThreadId ≠ []
  rw [hthread]
  exact h.named hb

theorem Sound.assistant (h : p.Sound host nativeSessionId) (hopen : p.sink.Open host) :
    (p.assistant host value).1.Sound host nativeSessionId := by
  unfold Parser.assistant
  split
  · split
    · exact h.spoil
    · split
      · dsimp only
        split
        · exact h.rate _
        · have hrate := h.rate
            (p.rateLimited || equals (get value "error") (Text.ofString "rate_limit"))
          exact hrate.lift_message hopen _ _ _ _
      · exact h.spoil
  · exact h.spoil

theorem Sound.result (h : p.Sound host nativeSessionId) (hopen : p.sink.Open host)
    (huuid : host.userMessageUuid ≠ []) (hb : p.bound = true) :
    (p.result host value).1.Sound host nativeSessionId := by
  unfold Parser.result
  split
  · split
    · exact h.spoil
    · split
      · exact h
      · exact h.spoil
      · exact h
      · have hrate := h.rate (p.rateLimited || is429 (get value "api_error_status"))
        refine hrate.lift_finish hopen ?_ _ _ (Or.inr ⟨h.named hb, h.turn ▸ huuid⟩)
        split_ifs <;> simp
  · exact h.spoil

/-- A line of another session is passed over. -/
theorem session?_spec {sessionId : Text} (h : p.session? value = some sessionId) :
    sessionId ≠ [] ∧ (p.sink.nativeThreadId ≠ [] → sessionId = p.sink.nativeThreadId) := by
  unfold session? at h
  split at h
  · split_ifs at h with hnil hother
    obtain rfl := Option.some.inj h
    exact ⟨hnil, fun hne => not_not.mp fun hdiffers => hother ⟨hne, hdiffers⟩⟩
  · simp at h

/-- **A line of the turn** is told to a parser that knows the turn. -/
theorem ofTurn_spec {sessionId : Text} {q : Parser}
    (h : p.ofTurn host value sessionId = .ok (some q)) : q.bound = true ∧
      (q = p ∨ q = { p with
        bound := true, sink := { p.sink with nativeThreadId := sessionId } }) := by
  unfold ofTurn at h
  split at h
  · simp at h
  · simp at h
  · replace h := Except.ok.inj h
    split_ifs at h with _ _ _ hbound
    · obtain rfl := Option.some.inj h
      exact ⟨rfl, Or.inr rfl⟩
    · obtain rfl := Option.some.inj h
      exact ⟨(Bool.and_eq_true_iff.mp hbound).2, Or.inl rfl⟩

/-- **A line keeps what holds of a parser.** -/
theorem Sound.observe (huuid : host.userMessageUuid ≠ []) (h : p.Sound host nativeSessionId) :
    (p.observe host value).1.Sound host nativeSessionId := by
  unfold Parser.observe
  split
  · exact h
  next hterminal =>
  have hopen : p.sink.Open host := h.sink.resolve_right fun hc => hterminal hc.terminal
  split
  · exact h
  next sessionId hsession =>
  obtain ⟨hne, hsame⟩ := session?_spec hsession
  have hnamed : ∀ bound, Sound host nativeSessionId
      { p with bound, sink := { p.sink with nativeThreadId := sessionId } } := fun bound =>
    ⟨h.turn, fun hn => (hsame (h.thread hn ▸ hn)).trans (h.thread hn), fun _ => hne,
      Or.inl (hopen.named hsame)⟩
  split
  · exact hnamed p.bound
  split
  · exact h
  · exact h
  next q hq =>
  obtain ⟨hbound, hq⟩ := ofTurn_spec hq
  have hsound : q.Sound host nativeSessionId ∧ q.sink.Open host := by
    rcases hq with rfl | rfl
    · exact ⟨h, hopen⟩
    · exact ⟨hnamed true, hopen.named hsame⟩
  split
  · exact hsound.1.assistant hsound.2
  · split
    · exact hsound.1.result hsound.2 huuid hbound
    · exact hsound.1

theorem Sound.line (huuid : host.userMessageUuid ≠ []) (h : p.Sound host nativeSessionId)
    (raw : List UInt8) : (p.line host raw).1.Sound host nativeSessionId := by
  unfold Parser.line
  split
  · exact h.observe huuid
  · exact h.spoil
  · exact h.spoil
  · exact h

/-- The output is read line by line. -/
theorem consume_keeps {P : Parser → Prop} {pieces : List {piece : List UInt8 // piece ≠ []}}
    (hline : ∀ raw, raw <:+: (pieces.map Subtype.val).flatten → ∀ p, P p → P (p.line host raw).1)
    (hspoil : ∀ p, P p → P p.spoil) (hp : P p) : P (p.consume host pieces).1 := by
  have hdrain : P ((reader host).feed (pieces.map Subtype.val) [] p).1 := by
    rw [LineStreams.Reader.feed_eq_drain (by rw [LineStreams.Reader.drain_none rfl]; rfl)]
    exact LineStreams.Reader.drain_keeps hline hspoil hp
  unfold consume
  split
  · next hfeed => exact (congrArg (fun t => P t.1) hfeed).mp hdrain
  · next hfeed => exact (congrArg (fun t => P t.1) hfeed).mp hdrain
  · next hfeed => exact hspoil _ ((congrArg (fun t => P t.1) hfeed).mp hdrain)

theorem sound_start (nativeSessionId : Text) :
    (start host nativeSessionId).Sound host nativeSessionId where
  turn := rfl
  thread := fun _ => rfl
  named := nofun
  sink := Or.inl ⟨rfl, by simp [start], by simp [start], by simp [start], by simp [start],
    by simp [start]⟩

end Parser

/-! ## The dispatch -/

variable (nativeSessionId : Text) (pieces : List {piece : List UInt8 // piece ≠ []})
  (canceled failed : Bool)

/-- The dispatch ends a turn that is open. -/
theorem sound_dispatch (huuid : host.userMessageUuid ≠ []) :
    let d := dispatch host nativeSessionId pieces canceled failed
    d.1.Sound host nativeSessionId ∧
      (d.1.sink.Closed host ∨
        d.2 = true ∧ ∃ delivered e, host.callback delivered e = false) := by
  have hsound : ((Parser.start host nativeSessionId).consume host pieces).1.Sound host
      nativeSessionId :=
    Parser.consume_keeps (fun raw _ _ h => h.line huuid raw) (fun _ h => h.spoil)
      (Parser.sound_start nativeSessionId)
  unfold dispatch
  generalize (Parser.start host nativeSessionId).consume host pieces = r at hsound
  obtain ⟨p, failure⟩ := r
  rcases hsound.sink with hopen | hclosed
  · replace hopen : p.sink.Open host := hopen
    have hstatus : (if canceled then TurnStatus.interrupted else .failed) ≠ .running ∧
        (if canceled then TurnStatus.interrupted else .failed) ≠ .completed := by
      cases canceled <;> simp
    refine ⟨hsound.lift_finish hopen hstatus.1 [] [] (Or.inl ⟨rfl, hstatus.2⟩), ?_⟩
    obtain ⟨-, -, -, hends⟩ := Sink.finish_spec hopen hstatus.1 [] [] (Or.inl ⟨rfl, hstatus.2⟩)
    refine hends.imp id fun ⟨_, hfails⟩ => ⟨?_, ?_⟩
    · show (_ || (p.sink.finish host _ [] [] false).2.isSome) = true
      rw [hfails, Bool.or_true]
    · by_contra hreturns
      push Not at hreturns
      have hreturns : ∀ delivered e, host.callback delivered e = true := fun delivered e =>
        Bool.eq_true_of_not_eq_false (hreturns delivered e)
      simp [Sink.finish, Sink.call, hopen.running, hreturns, Utf8.encode] at hfails
  · have hkept : p.sink.finish host (if canceled then .interrupted else .failed) [] [] false
        = (p.sink, none) := by rw [Sink.finish, hclosed.terminal, if_pos rfl]
    dsimp only
    rw [hkept]
    exact ⟨hsound, Or.inl hclosed⟩

/-- **The end is told**, by a dispatch that comes back without an error, and to a callback that
returns whatever happens: it says how the turn stands in the end. -/
theorem end_told (huuid : host.userMessageUuid ≠ [])
    (h : (dispatch host nativeSessionId pieces canceled failed).2 = false ∨
      ∀ delivered e, host.callback delivered e = true) :
    let s := (dispatch host nativeSessionId pieces canceled failed).1.sink
    ∃ messages e, s.delivered = messages ++ [e] ∧ s.Ends host messages e := by
  intro s
  obtain ⟨-, hclosed⟩ := sound_dispatch nativeSessionId pieces canceled failed huuid
  rcases hclosed with ⟨-, t, e, -, -, -, hdelivered, hends⟩ | ⟨herror, delivered, e, hraises⟩
  · exact ⟨t.delivered, e, hdelivered, hends⟩
  · rcases h with hreturned | hreturns
    · simp [herror] at hreturned
    · simp [hreturns] at hraises

/-- **Nothing is told of a turn that was not asked for.** If no part of the output reads as an
object that echoes the message, there is no event but an end that says the turn has failed. -/
theorem nothing_unasked
    (h : ∀ raw items, raw <:+: (pieces.map Subtype.val).flatten →
      host.loads raw = .value (.dict items) →
      equals (Parser.echoedId items) host.userMessageUuid = false) :
    ∀ e ∈ (dispatch host nativeSessionId pieces canceled failed).1.sink.delivered,
      e.kind = .turnEnd ∧ (e.status = .failed ∨ e.status = .interrupted) ∧ e.complete = false := by
  have hquiet : ((Parser.start host nativeSessionId).consume host pieces).1.sink.delivered = [] ∧
      ((Parser.start host nativeSessionId).consume host pieces).1.bound = false := by
    refine Parser.consume_keeps (P := fun p => p.sink.delivered = [] ∧ p.bound = false) ?_
      (fun p hp => hp) ⟨rfl, rfl⟩
    intro raw hraw p hp
    unfold Parser.line
    split
    · next items hitems =>
      have hechoes := h raw items hraw hitems
      unfold Parser.observe
      split
      · exact hp
      split
      · exact hp
      split
      · exact hp
      have hnone : ∀ sessionId q, p.ofTurn host items sessionId ≠ .ok (some q) := by
        intro sessionId q hq
        unfold Parser.ofTurn at hq
        split at hq <;> simp [hechoes, hp.2] at hq
      split
      · exact hp
      · exact hp
      · next hq => exact absurd hq (hnone _ _)
    all_goals exact hp
  unfold dispatch
  generalize (Parser.start host nativeSessionId).consume host pieces = r at hquiet
  obtain ⟨p, failure⟩ := r
  intro e he
  rcases Sink.of_mem_finish he with he | ⟨hkind, hstatus, hcomplete⟩
  · simp [show p.sink.delivered = [] from hquiet.1] at he
  · refine ⟨hkind, ?_, hcomplete rfl⟩
    rw [hstatus]
    cases canceled <;> simp

/-! ### A turn that says something -/

/-- A callback that takes everything, and JSON as it is written. -/
def sampleHost : Host where
  callback := fun _ _ => true
  sha256 := fun bytes => bytes.map UInt8.toNat
  loads := fun raw =>
    match (Utf8.decode raw).map (PyJson.loads 100) with
    | some (.ok value) => .value value
    | _ => .undecodable
  limit := 1000
  userMessageUuid := Text.ofString "m"

/-- A line that is not JSON, in two pieces. -/
def samplePieces : List {piece : List UInt8 // piece ≠ []} := [⟨[0x7b], by simp⟩, ⟨[10], by simp⟩]

theorem end_told_sample : ∃ messages e,
    (dispatch sampleHost [] samplePieces false false).1.sink.delivered = messages ++ [e] ∧
      e.kind = .turnEnd := by
  obtain ⟨messages, e, hdelivered, hends⟩ :=
    @end_told sampleHost [] samplePieces false false (by decide) (Or.inr fun _ _ => rfl)
  exact ⟨messages, e, hdelivered, hends.kind⟩

/-- A host to which nothing is JSON. -/
def deafHost : Host := { sampleHost with loads := fun _ => .undecodable }

theorem nothing_unasked_deaf :
    ((dispatch deafHost [] samplePieces true false).1.sink.delivered.all fun e =>
      e.kind = .turnEnd) = true := by
  refine List.all_eq_true.mpr fun e he => decide_eq_true ?_
  exact (@nothing_unasked deafHost [] samplePieces true false (by simp [deafHost]) e he).1

end ClaudeOutput
