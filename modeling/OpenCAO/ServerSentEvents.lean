import OpenCAO.JsonWriter

/-!
# The stream of server-sent events

The service answers a subscription with a stream of events: each JSON-RPC message is an event
whose data are the lines of its text (`_sse_data`), and a comment now and then keeps the
connection alive. The bridge to the standard streams reads such a response line by line, joins
the lines of an event by newlines and reads the message in it (`_proxy_sse_messages`).

The text of a message is written with `ensure_ascii=False` and split by `str.splitlines`. JSON
escapes the line breaks of ASCII, but three more code points end a line for Python – U+0085,
U+2028 and U+2029 – and these stand in a string as they are. A string that has one is torn
apart; a newline stands in its place when it is put together again, and no string of JSON has
one. So a stream is read exactly up to the first message that has one of the three
(`read_stream`), and such a message ends it with an exception. All others arrive as they
were.
-/

namespace ServerSentEvents

open PyJson Text

/-! ## Writing -/

/-- A line of an event. -/
def field (name : String) (value : Text) : Text := Text.ofString name ++ 0x3a :: 0x20 :: value

section

variable (repr : PyFloat → Text)

/-- **`_sse_data`**, before it is encoded. An identifier or a type that is empty is left out. -/
def sseData (payload : Value) (eventId eventType : Text) : Text :=
  let text := dumps repr payload
  let lines := (if eventId = [] then [] else [field "id" eventId]) ++
    (if eventType = [] then [] else [field "event" eventType]) ++
    (if splitlines text = [] then [[]] else splitlines text).map (field "data")
  joinLines lines ++ [10, 10]

/-- One piece of the stream; `none` keeps the connection alive. -/
def chunk : Option Value → Text
  | none => Text.ofString ": keepalive" ++ [10, 10]
  | some message => sseData repr message [] (Text.ofString "message")

/-- **`_mcp_sse_stream`**, unless a text has no UTF-8. -/
def mcpSseStream (messages : List (Option Value)) : Option (List (List UInt8)) :=
  messages.mapM fun message => Utf8.encode (chunk repr message)

end

/-! ## Reading -/

/-- What was read of an event. -/
structure Event where
  eventType : Text
  data : List Text
  deriving DecidableEq

/-- Nothing was read. -/
def Event.empty : Event := ⟨[], []⟩

/-- Why the reading ends. -/
inductive Failure where
  | unsupportedEventType
  | json (e : LoadsError)
  | notAnObject
  deriving DecidableEq

/-- **`decode`**: the message of an event, if it has data. -/
def decode (limit : ℕ) (e : Event) : Except Failure (Option Value) :=
  if e.data = [] then .ok none
  else if e.eventType ≠ [] ∧ e.eventType ≠ Text.ofString "message" then
    .error .unsupportedEventType
  else
    match loads limit (joinLines e.data) with
    | .error error => .error (.json error)
    | .ok (.dict items) => .ok (some (.dict items))
    | .ok _ => .error .notAnObject

/-- A line that is not empty is added to an event. -/
def Event.add (e : Event) (line : Text) : Event :=
  if line.head? = some 0x3a then e
  else
    -- `line.partition(":")`
    let name := line.takeWhile (· ≠ 0x3a)
    let raw := (line.dropWhile (· ≠ 0x3a)).tail
    let value := if raw.head? = some 0x20 then raw.tail else raw
    if name = Text.ofString "event" then { e with eventType := value }
    else if name = Text.ofString "data" then { e with data := e.data ++ [value] }
    else e

/-- **The loop of `_proxy_sse_messages`**: what it yields, and how it fails. -/
def readLines (limit : ℕ) : Event → List Text → List Value × Option Failure
  | e, [] =>
    match decode limit e with
    | .error failure => ([], some failure)
    | .ok message => (message.toList, none)
  | e, [] :: lines =>
    match decode limit e with
    | .error failure => ([], some failure)
    | .ok message =>
      let rest := readLines limit .empty lines
      (message.toList ++ rest.1, rest.2)
  | e, (c :: line) :: lines => readLines limit (e.add (c :: line)) lines

/-- **`_proxy_sse_messages`** of the whole body of a response, in UTF-8. -/
def proxySseMessages (limit : ℕ) (body : List UInt8) : Option (List Value × Option Failure) :=
  (Utf8.decode body).map fun text => readLines limit .empty (splitlines text)

/-! ## Lines -/

/-- The line breaks that JSON does not escape. -/
def isSeparator (c : ℕ) : Bool := c == 0x85 || c == 0x2028 || c == 0x2029

/-- A text that was split in lines and put together again. -/
def rejoined (t : Text) : Text := t.map fun c => if isLineBreak c then 10 else c

/-- Lines, each of them with its newline. -/
def unlines (lines : List Text) : Text := lines.flatMap fun line => line ++ [10]

theorem unlines_append (ls ms : List Text) : unlines (ls ++ ms) = unlines ls ++ unlines ms :=
  List.flatMap_append

/-- **Lines are told apart by their newlines.** -/
theorem splitlines_unlines {lines : List Text} (h : ∀ line ∈ lines, Single line) :
    splitlines (unlines lines) = lines := by
  unfold splitlines
  induction lines with
  | nil => rfl
  | cons line lines ih =>
    have ⟨hline, hlines⟩ := List.forall_mem_cons.mp h
    rw [unlines, List.flatMap_cons, List.append_assoc, splitlinesFrom_append _ _ hline,
      List.singleton_append, splitlinesFrom_newline, List.nil_append]
    exact congrArg (line :: ·) (ih hlines)

theorem joinLines_cons (line : Text) {lines : List Text} (h : lines ≠ []) :
    joinLines (line :: lines) = line ++ 10 :: joinLines lines := by
  obtain ⟨l, ls, rfl⟩ := List.exists_cons_of_ne_nil h
  simp [joinLines]

theorem joinLines_newline {lines : List Text} (h : lines ≠ []) :
    joinLines lines ++ [10] = unlines lines := by
  induction lines with
  | nil => exact absurd rfl h
  | cons line lines ih =>
    cases lines with
    | nil => simp [joinLines, unlines]
    | cons l ls =>
      rw [joinLines_cons line (List.cons_ne_nil l ls), List.append_assoc, List.cons_append,
        ih (List.cons_ne_nil l ls)]
      simp [unlines]

/-- **What was split is put together with newlines**, if the text ends in a line. -/
theorem joinLines_splitlinesFrom (line t : Text) (hreturn : 13 ∉ t)
    (hlast : (t = [] ∧ line ≠ []) ∨ ∃ c ∈ t.getLast?, isLineBreak c = false) :
    joinLines (splitlinesFrom line t) = line ++ rejoined t := by
  induction line, t using splitlinesFrom.induct with
  | case1 =>
    rcases hlast with ⟨-, hne⟩ | ⟨c, hc, -⟩
    · exact absurd rfl hne
    · simp at hc
  | case2 line hne => simp [splitlinesFrom, hne, joinLines, rejoined]
  | case3 line t ih => exact absurd List.mem_cons_self hreturn
  | case4 line c t hcr hbreak ih =>
    have hrest : ∃ d ∈ t.getLast?, isLineBreak d = false := by
      rcases hlast with ⟨hnil, -⟩ | ⟨d, hd, hline⟩
      · simp at hnil
      · cases t with
        | nil =>
          obtain rfl := Option.some.inj hd
          simp [hbreak] at hline
        | cons a t => exact ⟨d, by simpa using hd, hline⟩
    have ih := ih (fun h => hreturn (List.mem_cons_of_mem c h)) (Or.inr hrest)
    have hne : splitlinesFrom [] t ≠ [] := by
      intro hnil
      obtain ⟨d, hd, -⟩ := hrest
      rw [hnil] at ih
      cases t with
      | nil => simp at hd
      | cons a t => simp [joinLines, rejoined] at ih
    rw [splitlinesFrom, if_pos hbreak, joinLines_cons line hne, ih]
    · simp [rejoined, hbreak]
    · exact hcr
  | case5 line c t hcr hbreak ih =>
    have hrest : (t = [] ∧ line ++ [c] ≠ []) ∨ ∃ d ∈ t.getLast?, isLineBreak d = false := by
      rcases hlast with ⟨hnil, -⟩ | ⟨d, hd, hline⟩
      · simp at hnil
      · cases t with
        | nil => exact Or.inl ⟨rfl, by simp⟩
        | cons a t => exact Or.inr ⟨d, by simpa using hd, hline⟩
    rw [splitlinesFrom, if_neg hbreak, ih (fun h => hreturn (List.mem_cons_of_mem c h)) hrest]
    · simp [rejoined, hbreak]
    · exact hcr

/-! ## Strings that are torn apart -/

variable {repr : PyFloat → Text} {limit : ℕ}

/-- **No string of a value is torn apart.** -/
def clean (v : Value) : Bool := (strings v).all fun t => t.all fun c => !isSeparator c

theorem isLineBreak_of_lt {c : ℕ} (h : 0x20 ≤ c) (h' : c < 0x80) : isLineBreak c = false := by
  have hall : ∀ c < 0x80, 0x20 ≤ c → isLineBreak c = false := by decide
  exact hall c h' h

/-- What ends a line of Python in the text of a value is one of the three. -/
theorem isLineBreak_of_le {c : ℕ} (h : 0x80 ≤ c) : isLineBreak c = isSeparator c := by
  unfold isLineBreak isSeparator
  rw [decide_eq_false (show ¬ c ≤ 13 by omega), decide_eq_false (show ¬ c ≤ 0x1e by omega)]
  simp

/-- **The text of a value is one line** exactly if no string is torn apart. -/
theorem single_dumps_iff {v : Value} (hv : Writable repr v) :
    Single (dumps repr v) ↔ clean v = true := by
  have hall := all_dumps (p := fun c => !isLineBreak c)
    (fun c h h' => by simp [isLineBreak_of_lt h h']) hv
  have hpoint : (fun c => decide (c < 0x80) || !isLineBreak c) = fun c => !isSeparator c := by
    funext c
    by_cases hc : c < 0x80
    · have hsmall : isSeparator c = false := by
        simp only [isSeparator, Bool.or_eq_false_iff, beq_eq_false_iff_ne]
        omega
      simp [hc, hsmall]
    · simp [hc, isLineBreak_of_le (Nat.le_of_not_lt hc)]
  rw [hpoint] at hall
  rw [clean, ← hall, List.all_eq_true]
  exact forall₂_congr fun c _ => by simp

theorem rejoined_of_single {t : Text} (h : Single t) : rejoined t = t :=
  (List.map_congr_left fun c hc => by simp [h c hc]).trans (List.map_id' t)

theorem rejoined_append (t u : Text) : rejoined (t ++ u) = rejoined t ++ rejoined u := List.map_append

theorem rejoined_cons {c : ℕ} (hc : isLineBreak c = false) (t : Text) :
    rejoined (c :: t) = c :: rejoined t := by simp [rejoined, hc]

/-- No text has a carriage return, or any other control character. -/
theorem le_of_mem_dumps {v : Value} (hv : Writable repr v) {c : ℕ} (hc : c ∈ dumps repr v) :
    0x20 ≤ c := by
  have hall := all_dumps (p := fun c => decide (0x20 ≤ c)) (fun c h _ => by simpa using h) hv
  have htrue : ((strings v).all fun t => t.all fun c => decide (c < 0x80) || decide (0x20 ≤ c))
      = true := by
    simp only [List.all_eq_true, Bool.or_eq_true, decide_eq_true_eq]
    omega
  rw [htrue, List.all_eq_true] at hall
  exact of_decide_eq_true (hall c hc)

/-- A string with a newline is none. -/
theorem scanUnits_newline (t rest : Text) (n : ℕ) :
    scanUnits n (t.flatMap escapeChar ++ 10 :: rest) = none := by
  induction t generalizing n with
  | nil =>
    cases n with
    | zero => rfl
    | succ n =>
      have hunit : scanUnit (10 :: rest) = none := by cases rest <;> simp [scanUnit]
      rw [List.flatMap_nil, List.nil_append, scanUnits, if_neg (by simp), hunit]
  | cons c t ih =>
    cases n with
    | zero => rfl
    | succ n =>
      rw [List.flatMap_cons, List.append_assoc, scanUnits, if_neg (head?_escapeChar c _),
        scanUnit_escapeChar]
      dsimp only
      rw [ih n]
      rfl

/-- **A string that is torn apart is no token.** -/
theorem tokens_rejoined_string {t : Text} (ht : t.all (fun c => !isSeparator c) = false)
    (rest : Text) : tokens (rejoined (printString t) ++ rest) = [.bad] := by
  -- The string up to the first character that is torn off.
  obtain ⟨front, c, back, rfl, hfront, hc⟩ : ∃ front c back, t = front ++ c :: back ∧
      (∀ d ∈ front, isSeparator d = false) ∧ isSeparator c = true := by
    induction t with
    | nil => exact nomatch ht
    | cons d t ih =>
      cases hd : isSeparator d with
      | true => exact ⟨[], d, t, rfl, by simp, hd⟩
      | false =>
        rw [List.all_cons, hd, Bool.not_false, Bool.true_and] at ht
        obtain ⟨front, c, back, rfl, hfront, hc⟩ := ih ht
        exact ⟨d :: front, c, back, rfl, List.forall_mem_cons.mpr ⟨hd, hfront⟩, hc⟩
  have hle : 0x80 ≤ c := by
    simp only [isSeparator, Bool.or_eq_true, beq_iff_eq] at hc
    omega
  have hsingle : Single (front.flatMap escapeChar) := by
    intro d hd
    obtain ⟨a, ha, hd⟩ := List.mem_flatMap.mp hd
    by_cases hsmall : a < 0x80
    · obtain ⟨hlow, hhigh⟩ := escapeChar_of_lt a hsmall d hd
      exact isLineBreak_of_lt hlow hhigh
    · rw [escapeChar_of_le (Nat.le_of_not_lt hsmall), List.mem_singleton] at hd
      rw [hd, isLineBreak_of_le (Nat.le_of_not_lt hsmall)]
      exact hfront a ha
  have htext : rejoined (printString (front ++ c :: back)) ++ rest
      = 0x22 :: (front.flatMap escapeChar ++
          10 :: (rejoined (back.flatMap escapeChar ++ [0x22]) ++ rest)) := by
    rw [printString, rejoined_cons rfl, List.flatMap_append, List.append_assoc, rejoined_append,
      rejoined_of_single hsingle, List.flatMap_cons, escapeChar_of_le hle]
    simp [rejoined, isLineBreak_of_le hle, hc]
  rw [htext]
  have hscan : scanString (front.flatMap escapeChar ++
      10 :: (rejoined (back.flatMap escapeChar ++ [0x22]) ++ rest)) = none := by
    rw [scanString, scanUnits_newline]
    rfl
  show tokensFrom (_ + 1) (0x22 :: _) = _
  rw [tokensFrom, if_neg (by decide), show punctuation 0x22 = none from rfl]
  dsimp only
  rw [if_pos rfl, hscan]

/-- Behind a value that is not torn apart the reading goes on. -/
theorem bad_behind {x : Value} (hx : Writable repr x) {rest : Text} (hrest : Stops rest)
    (hdirty : clean x = false → Token.bad ∈ tokens (rejoined (dumps repr x) ++ rest))
    (hclean : clean x = true → Token.bad ∈ tokens rest) :
    Token.bad ∈ tokens (rejoined (dumps repr x) ++ rest) := by
  cases hc : clean x with
  | false => exact hdirty hc
  | true =>
    rw [rejoined_of_single ((single_dumps_iff hx).mpr hc), tokens_dumps hx hrest]
    exact List.mem_append_right _ (hclean hc)

/-- **A value with such a string has a token that is bad**, once it is put together again. -/
theorem bad_mem_tokens {v : Value} (hv : Writable repr v) (hdirty : clean v = false) (rest : Text) :
    Token.bad ∈ tokens (rejoined (dumps repr v) ++ rest) := by
  induction v using Value.induct generalizing rest with
  | null => simp [clean, strings] at hdirty
  | bool b => simp [clean, strings] at hdirty
  | int n => simp [clean, strings] at hdirty
  | float x => simp [clean, strings] at hdirty
  | str t =>
    rw [clean, strings, List.all_cons, List.all_nil, Bool.and_true] at hdirty
    rw [dumps, tokens_rejoined_string hdirty]
    exact List.mem_cons_self
  | list xs ih =>
    have hxs := writableElements_iff.mp hv
    have hsome : ∃ x ∈ xs, clean x = false := by
      by_contra hnone
      push Not at hnone
      have hall := forall_mem_elementStrings (P := fun t => t.all (fun c => !isSeparator c) = true).mpr
        fun x hx => List.all_eq_true.mp (Bool.eq_true_of_not_eq_false (hnone x hx))
      exact Bool.false_ne_true (hdirty.symm.trans (List.all_eq_true.mpr hall))
    have helements : ∀ ys, (∀ y ∈ ys, y ∈ xs) → (∃ y ∈ ys, clean y = false) → ∀ rest, Stops rest →
        Token.bad ∈ tokens (rejoined (dumpsElements repr ys) ++ rest) := by
      intro ys
      induction ys with
      | nil => simp
      | cons y ys ihys =>
        intro hys hsome rest hrest
        have hy := hys y List.mem_cons_self
        cases ys with
        | nil =>
          obtain ⟨z, hz, hdirty⟩ := hsome
          obtain rfl := List.mem_singleton.mp hz
          rw [dumpsElements_singleton]
          exact ih z hy (hxs z hy) hdirty rest
        | cons z zs =>
          rw [dumpsElements_cons, rejoined_append, rejoined_cons rfl, List.append_assoc]
          refine bad_behind (hxs y hy) (stops_cons rfl _) (fun hdirty => ih y hy (hxs y hy) hdirty _)
            fun hclean => ?_
          rw [List.cons_append, tokens_cons rfl rfl]
          refine List.mem_cons_of_mem _
            (ihys (fun w hw => hys w (List.mem_cons_of_mem y hw)) ?_ rest hrest)
          obtain ⟨w, hw, hdirty⟩ := hsome
          rcases List.mem_cons.mp hw with rfl | hw
          · exact absurd (hdirty.symm.trans hclean) Bool.false_ne_true
          · exact ⟨w, hw, hdirty⟩
    rw [dumps, rejoined_cons rfl, rejoined_append, List.cons_append, List.append_assoc,
      tokens_cons (k := .beginList) rfl rfl]
    exact List.mem_cons_of_mem _ (helements xs (fun _ hy => hy) hsome _ (stops_cons rfl _))
  | dict items ih =>
    have hitems := writableItems_iff.mp hv
    let tidy (m : Text × Value) : Bool := m.1.all (fun c => !isSeparator c) && clean m.2
    have hsome : ∃ m ∈ items, tidy m = false := by
      by_contra hnone
      push Not at hnone
      have hall := forall_mem_itemStrings (P := fun t => t.all (fun c => !isSeparator c) = true).mpr
        fun m hm => by
          have htidy := Bool.and_eq_true_iff.mp (Bool.eq_true_of_not_eq_false (hnone m hm))
          exact ⟨htidy.1, List.all_eq_true.mp htidy.2⟩
      exact Bool.false_ne_true (hdirty.symm.trans (List.all_eq_true.mpr hall))
    have hall : ∀ ms, (∀ m ∈ ms, m ∈ items) → (∃ m ∈ ms, tidy m = false) → ∀ rest, Stops rest →
        Token.bad ∈ tokens (rejoined (dumpsItems repr ms) ++ rest) := by
      intro ms
      induction ms with
      | nil => simp
      | cons m ms ihms =>
        obtain ⟨k, w⟩ := m
        intro hms hsome rest hrest
        have hw := hms (k, w) List.mem_cons_self
        have hread := fun hdirty rest => ih (k, w) hw (hitems _ hw) hdirty rest
        cases hk : k.all (fun c => !isSeparator c) with
        | false =>
          have hfront : ∃ back, rejoined (dumpsItems repr ((k, w) :: ms)) ++ rest
              = rejoined (printString k) ++ back := by
            rw [dumpsItems, rejoined_append, List.append_assoc]
            exact ⟨_, rfl⟩
          obtain ⟨back, hback⟩ := hfront
          rw [hback, tokens_rejoined_string hk]
          exact List.mem_cons_self
        | true =>
          have hsingle : rejoined (printString k) = printString k := by
            refine rejoined_of_single ((@single_dumps_iff repr (.str k) trivial).mpr ?_)
            rw [clean, strings, List.all_cons, hk]
            rfl
          cases ms with
          | nil =>
            obtain ⟨z, hz, hdirty⟩ := hsome
            obtain rfl := List.mem_singleton.mp hz
            have hdirty : clean w = false := by simpa [tidy, hk] using hdirty
            rw [dumpsItems_singleton, rejoined_append, hsingle, List.append_assoc,
              tokens_printString, rejoined_cons rfl, List.cons_append, tokens_cons rfl rfl]
            exact List.mem_cons_of_mem _ (List.mem_cons_of_mem _ (hread hdirty rest))
          | cons m' ms =>
            rw [dumpsItems_cons, rejoined_append, hsingle, List.append_assoc, tokens_printString,
              rejoined_cons rfl, List.cons_append, tokens_cons rfl rfl, rejoined_append,
              rejoined_cons rfl, List.append_assoc]
            refine List.mem_cons_of_mem _ (List.mem_cons_of_mem _ (bad_behind (hitems _ hw)
              (stops_cons rfl _) (fun hdirty => hread hdirty _) fun hclean => ?_))
            rw [List.cons_append, tokens_cons rfl rfl]
            refine List.mem_cons_of_mem _
              (ihms (fun z hz => hms z (List.mem_cons_of_mem _ hz)) ?_ rest hrest)
            obtain ⟨z, hz, hdirty⟩ := hsome
            rcases List.mem_cons.mp hz with rfl | hz
            · have htidy : tidy (k, w) = true := Bool.and_eq_true_iff.mpr ⟨hk, hclean⟩
              exact absurd (hdirty.symm.trans htidy) Bool.false_ne_true
            · exact ⟨z, hz, hdirty⟩
    rw [dumps, rejoined_cons rfl, rejoined_append, List.cons_append, List.append_assoc,
      tokens_cons (k := .beginDict) rfl rfl]
    exact List.mem_cons_of_mem _ (hall items (fun _ hm => hm) hsome _ (stops_cons rfl _))

/-- The machine stops at a token that is bad. -/
theorem run_bad {ts : List Token} (h : Token.bad ∈ ts) (mode : Mode) (frames : List Frame) :
    ∃ e, run limit mode frames ts = .error e := by
  -- Whatever the machine expects, it either fails or goes on behind the token.
  fun_induction run limit mode frames ts with
  | case1 v => exact absurd h List.not_mem_nil
  | _ => first | exact ⟨_, rfl⟩ | (rename_i ih; exact ih (by simpa using h))

/-- **A value that is torn apart is not read.** -/
theorem loads_rejoined {v : Value} (hv : Writable repr v) (hdirty : clean v = false) :
    ∃ e, loads limit (rejoined (dumps repr v)) = .error e := by
  have hbad := bad_mem_tokens hv hdirty []
  rw [List.append_nil] at hbad
  exact run_bad hbad _ _

/-! ## One event after the other -/

/-- **What is sent as a message**: an object that can be written, and read again. -/
structure Message (repr : PyFloat → Text) (limit : ℕ) (v : Value) : Prop where
  object : ∃ items, v = .dict items
  writable : Writable repr v
  depth : depth v ≤ limit

/-- The lines of a piece of the stream. -/
def chunkLines (repr : PyFloat → Text) : Option Value → List Text
  | none => [Text.ofString ": keepalive", []]
  | some v =>
    field "event" (Text.ofString "message") ::
      ((splitlines (dumps repr v)).map (field "data") ++ [[]])

/-- An object begins and ends with a brace. -/
theorem Message.joinLines_splitlines {v : Value} (h : Message repr limit v) :
    joinLines (splitlines (dumps repr v)) = rejoined (dumps repr v) := by
  refine joinLines_splitlinesFrom [] _ (fun hreturn => ?_) (Or.inr ?_)
  · exact absurd (le_of_mem_dumps h.writable hreturn) (by decide)
  · obtain ⟨items, rfl⟩ := h.object
    refine ⟨0x7d, ?_, rfl⟩
    rw [dumps, ← List.cons_append, List.getLast?_append]
    rfl

theorem Message.splitlines_ne_nil {v : Value} (h : Message repr limit v) :
    splitlines (dumps repr v) ≠ [] := by
  intro hnil
  have hjoin := h.joinLines_splitlines
  obtain ⟨items, rfl⟩ := h.object
  rw [hnil, dumps, rejoined_cons rfl] at hjoin
  simp [joinLines] at hjoin

theorem chunk_eq {v : Value} (h : Message repr limit v) :
    chunk repr (some v) = unlines (chunkLines repr (some v)) := by
  have hne : Text.ofString "message" ≠ [] := by decide
  have hlines : (field "event" (Text.ofString "message") ::
      (splitlines (dumps repr v)).map (field "data")) ≠ [] := List.cons_ne_nil _ _
  show joinLines _ ++ [10, 10] = _
  rw [if_pos rfl, if_neg hne, if_neg h.splitlines_ne_nil, List.nil_append, List.singleton_append,
    show ([10, 10] : Text) = [10] ++ [10] from rfl, ← List.append_assoc, joinLines_newline hlines,
    chunkLines, ← List.cons_append, unlines_append]
  rfl

/-- The names of the fields have no line break, and no colon. -/
theorem single_field {name : String} (hname : Single (Text.ofString name)) {value : Text}
    (h : Single value) : Single (field name value) :=
  hname.append (List.forall_mem_cons.mpr ⟨rfl, List.forall_mem_cons.mpr ⟨rfl, h⟩⟩)

theorem single_chunkLines (m : Option Value) : ∀ line ∈ chunkLines repr m, Single line := by
  cases m with
  | none =>
    show ∀ line ∈ [Text.ofString ": keepalive", []], Single line
    decide
  | some v =>
    intro line hline
    rcases List.mem_cons.mp hline with rfl | hline
    · exact single_field (by decide) (by decide)
    · rcases List.mem_append.mp hline with hline | hline
      · obtain ⟨piece, hpiece, rfl⟩ := List.mem_map.mp hline
        exact single_field (by decide) (single_of_mem_splitlines hpiece)
      · rw [List.mem_singleton.mp hline]
        exact fun _ hc => absurd hc List.not_mem_nil

theorem add_event (e : Event) (value : Text) :
    e.add (field "event" value) = { e with eventType := value } := by
  simp [Event.add, field, Text.ofString]

theorem add_data (e : Event) (value : Text) :
    e.add (field "data" value) = { e with data := e.data ++ [value] } := by
  simp [Event.add, field, Text.ofString]

theorem readLines_data (e : Event) (pieces lines : List Text) :
    readLines limit e (pieces.map (field "data") ++ lines)
      = readLines limit { e with data := e.data ++ pieces } lines := by
  induction pieces generalizing e with
  | nil => simp
  | cons piece pieces ih =>
    have hstep : readLines limit e (field "data" piece :: (pieces.map (field "data") ++ lines))
        = readLines limit (e.add (field "data" piece)) (pieces.map (field "data") ++ lines) := rfl
    rw [List.map_cons, List.cons_append, hstep, add_data, ih]
    simp

/-- **A piece of the stream is read**, or the reading ends with it. -/
theorem readLines_chunk (m : Option Value) (h : ∀ v, m = some v → Message repr limit v)
    (lines : List Text) :
    (m.all clean = true → readLines limit .empty (chunkLines repr m ++ lines)
      = (m.toList ++ (readLines limit .empty lines).1, (readLines limit .empty lines).2)) ∧
    (m.all clean = false → ∃ e,
      readLines limit .empty (chunkLines repr m ++ lines) = ([], some (.json e))) := by
  cases m with
  | none => exact ⟨fun _ => rfl, fun h => nomatch h⟩
  | some v =>
    have hv := h v rfl
    have hread : readLines limit .empty (chunkLines repr (some v) ++ lines)
        = readLines limit ⟨Text.ofString "message", splitlines (dumps repr v)⟩ ([] :: lines) := by
      have hstep : readLines limit .empty (chunkLines repr (some v) ++ lines)
          = readLines limit (Event.empty.add (field "event" (Text.ofString "message")))
              (((splitlines (dumps repr v)).map (field "data") ++ [[]]) ++ lines) := rfl
      rw [hstep, add_event, List.append_assoc, readLines_data]
      rfl
    have hdecode : decode limit ⟨Text.ofString "message", splitlines (dumps repr v)⟩ =
        match loads limit (rejoined (dumps repr v)) with
        | .error error => .error (.json error)
        | .ok (.dict items) => .ok (some (.dict items))
        | .ok _ => .error .notAnObject := by
      rw [decode, if_neg hv.splitlines_ne_nil, if_neg (by simp), hv.joinLines_splitlines]
    rw [hread, readLines, hdecode]
    constructor
    · intro hclean
      rw [rejoined_of_single ((single_dumps_iff hv.writable).mpr hclean),
        loads_dumps hv.writable hv.depth]
      obtain ⟨items, rfl⟩ := hv.object
      rfl
    · intro hdirty
      obtain ⟨e, he⟩ : ∃ e, loads limit (rejoined (dumps repr v)) = .error e :=
        loads_rejoined hv.writable hdirty
      rw [he]
      exact ⟨e, rfl⟩

/-- The stream up to the first message that is torn apart. -/
theorem readLines_stream {messages : List (Option Value)}
    (h : ∀ v, some v ∈ messages → Message repr limit v) :
    (readLines limit .empty (messages.flatMap (chunkLines repr))).1
      = (messages.filterMap id).takeWhile clean ∧
    ((∀ v, some v ∈ messages → clean v = true) →
      (readLines limit .empty (messages.flatMap (chunkLines repr))).2 = none) ∧
    ((∃ v, some v ∈ messages ∧ clean v = false) → ∃ e,
      (readLines limit .empty (messages.flatMap (chunkLines repr))).2 = some (.json e)) := by
  induction messages with
  | nil => exact ⟨rfl, fun _ => rfl, fun ⟨_, hv, _⟩ => absurd hv List.not_mem_nil⟩
  | cons m messages ih =>
    obtain ⟨hread, hall, hsome⟩ := ih fun v hv => h v (List.mem_cons_of_mem m hv)
    obtain ⟨hclean, hdirty⟩ := @readLines_chunk repr limit m
      (fun v hv => h v (hv ▸ List.mem_cons_self)) (messages.flatMap (chunkLines repr))
    rw [List.flatMap_cons]
    cases hm : m.all clean with
    | true =>
      rw [hclean hm]
      refine ⟨?_, fun h => hall fun v hv => h v (List.mem_cons_of_mem m hv), ?_⟩
      · rw [hread]
        cases m with
        | none => rfl
        | some v => exact (List.takeWhile_cons_of_pos (p := clean) (a := v) hm).symm
      · rintro ⟨v, hv, hvdirty⟩
        rcases List.mem_cons.mp hv with rfl | hv
        · exact nomatch hm.symm.trans hvdirty
        · exact hsome ⟨v, hv, hvdirty⟩
    | false =>
      obtain ⟨e, he⟩ := hdirty hm
      rw [he]
      cases m with
      | none => exact nomatch hm
      | some v =>
        refine ⟨(List.takeWhile_cons_of_neg (by simpa using hm)).symm, fun h => ?_, fun _ => ⟨e, rfl⟩⟩
        exact nomatch (h v List.mem_cons_self).symm.trans hm

/-- What is encoded piece by piece is decoded in one. -/
theorem decode_mapM_encode {texts : List Text} {chunks : List (List UInt8)}
    (h : texts.mapM Utf8.encode = some chunks) : Utf8.decode chunks.flatten = some texts.flatten := by
  suffices hflat : Utf8.encode texts.flatten = some chunks.flatten from Utf8.decode_of_encode hflat
  induction texts generalizing chunks with
  | nil =>
    obtain rfl := Option.some.inj h
    rfl
  | cons t texts ih =>
    rw [List.mapM_cons] at h
    obtain ⟨bytes, hbytes, h⟩ := Option.bind_eq_some_iff.mp h
    obtain ⟨rest, hrest, h⟩ := Option.bind_eq_some_iff.mp h
    obtain rfl := Option.some.inj h
    have hih := ih hrest
    unfold Utf8.encode at hbytes hih ⊢
    split_ifs at hbytes hih with hscalar htexts
    rw [List.flatten_cons, List.flatten_cons, if_pos (by rw [List.all_append, hscalar, htexts]; rfl),
      List.flatMap_append, Option.some.inj hbytes, Option.some.inj hih]

/-- **A stream is read up to the first message that is torn apart**, and if there is none, to its
end. The bridge yields the messages before it as they were sent, and then the text that is no
JSON ends the reading. -/
theorem read_stream {messages : List (Option Value)} {chunks : List (List UInt8)}
    (h : ∀ v, some v ∈ messages → Message repr limit v)
    (hsent : mcpSseStream repr messages = some chunks) :
    ∃ failure, proxySseMessages limit chunks.flatten
        = some ((messages.filterMap id).takeWhile clean, failure) ∧
      ((∀ v, some v ∈ messages → clean v = true) ↔ failure = none) ∧
      ∀ f, failure = some f → ∃ e, f = .json e := by
  have htext : Utf8.decode chunks.flatten = some (messages.map (chunk repr)).flatten := by
    refine decode_mapM_encode ?_
    rw [List.mapM_map]
    exact hsent
  have hlines : (messages.map (chunk repr)).flatten
      = unlines (messages.flatMap (chunkLines repr)) := by
    clear htext hsent
    induction messages with
    | nil => rfl
    | cons m messages ih =>
      rw [List.map_cons, List.flatten_cons, ih fun v hv => h v (List.mem_cons_of_mem m hv),
        List.flatMap_cons, unlines_append]
      congr 1
      cases m with
      | none => rfl
      | some v => exact chunk_eq (h v List.mem_cons_self)
  have hsingle : ∀ line ∈ messages.flatMap (chunkLines repr), Single line := by
    intro line hline
    obtain ⟨m, -, hline⟩ := List.mem_flatMap.mp hline
    exact single_chunkLines m line hline
  obtain ⟨hread, hall, hsome⟩ := readLines_stream h
  refine ⟨(readLines limit .empty (messages.flatMap (chunkLines repr))).2, ?_, ⟨hall, ?_⟩, ?_⟩
  · rw [proxySseMessages, htext, Option.map_some, hlines, splitlines_unlines hsingle, ← hread]
  · intro hnone
    by_contra hdirty
    push Not at hdirty
    obtain ⟨v, hv, hclean⟩ := hdirty
    obtain ⟨e, he⟩ := hsome ⟨v, hv, Bool.eq_false_iff.mpr hclean⟩
    exact nomatch hnone.symm.trans he
  · intro f hf
    by_contra hnot
    refine nomatch (hall fun v hv => ?_).symm.trans hf
    by_contra hclean
    obtain ⟨e, he⟩ := hsome ⟨v, hv, Bool.eq_false_iff.mpr hclean⟩
    exact hnot ⟨e, Option.some.inj (hf.symm.trans he)⟩

/-- A message whose text has a line separator of Unicode, behind one that has none. -/
def sampleMessages : List (Option Value) :=
  [some (.dict [(Text.ofString "id", .int 1)]), none,
    some (.dict [(Text.ofString "text", .str [0x61, 0x2028, 0x62])])]

theorem read_stream_separator : ∃ chunks failure,
    mcpSseStream (fun _ => []) sampleMessages = some chunks ∧ failure ≠ none ∧
      proxySseMessages 1 chunks.flatten
        = some ([.dict [(Text.ofString "id", .int 1)]], failure) := by
  have hmessages : ∀ v, some v ∈ sampleMessages → Message (fun _ => []) 1 v := by
    simp only [sampleMessages, List.mem_cons, Option.some.injEq, List.not_mem_nil, or_false,
      reduceCtorEq, false_or]
    rintro v (rfl | rfl)
    · exact ⟨⟨_, rfl⟩, ⟨(by decide : digitCount 1 ≤ maxStrDigits), trivial⟩, by decide⟩
    · exact ⟨⟨_, rfl⟩, ⟨trivial, trivial⟩, by decide⟩
  obtain ⟨failure, hread, hclean, -⟩ := read_stream hmessages rfl
  refine ⟨_, failure, rfl, fun hnone => ?_, hread⟩
  have htorn : some (.dict [(Text.ofString "text", .str [0x61, 0x2028, 0x62])]) ∈ sampleMessages :=
    by simp [sampleMessages]
  exact absurd (hclean.mpr hnone _ htorn) (by decide)

end ServerSentEvents
