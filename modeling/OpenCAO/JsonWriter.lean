import OpenCAO.JsonReader
import OpenCAO.Utf8

/-!
# The writer of the `json` module

`json.dumps` with `ensure_ascii=False` and without white space writes a value as one line of
text would be expected to be: but only control characters are escaped, and other line breaks
of Unicode stand in a string as they are. The text is read back token by token, and the tokens
by the machine of the reader (`loads_dumps`), as long as the integers are not too long and the
value is not nested too deep.

How a float is written is up to the interpreter; all that is asked is that it reads it back.
-/

namespace PyJson

/-- **The text of a float**, which is one word in ASCII that is read back. -/
structure Reads (repr : PyFloat → Text) (x : PyFloat) : Prop where
  ne : repr x ≠ []
  word : ∀ c ∈ repr x, isWordChar c = true
  ascii : ∀ c ∈ repr x, 0x20 < c ∧ c < 0x7f
  reads : PyJson.word (repr x) = .value (.float x)

section

variable (repr : PyFloat → Text)

mutual

/-- **`json.dumps(…, ensure_ascii=False, separators=(",", ":"))`.** -/
def dumps : Value → Text
  | .null => Text.ofString "null"
  | .bool b => Text.ofString (if b then "true" else "false")
  | .int n => printInt n
  | .float x => repr x
  | .str t => printString t
  | .list xs => 0x5b :: (dumpsElements xs ++ [0x5d])
  | .dict items => 0x7b :: (dumpsItems items ++ [0x7d])
termination_by structural v => v

/-- The elements of a list. -/
def dumpsElements : List Value → Text
  | [] => []
  | x :: xs => dumps x ++ if xs.isEmpty then [] else 0x2c :: dumpsElements xs
termination_by structural xs => xs

/-- The items of an object. -/
def dumpsItems : List (Text × Value) → Text
  | [] => []
  | (k, v) :: items =>
    printString k ++ 0x3a :: (dumps v ++ if items.isEmpty then [] else 0x2c :: dumpsItems items)
termination_by structural items => items

end

mutual

/-- A value can be written, and what is written can be read. -/
def Writable : Value → Prop
  | .int n => digitCount n ≤ maxStrDigits
  | .float x => Reads repr x
  | .list xs => WritableElements xs
  | .dict items => WritableItems items
  | .null => True
  | .bool _ => True
  | .str _ => True
termination_by structural v => v

/-- All elements can. -/
def WritableElements : List Value → Prop
  | [] => True
  | x :: xs => Writable x ∧ WritableElements xs
termination_by structural xs => xs

/-- All items can. -/
def WritableItems : List (Text × Value) → Prop
  | [] => True
  | (_, v) :: items => Writable v ∧ WritableItems items
termination_by structural items => items

end

end

mutual

/-- How deep a value is nested. -/
def depth : Value → ℕ
  | .list xs => depthElements xs + 1
  | .dict items => depthItems items + 1
  | .null => 0
  | .bool _ => 0
  | .int _ => 0
  | .float _ => 0
  | .str _ => 0
termination_by structural v => v

def depthElements : List Value → ℕ
  | [] => 0
  | x :: xs => max (depth x) (depthElements xs)
termination_by structural xs => xs

def depthItems : List (Text × Value) → ℕ
  | [] => 0
  | (_, v) :: items => max (depth v) (depthItems items)
termination_by structural items => items

end

mutual

/-- The tokens of a value. -/
def tokensOf : Value → List Token
  | .list xs => .beginList :: (elementTokens xs ++ [.endList])
  | .dict items => .beginDict :: (itemTokens items ++ [.endDict])
  | .null => [.value .null]
  | .bool b => [.value (.bool b)]
  | .int n => [.value (.int n)]
  | .float x => [.value (.float x)]
  | .str t => [.value (.str t)]
termination_by structural v => v

def elementTokens : List Value → List Token
  | [] => []
  | x :: xs => tokensOf x ++ if xs.isEmpty then [] else .comma :: elementTokens xs
termination_by structural xs => xs

def itemTokens : List (Text × Value) → List Token
  | [] => []
  | (k, v) :: items =>
    .value (.str k) :: .colon :: (tokensOf v ++ if items.isEmpty then [] else .comma :: itemTokens items)
termination_by structural items => items

end

/-- **Induction over a value**, through its elements and items. -/
theorem Value.induct {P : Value → Prop} (null : P .null) (bool : ∀ b, P (.bool b))
    (int : ∀ n, P (.int n)) (float : ∀ x, P (.float x)) (str : ∀ t, P (.str t))
    (list : ∀ xs, (∀ x ∈ xs, P x) → P (.list xs))
    (dict : ∀ items, (∀ item ∈ items, P item.2) → P (.dict items)) : ∀ v, P v :=
  @Value.rec P (fun xs => ∀ x ∈ xs, P x) (fun items => ∀ item ∈ items, P item.2)
    (fun item => P item.2) null bool int float str list dict
    (fun _ h => by cases h) (fun _ _ hx hxs => List.forall_mem_cons.mpr ⟨hx, hxs⟩)
    (fun _ h => by cases h) (fun _ _ hm hms => List.forall_mem_cons.mpr ⟨hm, hms⟩)
    (fun _ _ hv => hv)

variable {repr : PyFloat → Text}

theorem writableElements_iff {xs : List Value} :
    WritableElements repr xs ↔ ∀ x ∈ xs, Writable repr x := by
  induction xs with
  | nil => simp [WritableElements]
  | cons x xs ih => simp [WritableElements, ih]

theorem writableItems_iff {items : List (Text × Value)} :
    WritableItems repr items ↔ ∀ item ∈ items, Writable repr item.2 := by
  induction items with
  | nil => simp [WritableItems]
  | cons item items ih => simp [WritableItems, ih]

theorem dumpsElements_singleton (x : Value) : dumpsElements repr [x] = dumps repr x := by
  simp [dumpsElements]

theorem dumpsElements_cons (x y : Value) (xs : List Value) :
    dumpsElements repr (x :: y :: xs) = dumps repr x ++ 0x2c :: dumpsElements repr (y :: xs) := rfl

theorem dumpsItems_singleton (k : Text) (v : Value) :
    dumpsItems repr [(k, v)] = printString k ++ 0x3a :: dumps repr v := by
  simp [dumpsItems]

theorem dumpsItems_cons (k : Text) (v : Value) (m : Text × Value) (ms : List (Text × Value)) :
    dumpsItems repr ((k, v) :: m :: ms)
      = printString k ++ 0x3a :: (dumps repr v ++ 0x2c :: dumpsItems repr (m :: ms)) := rfl

theorem elementTokens_singleton (x : Value) : elementTokens [x] = tokensOf x := by
  simp [elementTokens]

theorem elementTokens_cons (x y : Value) (xs : List Value) :
    elementTokens (x :: y :: xs) = tokensOf x ++ .comma :: elementTokens (y :: xs) := rfl

theorem itemTokens_singleton (k : Text) (v : Value) :
    itemTokens [(k, v)] = .value (.str k) :: .colon :: tokensOf v := by
  simp [itemTokens]

theorem itemTokens_cons (k : Text) (v : Value) (m : Text × Value) (ms : List (Text × Value)) :
    itemTokens ((k, v) :: m :: ms)
      = .value (.str k) :: .colon :: (tokensOf v ++ .comma :: itemTokens (m :: ms)) := rfl

/-! ## One token after the other -/

/-- A word ends before the text. -/
def Stops (rest : Text) : Prop := ∀ c ∈ rest.head?, isWordChar c = false

theorem stops_cons {c : ℕ} (hc : isWordChar c = false) (rest : Text) : Stops (c :: rest) := by
  rintro d ⟨rfl⟩
  exact hc

/-- **What was written is read token by token.** -/
theorem tokens_dumps {v : Value} (hv : Writable repr v) {rest : Text} (hrest : Stops rest) :
    tokens (dumps repr v ++ rest) = tokensOf v ++ tokens rest := by
  revert rest
  induction v using Value.induct with
  | null =>
    intro rest hrest
    exact tokens_word (w := Text.ofString "null") (by decide) (by decide) hrest
  | bool b =>
    intro rest hrest
    cases b
    · exact tokens_word (w := Text.ofString "false") (by decide) (by decide) hrest
    · exact tokens_word (w := Text.ofString "true") (by decide) (by decide) hrest
  | int n => exact fun hrest => tokens_printInt hv hrest
  | float x =>
    intro rest hrest
    rw [dumps, tokens_word hv.ne hv.word hrest, hv.reads]
    rfl
  | str t => exact fun _ => tokens_printString t _
  | list xs ih =>
    intro rest hrest
    have hxs := writableElements_iff.mp hv
    have helements : ∀ ys, (∀ y ∈ ys, y ∈ xs) → tokens (dumpsElements repr ys ++ 0x5d :: rest)
        = elementTokens ys ++ .endList :: tokens rest := by
      intro ys hys
      induction ys with
      | nil => exact tokens_cons rfl rfl
      | cons y ys ihys =>
        have hread : ∀ {rest}, Stops rest → tokens (dumps repr y ++ rest) = tokensOf y ++ tokens rest :=
          ih y (hys y List.mem_cons_self) (hxs y (hys y List.mem_cons_self))
        cases ys with
        | nil =>
          rw [dumpsElements_singleton, elementTokens_singleton, hread (stops_cons rfl rest),
            tokens_cons rfl rfl]
        | cons z zs =>
          have hrest := ihys fun w hw => hys w (List.mem_cons_of_mem y hw)
          rw [dumpsElements_cons, elementTokens_cons, List.append_assoc, List.append_assoc,
            List.cons_append, List.cons_append, hread (stops_cons rfl _), tokens_cons rfl rfl,
            hrest]
    rw [dumps, tokensOf, List.cons_append, tokens_cons (k := .beginList) rfl rfl,
      List.append_assoc, List.singleton_append, helements xs fun _ hy => hy]
    simp
  | dict items ih =>
    intro rest hrest
    have hitems := writableItems_iff.mp hv
    have hall : ∀ ms, (∀ m ∈ ms, m ∈ items) → tokens (dumpsItems repr ms ++ 0x7d :: rest)
        = itemTokens ms ++ .endDict :: tokens rest := by
      intro ms hms
      induction ms with
      | nil => exact tokens_cons rfl rfl
      | cons m ms ihms =>
        obtain ⟨k, w⟩ := m
        have hread : ∀ {rest}, Stops rest → tokens (dumps repr w ++ rest) = tokensOf w ++ tokens rest :=
          ih (k, w) (hms _ List.mem_cons_self) (hitems _ (hms _ List.mem_cons_self))
        cases ms with
        | nil =>
          rw [dumpsItems_singleton, itemTokens_singleton, List.append_assoc, tokens_printString,
            List.cons_append, tokens_cons rfl rfl, hread (stops_cons rfl rest),
            tokens_cons rfl rfl]
          rfl
        | cons m' ms =>
          have hrest := ihms fun w hw => hms w (List.mem_cons_of_mem _ hw)
          rw [dumpsItems_cons, itemTokens_cons, List.append_assoc, tokens_printString,
            List.cons_append, tokens_cons rfl rfl, List.append_assoc, List.cons_append,
            hread (stops_cons rfl _), tokens_cons rfl rfl, hrest]
          simp
    rw [dumps, tokensOf, List.cons_append, tokens_cons (k := .beginDict) rfl rfl,
      List.append_assoc, List.singleton_append, hall items fun _ hm => hm]
    simp

/-! ## The machine -/

theorem le_depthElements {x : Value} {xs : List Value} (hx : x ∈ xs) : depth x ≤ depthElements xs := by
  induction xs with
  | nil => exact absurd hx List.not_mem_nil
  | cons y ys ih =>
    rw [depthElements]
    rcases List.mem_cons.mp hx with rfl | hx
    · exact Nat.le_max_left _ _
    · exact (ih hx).trans (Nat.le_max_right _ _)

theorem le_depthItems {item : Text × Value} {items : List (Text × Value)} (h : item ∈ items) :
    depth item.2 ≤ depthItems items := by
  induction items with
  | nil => exact absurd h List.not_mem_nil
  | cons m ms ih =>
    rw [depthItems]
    rcases List.mem_cons.mp h with rfl | h
    · exact Nat.le_max_left _ _
    · exact (ih h).trans (Nat.le_max_right _ _)

variable {limit : ℕ} {frames : List Frame} {closable : Bool} {ts : List Token}

/-- **The machine reads the tokens of a value**, if it is not nested too deep. -/
theorem run_tokensOf (v : Value) {closable : Bool} {frames : List Frame} {ts : List Token}
    (h : frames.length + depth v ≤ limit) :
    run limit (.value closable) frames (tokensOf v ++ ts) = run limit (.after v) frames ts := by
  induction v using Value.induct generalizing closable frames ts with
  | null => simp [tokensOf, run]
  | bool b => simp [tokensOf, run]
  | int n => simp [tokensOf, run]
  | float x => simp [tokensOf, run]
  | str t => simp [tokensOf, run]
  | list xs ih =>
    simp only [depth] at h
    have hopen : frames.length < limit := by omega
    have helements : ∀ ys acc, (∀ y ∈ ys, y ∈ xs) → ys ≠ [] → ∀ closable,
        run limit (.value closable) (.list acc :: frames) (elementTokens ys ++ .endList :: ts)
          = run limit (.after (.list (acc ++ ys))) frames ts := by
      intro ys
      induction ys with
      | nil => exact fun _ _ hne => absurd rfl hne
      | cons y ys ihys =>
        intro acc hys _ closable
        have hy : (Frame.list acc :: frames).length + depth y ≤ limit := by
          have := le_depthElements (hys y List.mem_cons_self)
          rw [List.length_cons]
          omega
        cases ys with
        | nil =>
          rw [elementTokens_singleton, ih y (hys y List.mem_cons_self) hy]
          simp [run]
        | cons z zs =>
          rw [elementTokens_cons, List.append_assoc, ih y (hys y List.mem_cons_self) hy,
            List.cons_append, run, ihys (acc ++ [y]) (fun w hw => hys w (List.mem_cons_of_mem y hw))
              (by simp) false, List.append_assoc]
          rfl
    rw [tokensOf, List.cons_append, List.append_assoc, List.singleton_append, run,
      if_pos hopen]
    cases xs with
    | nil => simp [elementTokens, run]
    | cons x xs => exact helements (x :: xs) [] (fun _ hy => hy) (by simp) true
  | dict items ih =>
    simp only [depth] at h
    have hopen : frames.length < limit := by omega
    have hall : ∀ ms acc, (∀ m ∈ ms, m ∈ items) → ms ≠ [] → ∀ closable,
        run limit (.key closable) (.dict acc :: frames) (itemTokens ms ++ .endDict :: ts)
          = run limit (.after (.dict (acc ++ ms))) frames ts := by
      intro ms
      induction ms with
      | nil => exact fun _ _ hne => absurd rfl hne
      | cons m ms ihms =>
        obtain ⟨k, v⟩ := m
        intro acc hms _ closable
        have hv : (Frame.item acc k :: frames).length + depth v ≤ limit := by
          have hle : depth v ≤ depthItems items := le_depthItems (hms (k, v) List.mem_cons_self)
          rw [List.length_cons]
          omega
        have hread : ∀ {ts}, run limit (.value false) (.item acc k :: frames) (tokensOf v ++ ts)
            = run limit (.after v) (.item acc k :: frames) ts := ih (k, v) (hms _ List.mem_cons_self) hv
        cases ms with
        | nil =>
          rw [itemTokens_singleton, List.cons_append, List.cons_append, run, run, hread]
          simp [run]
        | cons m' ms =>
          rw [itemTokens_cons, List.cons_append, List.cons_append, List.append_assoc,
            List.cons_append, run, run, hread, run, ihms (acc ++ [(k, v)]) (fun w hw => hms w (List.mem_cons_of_mem _ hw))
              (by simp) false, List.append_assoc]
          rfl
    rw [tokensOf, List.cons_append, List.append_assoc, List.singleton_append, run,
      if_pos hopen]
    cases items with
    | nil => simp [itemTokens, run]
    | cons m ms => exact hall (m :: ms) [] (fun _ hm => hm) (by simp) true

/-- **What was written is read back.** -/
theorem loads_dumps {v : Value} (hv : Writable repr v) (hdepth : depth v ≤ limit) :
    loads limit (dumps repr v) = .ok v := by
  have htokens : tokens (dumps repr v ++ []) = tokensOf v ++ [] := tokens_dumps hv (by rintro c ⟨⟩)
  rw [List.append_nil] at htokens
  rw [loads, htokens, run_tokensOf v (by simpa using hdepth)]
  rfl

/-! ## What a text is made of -/

mutual

/-- The strings in a value, at any depth. -/
def strings : Value → List Text
  | .str t => [t]
  | .list xs => elementStrings xs
  | .dict items => itemStrings items
  | .null => []
  | .bool _ => []
  | .int _ => []
  | .float _ => []
termination_by structural v => v

def elementStrings : List Value → List Text
  | [] => []
  | x :: xs => strings x ++ elementStrings xs
termination_by structural xs => xs

def itemStrings : List (Text × Value) → List Text
  | [] => []
  | (k, v) :: items => k :: (strings v ++ itemStrings items)
termination_by structural items => items

end

theorem forall_mem_elementStrings {P : Text → Prop} {xs : List Value} :
    (∀ t ∈ elementStrings xs, P t) ↔ ∀ x ∈ xs, ∀ t ∈ strings x, P t := by
  induction xs with
  | nil => simp [elementStrings]
  | cons x xs ih => rw [elementStrings, List.forall_mem_append, List.forall_mem_cons, ih]

theorem forall_mem_itemStrings {P : Text → Prop} {items : List (Text × Value)} :
    (∀ t ∈ itemStrings items, P t) ↔
      ∀ item ∈ items, P item.1 ∧ ∀ t ∈ strings item.2, P t := by
  induction items with
  | nil => simp [itemStrings]
  | cons item items ih =>
    rw [itemStrings, List.forall_mem_cons, List.forall_mem_append, List.forall_mem_cons, ih,
      and_assoc]

/-- A character that is not ASCII is not escaped. -/
theorem escapeChar_of_le {c : ℕ} (h : 0x80 ≤ c) : escapeChar c = [c] := by
  have hletter : letterOf c = none := by
    unfold letterOf
    split <;> first | rfl | omega
  rw [escapeChar, hletter]
  exact if_neg (by omega)

/-- What is escaped is written in printable ASCII. -/
theorem escapeChar_of_lt : ∀ c < 0x80, ∀ d ∈ escapeChar c, 0x20 ≤ d ∧ d < 0x80 := by decide

section

variable {p : ℕ → Bool} (hp : ∀ c, 0x20 ≤ c → c < 0x80 → p c = true)

include hp

theorem all_escapeChar (c : ℕ) : (escapeChar c).all p = (decide (c < 0x80) || p c) := by
  by_cases hc : c < 0x80
  · rw [decide_eq_true hc, Bool.true_or, List.all_eq_true]
    exact fun d hd => hp d (escapeChar_of_lt c hc d hd).1 (escapeChar_of_lt c hc d hd).2
  · rw [escapeChar_of_le (by omega), List.all_cons, List.all_nil, Bool.and_true,
      decide_eq_false hc, Bool.false_or]

theorem all_printString (t : Text) :
    (printString t).all p = t.all fun c => decide (c < 0x80) || p c := by
  have hescaped : (t.flatMap escapeChar).all p = t.all fun c => decide (c < 0x80) || p c := by
    induction t with
    | nil => rfl
    | cons c t ih => rw [List.flatMap_cons, List.all_append, all_escapeChar hp, ih, List.all_cons]
  rw [printString, List.all_cons, List.all_append, hescaped, hp 0x22 (by decide) (by decide)]
  simp [hp 0x22 (by decide) (by decide), -List.all_eq_true]

theorem all_printInt (n : ℤ) : (printInt n).all p = true := by
  have hdigits : ∀ n : ℕ, (printNat n).all p = true := by
    intro n
    refine List.all_eq_true.mpr fun c hc => ?_
    have hdigit := isDigit_of_mem_printNat hc
    simp only [isDigit, Bool.and_eq_true, decide_eq_true_eq] at hdigit
    exact hp c (by omega) (by omega)
  cases n with
  | ofNat n => exact hdigits n
  | negSucc n =>
    rw [printInt, List.all_cons, hdigits, hp 0x2d (by decide) (by decide), Bool.true_and]

/-- **A class of characters that has printable ASCII** has the text of a value if it has whatever
else is in its strings. -/
theorem all_dumps {v : Value} (hv : Writable repr v) :
    (dumps repr v).all p = (strings v).all fun t => t.all fun c => decide (c < 0x80) || p c := by
  induction v using Value.induct with
  | null => simp [dumps, strings, Text.ofString, hp]
  | bool b => cases b <;> simp [dumps, strings, Text.ofString, hp]
  | int n => simp [dumps, strings, all_printInt hp, -List.all_eq_true]
  | float x =>
    have hascii : (repr x).all p = true := List.all_eq_true.mpr fun c hc =>
      hp c (hv.ascii c hc).1.le ((hv.ascii c hc).2.trans (by decide))
    simp [dumps, strings, hascii, -List.all_eq_true]
  | str t => simp [dumps, strings, all_printString hp, -List.all_eq_true]
  | list xs ih =>
    have hxs := writableElements_iff.mp hv
    have helements : (dumpsElements repr xs).all p = (elementStrings xs).all fun t =>
        t.all fun c => decide (c < 0x80) || p c := by
      clear hv
      induction xs with
      | nil => rfl
      | cons x xs ihxs =>
        have hx := ih x List.mem_cons_self (hxs x List.mem_cons_self)
        have hrest := ihxs (fun y hy => ih y (List.mem_cons_of_mem x hy))
          fun y hy => hxs y (List.mem_cons_of_mem x hy)
        cases xs with
        | nil => simp [dumpsElements_singleton, elementStrings, hx, -List.all_eq_true]
        | cons y ys =>
          rw [dumpsElements_cons, List.all_append, hx, List.all_cons, hrest, hp 0x2c (by decide) (by decide),
            Bool.true_and, ← List.all_append]
          rfl
    rw [dumps, List.all_cons, List.all_append, helements, hp 0x5b (by decide) (by decide)]
    simp [strings, hp 0x5d (by decide) (by decide), -List.all_eq_true]
  | dict items ih =>
    have hitems := writableItems_iff.mp hv
    have hall : (dumpsItems repr items).all p = (itemStrings items).all fun t =>
        t.all fun c => decide (c < 0x80) || p c := by
      clear hv
      induction items with
      | nil => rfl
      | cons m ms ihms =>
        obtain ⟨k, w⟩ := m
        have hw := ih (k, w) List.mem_cons_self (hitems _ List.mem_cons_self)
        have hrest := ihms (fun y hy => ih y (List.mem_cons_of_mem _ hy))
          fun y hy => hitems y (List.mem_cons_of_mem _ hy)
        cases ms with
        | nil =>
          rw [dumpsItems_singleton, List.all_append, all_printString hp, List.all_cons, hw,
            hp 0x3a (by decide) (by decide), Bool.true_and]
          simp [itemStrings, -List.all_eq_true]
        | cons m' ms =>
          rw [dumpsItems_cons, List.all_append, all_printString hp, List.all_cons, List.all_append,
            hw, List.all_cons, hrest, hp 0x3a (by decide) (by decide), hp 0x2c (by decide) (by decide), Bool.true_and,
            Bool.true_and, ← List.all_append]
          rfl
    rw [dumps, List.all_cons, List.all_append, hall, hp 0x7b (by decide) (by decide)]
    simp [strings, hp 0x7d (by decide) (by decide), -List.all_eq_true]

end

end PyJson
