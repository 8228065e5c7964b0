import OpenCAO.JsonReader
import OpenCAO.WorkCursor

/-!
# The codec of a cursor, and what it raises

A cursor comes back from a client, which may send anything in its place. Five kinds of
exceptions are turned into the one error of an invalid cursor, and they are almost all
that can be raised: by the digits of Base64, by UTF-8, by the reader of JSON, by a look-up
in something that is no object, and by the conversions. Two kinds are not among them.
`int` of an infinity is an `OverflowError`, and a document that is nested too deep is a
`RecursionError`; they leave the service as they are.

A row is read back from its cursor, if it has one: an integer of more than 4300 digits has
no text, and half a surrogate pair has no UTF-8 (`codec_iff`). No row of the database is
like this.
-/

namespace CursorCodec

open PyJson

/-! ## The source -/

/-- The columns of a row that its cursor is made of. -/
structure Row where
  priority : ℤ
  updatedAt : Text
  id : Text
  deriving DecidableEq, Repr

/-- **What is raised.** A `UnicodeError` and a `JSONDecodeError` are `ValueError`s. -/
inductive Raised where
  | keyError | typeError | valueError | overflowError | recursionError
  deriving DecidableEq, Repr

/-- `except (KeyError, TypeError, ValueError, UnicodeError, json.JSONDecodeError)`. -/
def Raised.caught : Raised → Bool
  | keyError | typeError | valueError => true
  | overflowError | recursionError => false

/-- How the decoding fails. -/
inductive CursorError where
  | validation (message : String)
  | raised (e : Raised)
  deriving DecidableEq, Repr

/-- **What the interpreter decides.** -/
structure Interpreter where
  /-- How many lists and objects can be entered inside the outermost one. -/
  nesting : ℕ
  /-- `int` of a text, which otherwise raises a `ValueError`. -/
  intOfText : Text → Option ℤ
  /-- `str` of a float. -/
  strOfFloat : PyFloat → Text
  /-- `str` of a list or an object, unless it is nested too deep. -/
  strOfNested : Value → Option Text

/-- The names of the items. -/
def priorityName : Text := Text.ofString "priority"
def updatedAtName : Text := Text.ofString "updated_at"
def idName : Text := Text.ofString "id"

/-- An item of an object, as it is written. -/
def printItem (name value : Text) : Text := printString name ++ 0x3a :: value

/-- **`_json`** of the object. -/
def canonicalJson (row : Row) : Text :=
  0x7b :: (printItem idName (printString row.id) ++
    0x2c :: (printItem priorityName (printInt row.priority) ++
      0x2c :: (printItem updatedAtName (printString row.updatedAt) ++ [0x7d])))

/-- **`_encode_work_cursor`.** -/
def encode (row : Row) : Except Raised Text :=
  if maxStrDigits < digitCount row.priority then .error .valueError
  else
    match Utf8.encode (canonicalJson row) with
    | none => .error .valueError
    | some bytes => .ok ((Base64.unpadded (Base64.encode bytes)).map Char.toNat)

/-- `cursor + padding`. -/
def padded (cursor : Text) : Text := cursor ++ List.replicate ((4 - cursor.length % 4) % 4) 0x3d

/-- `base64.urlsafe_b64decode`. -/
def urlsafeB64decode (t : Text) : Option (List UInt8) :=
  if t.all (· < 0x80) then Base64.decode (t.map Char.ofNat) else none

/-- The text in a cursor. -/
def document (cursor : Text) : Option Text := (urlsafeB64decode (padded cursor)).bind Utf8.decode

/-- The item of a name; of several the last. -/
def lookup (items : List (Text × Value)) (name : Text) : Option Value :=
  (items.reverse.find? fun item => decide (item.1 = name)).map Prod.snd

/-- `payload[name]`. -/
def getItem (name : Text) : Value → Except Raised Value
  | .dict items =>
    match lookup items name with
    | none => .error .keyError
    | some v => .ok v
  | _ => .error .typeError

/-- `int`. -/
def toInt (py : Interpreter) : Value → Except Raised ℤ
  | .int n => .ok n
  | .bool b => .ok (if b then 1 else 0)
  | .float (.finite negative m) => .ok (if negative then -⌊m⌋ else ⌊m⌋)
  | .float (.infinity _) => .error .overflowError
  | .float .nan => .error .valueError
  | .str t =>
    match py.intOfText t with
    | none => .error .valueError
    | some n => .ok n
  | .null => .error .typeError
  | .list _ => .error .typeError
  | .dict _ => .error .typeError

/-- `str`. -/
def toStr (py : Interpreter) : Value → Except Raised Text
  | .str t => .ok t
  | .null => .ok (Text.ofString "None")
  | .bool b => .ok (Text.ofString (if b then "True" else "False"))
  | .int n => if maxStrDigits < digitCount n then .error .valueError else .ok (printInt n)
  | .float x => .ok (py.strOfFloat x)
  | v =>
    match py.strOfNested v with
    | none => .error .recursionError
    | some t => .ok t

/-- What the `try` of the decoding is around. -/
def read (py : Interpreter) (cursor : Text) : Except Raised (ℤ × Text × Text) :=
  match document cursor with
  | none => .error .valueError
  | some text =>
    match loads (py.nesting + 1) text with
    | .error .invalid => .error .valueError
    | .error .tooDeep => .error .recursionError
    | .ok payload => do
      let priority ← toInt py (← getItem priorityName payload)
      let updatedAt ← toStr py (← getItem updatedAtName payload)
      let workId ← toStr py (← getItem idName payload)
      .ok (priority, updatedAt, workId)

/-- The message of the error. -/
def invalidCursor : String := "invalid work query cursor"

/-- **`_decode_work_cursor`.** -/
def decode (py : Interpreter) (cursor : Text) : Except CursorError (ℤ × Text × Text) :=
  match read py cursor with
  | .error e => .error (if e.caught then .validation invalidCursor else .raised e)
  | .ok (priority, updatedAt, workId) =>
    if updatedAt = [] ∨ workId = [] then .error (.validation invalidCursor)
    else .ok (priority, updatedAt, workId)

/-! ## A row -/

/-- **A row has a cursor**: its priority has a text, and its strings have UTF-8. -/
structure Row.Encodable (row : Row) : Prop where
  priority : digitCount row.priority ≤ maxStrDigits
  updatedAt : row.updatedAt.all Utf8.isScalar = true
  id : row.id.all Utf8.isScalar = true

/-- The row is read back from its cursor. -/
def RoundTrips (py : Interpreter) (row : Row) : Prop :=
  ∃ cursor, encode row = .ok cursor ∧
    decode py cursor = .ok (row.priority, row.updatedAt, row.id)

/-- The items of the object. -/
def Row.items (row : Row) : List (Text × Value) :=
  [(idName, .str row.id), (priorityName, .int row.priority), (updatedAtName, .str row.updatedAt)]

/-- An item is read back. -/
theorem tokens_printItem (name : Text) {value rest : Text} {v : Value}
    (h : tokens (value ++ rest) = .value v :: tokens rest) :
    tokens (printItem name value ++ rest)
      = .value (.str name) :: .colon :: .value v :: tokens rest := by
  rw [printItem, List.append_assoc, tokens_printString, List.cons_append,
    tokens_cons (k := .colon) rfl rfl, h]

/-- **The object is read back.** -/
theorem loads_canonicalJson {row : Row} (h : digitCount row.priority ≤ maxStrDigits)
    (nesting : ℕ) : loads (nesting + 1) (canonicalJson row) = .ok (.dict row.items) := by
  have htokens : tokens (canonicalJson row) =
      [.beginDict, .value (.str idName), .colon, .value (.str row.id), .comma,
        .value (.str priorityName), .colon, .value (.int row.priority), .comma,
        .value (.str updatedAtName), .colon, .value (.str row.updatedAt), .endDict] := by
    unfold canonicalJson
    rw [tokens_cons (k := .beginDict) rfl rfl,
      tokens_printItem idName (tokens_printString row.id _),
      tokens_cons (k := .comma) rfl rfl,
      tokens_printItem priorityName (tokens_printInt h (by rintro c ⟨rfl⟩; rfl)),
      tokens_cons (k := .comma) rfl rfl,
      tokens_printItem updatedAtName (tokens_printString row.updatedAt _),
      tokens_cons (k := .endDict) rfl rfl]
    rfl
  rw [loads, htokens]
  simp [run, Row.items]

/-! ### The bytes -/

theorem isScalar_of_lt {c : ℕ} (h : c < 0x80) : Utf8.isScalar c = true := by
  simp only [Utf8.isScalar, Bool.and_eq_true, Bool.or_eq_true, decide_eq_true_eq]
  omega

theorem letterOf_of_le {c : ℕ} (h : 0x80 ≤ c) : letterOf c = none := by
  unfold letterOf
  split <;> first | rfl | omega

/-- What is escaped is ASCII. -/
theorem all_isScalar_escapeChar (c : ℕ) :
    (escapeChar c).all Utf8.isScalar = Utf8.isScalar c := by
  have hsmall : ∀ c < 0x80, (escapeChar c).all Utf8.isScalar = Utf8.isScalar c := by decide
  by_cases hc : c < 0x80
  · exact hsmall c hc
  · rw [escapeChar, letterOf_of_le (by omega)]
    dsimp only
    rw [if_neg (by omega), List.all_cons, List.all_nil, Bool.and_true]

theorem all_isScalar_printString (t : Text) :
    (printString t).all Utf8.isScalar = t.all Utf8.isScalar := by
  have hescaped : (t.flatMap escapeChar).all Utf8.isScalar = t.all Utf8.isScalar := by
    induction t with
    | nil => rfl
    | cons c t ih =>
      rw [List.flatMap_cons, List.all_append, all_isScalar_escapeChar, ih, List.all_cons]
  rw [printString, List.all_cons, List.all_append, hescaped,
    show Utf8.isScalar 0x22 = true from rfl, Bool.true_and,
    show [0x22].all Utf8.isScalar = true from rfl, Bool.and_true]

theorem all_isScalar_printInt (n : ℤ) : (printInt n).all Utf8.isScalar = true := by
  have hdigits : ∀ n : ℕ, (printNat n).all Utf8.isScalar = true := by
    intro n
    refine List.all_eq_true.mpr fun c hc => isScalar_of_lt ?_
    have hdigit := isDigit_of_mem_printNat hc
    simp only [isDigit, Bool.and_eq_true, decide_eq_true_eq] at hdigit
    omega
  cases n with
  | ofNat n => exact hdigits n
  | negSucc n => rw [printInt, List.all_cons, hdigits, isScalar_of_lt (by decide), Bool.true_and]

/-- **The object has UTF-8 exactly if the strings of the row have.** -/
theorem all_isScalar_canonicalJson (row : Row) : (canonicalJson row).all Utf8.isScalar =
    (row.id.all Utf8.isScalar && row.updatedAt.all Utf8.isScalar) := by
  have hname : ∀ name ∈ [idName, priorityName, updatedAtName],
      (printString name).all Utf8.isScalar = true := by decide
  simp only [List.forall_mem_cons, List.not_mem_nil, false_implies, implies_true, and_true] at hname
  simp only [canonicalJson, printItem, List.all_cons, List.all_append, List.all_nil, hname,
    all_isScalar_printString row.id, all_isScalar_printString row.updatedAt, all_isScalar_printInt,
    isScalar_of_lt (c := 0x7b) (by decide), isScalar_of_lt (c := 0x2c) (by decide),
    isScalar_of_lt (c := 0x3a) (by decide), isScalar_of_lt (c := 0x7d) (by decide),
    Bool.true_and, Bool.and_true]

/-- **The bytes are read back from the digits.** -/
theorem document_encode (bytes : List UInt8) :
    document ((Base64.unpadded (Base64.encode bytes)).map Char.toNat) = Utf8.decode bytes := by
  have hdecode := Base64.decode_encode bytes
  have hpadded : padded ((Base64.unpadded (Base64.encode bytes)).map Char.toNat)
      = (Base64.padded (Base64.unpadded (Base64.encode bytes))).map Char.toNat := by
    unfold padded Base64.padded
    rw [List.map_append, List.map_replicate, List.length_map]
    rfl
  generalize Base64.padded (Base64.unpadded (Base64.encode bytes)) = digits at hdecode hpadded
  have hascii : digits.all (·.toNat < 0x80) = true := by
    by_contra hall
    rw [Base64.decode, if_neg hall] at hdecode
    cases hdecode
  have hchars : (digits.map Char.toNat).map Char.ofNat = digits := by
    rw [List.map_map]
    exact List.map_id'' (fun c => Char.ofNat_toNat c) _
  rw [document, hpadded, urlsafeB64decode, if_pos, hchars, hdecode, Option.bind_some]
  rw [List.all_map]
  exact hascii

/-- What is read of the items of a row. -/
theorem read_of_document {py : Interpreter} {row : Row} {cursor : Text}
    (h : digitCount row.priority ≤ maxStrDigits)
    (hdocument : document cursor = some (canonicalJson row)) :
    read py cursor = .ok (row.priority, row.updatedAt, row.id) := by
  have hpriority : getItem priorityName (.dict row.items) = .ok (.int row.priority) := rfl
  have hupdatedAt : getItem updatedAtName (.dict row.items) = .ok (.str row.updatedAt) := rfl
  have hid : getItem idName (.dict row.items) = .ok (.str row.id) := rfl
  rw [read, hdocument]
  dsimp only
  rw [loads_canonicalJson h]
  dsimp only
  rw [hpriority, hupdatedAt, hid]
  rfl

/-- **A row is read back from its cursor exactly if it has one.** -/
theorem roundTrips_iff (py : Interpreter) {row : Row} (hupdatedAt : row.updatedAt ≠ [])
    (hid : row.id ≠ []) : RoundTrips py row ↔ row.Encodable := by
  constructor
  · rintro ⟨cursor, hencode, -⟩
    unfold encode at hencode
    split_ifs at hencode with hdigits
    have hscalar : (canonicalJson row).all Utf8.isScalar = true := by
      by_contra hall
      rw [Utf8.encode, if_neg hall] at hencode
      exact nomatch hencode
    rw [all_isScalar_canonicalJson, Bool.and_eq_true] at hscalar
    exact ⟨Nat.le_of_not_lt hdigits, hscalar.2, hscalar.1⟩
  · intro h
    have hbytes : Utf8.encode (canonicalJson row)
        = some ((canonicalJson row).flatMap Utf8.encodeChar) := by
      rw [Utf8.encode, if_pos]
      rw [all_isScalar_canonicalJson, h.updatedAt, h.id]
      rfl
    have hread : read py ((Base64.unpadded (Base64.encode
        ((canonicalJson row).flatMap Utf8.encodeChar))).map Char.toNat)
        = .ok (row.priority, row.updatedAt, row.id) := by
      refine read_of_document h.priority ?_
      rw [document_encode, Utf8.decode_of_encode hbytes]
    refine ⟨(Base64.unpadded (Base64.encode
      ((canonicalJson row).flatMap Utf8.encodeChar))).map Char.toNat, ?_, ?_⟩
    · rw [encode, if_neg (Nat.not_lt.mpr h.priority), hbytes]
    · rw [decode, hread]
      dsimp only
      rw [if_neg (by simp [hupdatedAt, hid])]

/-! ### The cursor of a listing -/

/-- The columns that a cursor of a listing was made of. -/
def ofCursor (c : WorkCursor) : Row :=
  ⟨c.priority, Text.ofString c.updatedAt, Text.ofString c.id⟩

theorem escapeChar_toNat (a : Char) :
    (WorkCursor.escape a).map Char.toNat = escapeChar a.toNat := by
  have hsmall : ∀ n < 0x80,
      (WorkCursor.escape (Char.ofNat n)).map Char.toNat = escapeChar n := by decide
  by_cases ha : a.toNat < 0x80
  · have h := hsmall a.toNat ha
    rwa [Char.ofNat_toNat] at h
  · have hletter : Json.letterOf a = none := by
      have hne : ∀ c : Char, c.toNat < 0x80 → a ≠ c := by
        rintro c hc rfl
        exact ha hc
      unfold Json.letterOf
      rw [if_neg (hne _ (by decide)), if_neg (hne _ (by decide)), if_neg (hne _ (by decide)),
        if_neg (hne _ (by decide)), if_neg (hne _ (by decide)), if_neg (hne _ (by decide)),
        if_neg (hne _ (by decide))]
    rw [WorkCursor.escape, hletter, escapeChar, letterOf_of_le (by omega)]
    dsimp only
    rw [if_neg (by omega), if_neg (by omega)]
    rfl

theorem printString_ofString (s : String) :
    (WorkCursor.printString s).map Char.toNat = printString (Text.ofString s) := by
  have hescaped : ∀ t : List Char, (t.flatMap WorkCursor.escape).map Char.toNat
      = (t.map Char.toNat).flatMap escapeChar := by
    intro t
    induction t with
    | nil => rfl
    | cons a t ih =>
      rw [List.flatMap_cons, List.map_append, escapeChar_toNat, ih, List.map_cons,
        List.flatMap_cons]
  rw [WorkCursor.printString, List.map_cons, List.map_append, hescaped]
  rfl

theorem printInt_toNat (n : ℤ) : (Json.printInt n).map Char.toNat = printInt n := by
  cases n with
  | ofNat n => rfl
  | negSucc n => rfl

/-- **Both models have the same object.** -/
theorem canonicalJson_ofCursor (c : WorkCursor) :
    canonicalJson (ofCursor c) = c.print.map Char.toNat := by
  unfold WorkCursor.print WorkCursor.printMember
  simp only [List.map_cons, List.map_append, List.map_nil, printString_ofString, printInt_toNat]
  simp only [canonicalJson, printItem, ofCursor, List.append_assoc, List.cons_append]
  rfl

/-- **Both models have the same cursor.** -/
theorem encode_ofCursor {c : WorkCursor} (h : digitCount c.priority ≤ maxStrDigits) :
    encode (ofCursor c) = .ok (c.encode.map Char.toNat) := by
  have hscalar : (c.print.map Char.toNat).all Utf8.isScalar = true := by
    rw [List.all_map, List.all_eq_true]
    exact fun a _ => WorkCursor.isScalar_toNat a
  have hdigits : ¬ maxStrDigits < digitCount (ofCursor c).priority := Nat.not_lt.mpr h
  rw [encode, if_neg hdigits, canonicalJson_ofCursor, Utf8.encode, if_pos hscalar, List.flatMap_map]
  rfl

/-! ## Anything else -/

/-- **The decoding answers**, by a triple or by the error of an invalid cursor. -/
def Answers (py : Interpreter) (cursor : Text) : Prop :=
  (∃ triple, decode py cursor = .ok triple) ∨
    decode py cursor = .error (.validation invalidCursor)

/-- `int` takes the value. -/
def Numeric (py : Interpreter) : Value → Prop
  | .int _ => True
  | .bool _ => True
  | .float (.finite _ _) => True
  | .str t => py.intOfText t ≠ none
  | _ => False

/-- A list or an object that is nested too deep for a text. -/
def TooNested (py : Interpreter) : Value → Prop
  | .list xs => py.strOfNested (.list xs) = none
  | .dict items => py.strOfNested (.dict items) = none
  | _ => False

/-- `str` takes the value. -/
def Printable (py : Interpreter) : Value → Prop
  | .int n => digitCount n ≤ maxStrDigits
  | v => ¬ TooNested py v

/-- **What an object must not have**: an infinite priority, or, behind one that is a number,
another item that is nested too deep for a text. -/
structure Harmless (py : Interpreter) (items : List (Text × Value)) : Prop where
  priority : ∀ negative, lookup items priorityName ≠ some (.float (.infinity negative))
  updatedAt : ∀ p, lookup items priorityName = some p → Numeric py p →
    ∀ u, lookup items updatedAtName = some u → ¬ TooNested py u
  id : ∀ p, lookup items priorityName = some p → Numeric py p →
    ∀ u, lookup items updatedAtName = some u → Printable py u →
      ∀ i, lookup items idName = some i → ¬ TooNested py i

/-- **What a document must not be**: nested too deep, or an object that is not harmless. -/
structure Answerable (py : Interpreter) (text : Text) : Prop where
  shallow : loads (py.nesting + 1) text ≠ .error .tooDeep
  harmless : ∀ items, loads (py.nesting + 1) text = .ok (.dict items) → Harmless py items

/-! ### What is not caught -/

/-- **An exception leaves the `try`.** -/
def Escapes {α : Type} (x : Except Raised α) : Prop := ∃ e, x = .error e ∧ e.caught = false

theorem not_escapes_ok {α : Type} (a : α) : ¬ Escapes (.ok a : Except Raised α) :=
  fun ⟨_, h, _⟩ => nomatch h

theorem escapes_error {α : Type} (e : Raised) :
    Escapes (.error e : Except Raised α) ↔ e.caught = false := by
  constructor
  · rintro ⟨_, he, h⟩
    obtain rfl := Except.error.inj he
    exact h
  · exact fun h => ⟨e, rfl, h⟩

/-- **One of two steps, the first of which was passed.** -/
theorem escapes_bind {α β : Type} (x : Except Raised α) (f : α → Except Raised β) :
    Escapes (x >>= f) ↔ Escapes x ∨ ∃ a, x = .ok a ∧ Escapes (f a) := by
  cases x with
  | error e =>
    constructor
    · rintro ⟨_, h, hcaught⟩
      obtain rfl := Except.error.inj h
      exact .inl ⟨e, rfl, hcaught⟩
    · rintro (⟨_, h, hcaught⟩ | ⟨_, h, -⟩)
      · obtain rfl := Except.error.inj h
        exact ⟨e, rfl, hcaught⟩
      · exact nomatch h
  | ok a =>
    constructor
    · exact fun h => .inr ⟨a, rfl, h⟩
    · rintro (h | ⟨_, ha, h⟩)
      · exact absurd h (not_escapes_ok a)
      · obtain rfl := Except.ok.inj ha
        exact h

theorem answers_iff (py : Interpreter) (cursor : Text) :
    Answers py cursor ↔ ¬ Escapes (read py cursor) := by
  unfold Answers decode
  cases hread : read py cursor with
  | error e => cases e <;> simp [escapes_error, Raised.caught]
  | ok triple =>
    obtain ⟨priority, updatedAt, workId⟩ := triple
    dsimp only
    split_ifs <;> simp [not_escapes_ok]

theorem escapes_toInt {py : Interpreter} {v : Value} :
    Escapes (toInt py v) ↔ ∃ negative, v = .float (.infinity negative) := by
  cases v with
  | float x => cases x <;> simp [toInt, escapes_error, not_escapes_ok, Raised.caught]
  | str t =>
    cases h : py.intOfText t <;> simp [toInt, h, escapes_error, not_escapes_ok, Raised.caught]
  | null => simp [toInt, escapes_error, Raised.caught]
  | bool b => simp [toInt, not_escapes_ok]
  | int n => simp [toInt, not_escapes_ok]
  | list xs => simp [toInt, escapes_error, Raised.caught]
  | dict items => simp [toInt, escapes_error, Raised.caught]

theorem exists_toInt {py : Interpreter} {v : Value} :
    (∃ n, toInt py v = .ok n) ↔ Numeric py v := by
  cases v with
  | float x => cases x <;> simp [toInt, Numeric]
  | str t => cases h : py.intOfText t <;> simp [toInt, Numeric, h]
  | null => simp [toInt, Numeric]
  | bool b => simp [toInt, Numeric]
  | int n => simp [toInt, Numeric]
  | list xs => simp [toInt, Numeric]
  | dict items => simp [toInt, Numeric]

theorem escapes_toStr {py : Interpreter} {v : Value} :
    Escapes (toStr py v) ↔ TooNested py v := by
  cases v with
  | int n =>
    by_cases h : maxStrDigits < digitCount n <;>
      simp [toStr, h, escapes_error, not_escapes_ok, Raised.caught, TooNested]
  | list xs =>
    cases h : py.strOfNested (.list xs) <;>
      simp [toStr, TooNested, h, escapes_error, not_escapes_ok, Raised.caught]
  | dict items =>
    cases h : py.strOfNested (.dict items) <;>
      simp [toStr, TooNested, h, escapes_error, not_escapes_ok, Raised.caught]
  | null => simp [toStr, not_escapes_ok, TooNested]
  | bool b => simp [toStr, not_escapes_ok, TooNested]
  | float x => simp [toStr, not_escapes_ok, TooNested]
  | str t => simp [toStr, not_escapes_ok, TooNested]

theorem exists_toStr {py : Interpreter} {v : Value} :
    (∃ t, toStr py v = .ok t) ↔ Printable py v := by
  cases v with
  | int n => by_cases h : maxStrDigits < digitCount n <;> simp [toStr, Printable, h]; omega
  | list xs => cases h : py.strOfNested (.list xs) <;> simp [toStr, Printable, TooNested, h]
  | dict items => cases h : py.strOfNested (.dict items) <;> simp [toStr, Printable, TooNested, h]
  | null => simp [toStr, Printable, TooNested]
  | bool b => simp [toStr, Printable, TooNested]
  | float x => simp [toStr, Printable, TooNested]
  | str t => simp [toStr, Printable, TooNested]

/-- What is not in an object is a `KeyError`. -/
theorem not_escapes_getItem (items : List (Text × Value)) (name : Text) :
    ¬ Escapes (getItem name (.dict items)) := by
  cases h : lookup items name <;> simp [getItem, h, escapes_error, not_escapes_ok, Raised.caught]

theorem getItem_eq_ok {items : List (Text × Value)} {name : Text} {v : Value} :
    getItem name (.dict items) = .ok v ↔ lookup items name = some v := by
  cases h : lookup items name <;> simp [getItem, h]

/-- **The object decides.** -/
theorem harmless_iff (py : Interpreter) (items : List (Text × Value)) :
    Harmless py items ↔ ¬ Escapes (do
      let priority ← toInt py (← getItem priorityName (.dict items))
      let updatedAt ← toStr py (← getItem updatedAtName (.dict items))
      let workId ← toStr py (← getItem idName (.dict items))
      .ok (priority, updatedAt, workId)) := by
  simp only [escapes_bind, not_escapes_getItem, getItem_eq_ok, escapes_toInt, escapes_toStr,
    not_escapes_ok, and_false, exists_false, or_false, false_or]
  constructor
  · rintro ⟨hpriority, hupdatedAt, hid⟩ ⟨p, hp, ⟨negative, rfl⟩ | ⟨n, hn, u, hu, hrest⟩⟩
    · exact hpriority negative hp
    · have hnumeric := exists_toInt.mp ⟨n, hn⟩
      obtain hnested | ⟨t, ht, i, hi, hnested⟩ := hrest
      · exact hupdatedAt p hp hnumeric u hu hnested
      · exact hid p hp hnumeric u hu (exists_toStr.mp ⟨t, ht⟩) i hi hnested
  · intro h
    constructor
    · exact fun negative hp => h ⟨_, hp, .inl ⟨negative, rfl⟩⟩
    · intro p hp hnumeric u hu hnested
      obtain ⟨n, hn⟩ := exists_toInt.mpr hnumeric
      exact h ⟨p, hp, .inr ⟨n, hn, u, hu, .inl hnested⟩⟩
    · intro p hp hnumeric u hu hprintable i hi hnested
      obtain ⟨n, hn⟩ := exists_toInt.mpr hnumeric
      obtain ⟨t, ht⟩ := exists_toStr.mpr hprintable
      exact h ⟨p, hp, .inr ⟨n, hn, u, hu, .inr ⟨t, ht, i, hi, hnested⟩⟩⟩

/-- A number of `2 ^ 1024` or more is such a priority. -/
theorem not_harmless_of_le (py : Interpreter) {items : List (Text × Value)} {negative : Bool}
    {m : ℚ} (hm : 2 ^ 1024 ≤ m)
    (h : lookup items priorityName = some (.float (.ofRat negative m))) : ¬ Harmless py items := by
  rw [PyFloat.ofRat_of_le hm] at h
  exact fun hharmless => hharmless.priority negative h

/-- **The decoding answers exactly if the document in the cursor is none of those.** -/
theorem answers_iff_answerable (py : Interpreter) (cursor : Text) :
    Answers py cursor ↔ ∀ text, document cursor = some text → Answerable py text := by
  rw [answers_iff]
  unfold read
  cases document cursor with
  | none => simp [escapes_error, Raised.caught]
  | some text =>
    simp only [Option.some.injEq, forall_eq']
    cases hloads : loads (py.nesting + 1) text with
    | error e =>
      cases e with
      | invalid =>
        refine iff_of_true (by simp [escapes_error, Raised.caught]) ⟨?_, ?_⟩
        · simp [hloads]
        · simp [hloads]
      | tooDeep =>
        refine iff_of_false (by simp [escapes_error, Raised.caught]) ?_
        exact fun h => h.shallow hloads
    | ok payload =>
      cases payload with
      | dict items =>
        refine (harmless_iff py items).symm.trans ⟨fun h => ⟨by simp [hloads], ?_⟩, ?_⟩
        · intro items' h'
          obtain rfl := Value.dict.inj (Except.ok.inj (hloads.symm.trans h'))
          exact h
        · exact fun h => h.harmless items hloads
      | null | bool | int | float | str | list =>
        refine iff_of_true (by simp [getItem, escapes_bind, escapes_error, Raised.caught]) ⟨?_, ?_⟩
        · simp [hloads]
        · simp [hloads]

/-- **The codec of a cursor**: which rows are read back, and where the decoding answers. -/
theorem codec_iff (py : Interpreter) :
    (∀ row : Row, row.updatedAt ≠ [] → row.id ≠ [] → (RoundTrips py row ↔ row.Encodable)) ∧
      ∀ cursor, Answers py cursor ↔ ∀ text, document cursor = some text → Answerable py text :=
  ⟨fun _ hupdatedAt hid => roundTrips_iff py hupdatedAt hid, answers_iff_answerable py⟩

/-- An interpreter that takes no text for a number. -/
def plain : Interpreter := ⟨1000, fun _ => none, fun _ => [], fun _ => some []⟩

/-- A row is read back, and the decoding answers to an object that has no items. -/
theorem codec_iff_row :
    RoundTrips plain ⟨-3, [0x75], [0xe9]⟩ ∧ Answers plain (Text.ofString "e30") := by
  have hempty : document (Text.ofString "e30") = some (Text.ofString "\x7b\x7d") := rfl
  refine ⟨((codec_iff plain).1 _ (by decide) (by decide)).mpr ⟨by decide, by decide, by decide⟩,
    ((codec_iff plain).2 _).mpr ?_⟩
  have hloads : loads (plain.nesting + 1) (Text.ofString "\x7b\x7d") = .ok (.dict []) := rfl
  intro text htext
  obtain rfl := Option.some.inj (hempty.symm.trans htext)
  refine ⟨fun h => (nomatch hloads.symm.trans h), fun items h => ?_⟩
  obtain rfl := Value.dict.inj (Except.ok.inj (hloads.symm.trans h))
  exact ⟨fun _ h => (nomatch h), fun _ h => (nomatch h), fun _ h => (nomatch h)⟩

/-- **An infinite priority**, `{"priority":Infinity,"updated_at":"u","id":"i"}`: what is raised
is an `OverflowError`. -/
theorem infinite_priority_escapes :
    decode plain (Text.ofString "eyJwcmlvcml0eSI6SW5maW5pdHksInVwZGF0ZWRfYXQiOiJ1IiwiaWQiOiJpIn0")
        = .error (.raised .overflowError) ∧
      ¬ Answers plain
        (Text.ofString "eyJwcmlvcml0eSI6SW5maW5pdHksInVwZGF0ZWRfYXQiOiJ1IiwiaWQiOiJpIn0") := by
  have hdecode : decode plain
      (Text.ofString "eyJwcmlvcml0eSI6SW5maW5pdHksInVwZGF0ZWRfYXQiOiJ1IiwiaWQiOiJpIn0")
        = .error (.raised .overflowError) := rfl
  refine ⟨hdecode, ?_⟩
  rintro (⟨_, h⟩ | h)
  · exact nomatch hdecode.symm.trans h
  · exact nomatch hdecode.symm.trans h

end CursorCodec
