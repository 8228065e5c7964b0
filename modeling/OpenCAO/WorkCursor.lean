import OpenCAO.Base64
import OpenCAO.JsonText
import OpenCAO.Utf8

/-!
# The cursor of a listing of Works

A page of Works says where the next one begins by the last Work it lists: by its priority,
the instant of its last change, and its identifier. They are written down as canonical JSON,
in UTF-8, in the digits of Base64 for URLs and without the padding. Whoever reads the cursor
undoes one after the other, and gets what was written (`decode_encode`).

Characters beyond ASCII are not escaped here, so the text is not the one that `Json.print`
has; it is read back by the same reader.
-/

/-- **What a cursor says of a Work.** -/
structure WorkCursor where
  priority : ℤ
  updatedAt : String
  id : String
  deriving DecidableEq, Repr

namespace WorkCursor

open Json (quote backslash openBrace closeBrace parseMembers parseValue skipSpace)

/-! ## Writing -/

/-- A character of a string, with `ensure_ascii=False`. -/
def escape (c : Char) : List Char :=
  match Json.letterOf c with
  | some letter => [backslash, letter]
  | none => if c.toNat < 0x20 then Json.escapeUnit c.toNat else [c]

/-- A string, between quotation marks. -/
def printString (s : String) : List Char := quote :: (s.toList.flatMap escape ++ [quote])

/-- A member of an object, and what follows it. -/
def printMember (name : String) (value rest : List Char) : List Char :=
  printString name ++ ':' :: (value ++ rest)

/-- **`canonical_json`** of a cursor. -/
def print (c : WorkCursor) : List Char :=
  openBrace :: printMember "id" (printString c.id)
    (',' :: printMember "priority" (Json.printInt c.priority)
      (',' :: printMember "updated_at" (printString c.updatedAt) [closeBrace]))

/-- **`_encode_work_cursor`**. -/
def encode (c : WorkCursor) : List Char :=
  Base64.unpadded (Base64.encode (c.print.flatMap fun a => Utf8.encodeChar a.toNat))

/-! ## Reading -/

/-- `int` and `str` of a JSON value that is no integer and no string. -/
structure Conversions where
  int : Json → Option ℤ
  str : Json → String

/-- `int`. -/
def Conversions.toInt (conv : Conversions) : Json → Option ℤ
  | .int n => some n
  | v => conv.int v

/-- `str`. -/
def Conversions.toStr (conv : Conversions) : Json → String
  | .str s => s
  | v => conv.str v

/-- The member of an object. -/
def member? (members : List (String × Json)) (name : String) : Option Json :=
  (members.find? fun m => m.1 = name).map Prod.snd

/-- **`_decode_work_cursor`**; what it does not take is an invalid cursor. -/
def decode (conv : Conversions) (cursor : List Char) : Option WorkCursor := do
  let bytes ← Base64.decode (Base64.padded cursor)
  let text ← Utf8.decode bytes
  match ← Json.loads (text.map Char.ofNat) with
  | .obj payload => do
    let priority ← conv.toInt (← member? payload "priority")
    let updatedAt := conv.toStr (← member? payload "updated_at")
    let id := conv.toStr (← member? payload "id")
    if updatedAt = "" ∨ id = "" then none else some ⟨priority, updatedAt, id⟩
  | _ => none

/-! ## Reading back -/

theorem scanChar_escape (c : Char) (rest : List Char) :
    Json.scanChar (escape c ++ rest) = some (c, rest) := by
  unfold escape
  cases hletter : Json.letterOf c with
  | some letter =>
    have hescape := Json.scanChar_escape c rest
    unfold Json.escape at hescape
    rw [hletter] at hescape
    exact hescape
  | none =>
    have hbackslash : c ≠ backslash := by
      rintro rfl
      cases hletter
    dsimp only
    split_ifs with hcontrol
    · show Json.scanChar (backslash :: 'u' :: (Json.hex4 c.toNat ++ rest)) = _
      rw [Json.scanChar, if_pos rfl, Json.scanEscape, if_pos rfl,
        Json.scanUnit_hex4 (by omega)]
    · show Json.scanChar (c :: rest) = _
      rw [Json.scanChar, if_neg hbackslash, if_neg hcontrol]

theorem escape_head (c : Char) : ∃ d ds, escape c = d :: ds ∧ d ≠ quote := by
  unfold escape
  cases hletter : Json.letterOf c with
  | some letter => exact ⟨backslash, [letter], rfl, by decide⟩
  | none =>
    have hquote : c ≠ quote := by
      rintro rfl
      cases hletter
    dsimp only
    split_ifs
    · exact ⟨backslash, _, rfl, by decide⟩
    · exact ⟨c, [], rfl, hquote⟩

theorem parseString_print (s : String) (rest : List Char) :
    Json.parseString ((s.toList.flatMap escape ++ [quote]) ++ rest) = some (s, rest) := by
  rw [List.append_assoc]
  exact Json.parseString_of scanChar_escape escape_head s rest

/-- A string is read back as a value. -/
theorem parseValue_string (s : String) (fuel : ℕ) (rest : List Char) :
    parseValue (fuel + 1) (printString s ++ rest) = some (.str s, rest) := by
  rw [printString, List.cons_append, parseValue, Json.skipSpace_cons rfl]
  simp only [if_true, parseString_print]
  rfl

/-- A number is read back as a value. -/
theorem parseValue_int (n : ℤ) {fuel : ℕ} (hfuel : (Json.printInt n).length ≤ fuel)
    {rest : List Char} (hrest : Json.Stops rest) :
    parseValue fuel (Json.printInt n ++ rest) = some (.int n, rest) :=
  Json.parseValue_print (j := .int n) trivial fuel rest hfuel hrest

/-- A member is read back, and then the others. -/
theorem parseMembers_member (name : String) {value rest : List Char} {v : Json} {fuel : ℕ}
    (hvalue : parseValue fuel (value ++ ',' :: rest) = some (v, ',' :: rest)) :
    parseMembers (fuel + 1) (printMember name value (',' :: rest))
      = (parseMembers fuel rest).map fun r => ((name, v) :: r.1, r.2) := by
  rw [printMember, printString, List.cons_append, parseMembers, Json.skipSpace_cons rfl]
  simp only [if_true, parseString_print, Option.bind_eq_bind, Option.bind_some]
  rw [Json.skipSpace_cons rfl]
  simp only [if_true, hvalue, Option.bind_some]
  rfl

/-- The last member is read back. -/
theorem parseMembers_last (name : String) {value rest : List Char} {v : Json} {fuel : ℕ}
    (hvalue : parseValue fuel (value ++ closeBrace :: rest) = some (v, closeBrace :: rest)) :
    parseMembers (fuel + 1) (printMember name value (closeBrace :: rest))
      = some ([(name, v)], rest) := by
  rw [printMember, printString, List.cons_append, parseMembers, Json.skipSpace_cons rfl]
  simp only [if_true, parseString_print, Option.bind_eq_bind, Option.bind_some]
  rw [Json.skipSpace_cons rfl]
  simp only [if_true, hvalue, Option.bind_some]
  rfl

/-- The members of a cursor are read back. -/
theorem parseMembers_print (c : WorkCursor) {fuel : ℕ}
    (hfuel : (Json.printInt c.priority).length ≤ fuel) :
    parseMembers (fuel + 4) (printMember "id" (printString c.id)
      (',' :: printMember "priority" (Json.printInt c.priority)
        (',' :: printMember "updated_at" (printString c.updatedAt) [closeBrace])))
      = some ([("id", .str c.id), ("priority", .int c.priority),
          ("updated_at", .str c.updatedAt)], []) := by
  rw [parseMembers_member "id" (parseValue_string c.id (fuel + 2) _),
    parseMembers_member "priority" (parseValue_int c.priority (Nat.le_add_right_of_le hfuel)
      (Json.stops_cons ⟨rfl, rfl⟩ _)),
    parseMembers_last "updated_at" (parseValue_string c.updatedAt fuel _)]
  rfl

/-- **The text of a cursor is read back.** -/
theorem loads_print (c : WorkCursor) : Json.loads c.print =
    some (.obj [("id", .str c.id), ("priority", .int c.priority),
      ("updated_at", .str c.updatedAt)]) := by
  have hlength : (Json.printInt c.priority).length + 4 ≤ c.print.length := by
    simp [print, printMember, printString]
    omega
  obtain ⟨fuel, hfuel⟩ := Nat.exists_eq_add_of_le' ((Nat.le_add_left 4 _).trans hlength)
  have hread : parseValue (c.print.length + 1) c.print =
      some (.obj (Json.dict [("id", .str c.id), ("priority", .int c.priority),
        ("updated_at", .str c.updatedAt)]), []) := by
    rw [hfuel]
    conv_lhs => rw [print]
    rw [parseValue, Json.skipSpace_cons rfl]
    simp only [show openBrace ≠ quote by decide, show openBrace ≠ '[' by decide, if_true, if_false]
    rw [if_neg, parseMembers_print c (by omega)]
    · rfl
    · rw [printMember, printString, List.cons_append, Json.skipSpace_cons rfl]
      exact fun h => absurd (Option.some.inj h) (by decide)
  have hnodup : (List.map Prod.fst [("id", Json.str c.id), ("priority", Json.int c.priority),
      ("updated_at", Json.str c.updatedAt)]).Nodup := by
    show ["id", "priority", "updated_at"].Nodup
    decide
  unfold Json.loads
  rw [hread, Json.dict_of_nodup hnodup]
  rfl

/-- A character is a code point that is no half of a surrogate pair. -/
theorem isScalar_toNat (a : Char) : Utf8.isScalar a.toNat = true := by
  have := Json.scalar_toNat a
  simp only [Utf8.isScalar, Bool.and_eq_true, Bool.or_eq_true, decide_eq_true_eq]
  omega

/-- **A cursor is read back from its text**, if it has the identifier and the instant of a
Work. -/
theorem decode_encode (conv : Conversions) {c : WorkCursor} (hid : c.id ≠ "")
    (hupdated : c.updatedAt ≠ "") : decode conv c.encode = some c := by
  have hutf8 : Utf8.decode (c.print.flatMap fun a => Utf8.encodeChar a.toNat)
      = some (c.print.map Char.toNat) := by
    refine Utf8.decode_of_encode ?_
    unfold Utf8.encode
    rw [if_pos (by simp [isScalar_toNat]), List.flatMap_map]
  have hchars : (c.print.map Char.toNat).map Char.ofNat = c.print := by
    rw [List.map_map]
    exact (List.map_congr_left fun a _ => Char.ofNat_toNat a).trans (List.map_id _)
  unfold decode encode
  rw [Base64.decode_encode]
  simp only [Option.bind_eq_bind, Option.bind_some, hutf8, hchars, loads_print]
  show (if c.updatedAt = "" ∨ c.id = "" then none else some c) = some c
  rw [if_neg (by simp [hid, hupdated])]

/-- A cursor has a text. -/
theorem encode_ne_nil (c : WorkCursor) : c.encode ≠ [] := by
  intro hnil
  have hread : Base64.decode (Base64.padded c.encode) = _ := Base64.decode_encode _
  rw [hnil] at hread
  have hempty : c.print.flatMap (fun a => Utf8.encodeChar a.toNat) = [] :=
    (Option.some.inj hread).symm
  rw [List.flatMap_eq_nil_iff] at hempty
  exact absurd (hempty openBrace (by rw [print]; exact List.mem_cons_self)) (by decide)

end WorkCursor
