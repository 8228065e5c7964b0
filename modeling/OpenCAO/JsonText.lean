import Mathlib.Data.Int.Notation
import Mathlib.Data.List.Nodup
import Mathlib.Data.List.Sort
import Mathlib.Data.String.Basic

/-!
# Canonical JSON

A JSON value has one *canonical text*: the members of every object sorted by
their names, no white space, and every character outside the printable ASCII
range escaped – the characters beyond the basic plane by a pair of surrogates.
Two values are the same when they differ in the order of members only, and the
canonical text says exactly that: equal texts are the texts of the same value.

The proof reads the text back. `parseValue` is a reader of JSON without
fractions, and what it reads from a printed value is that value
(`parseValue_print`); it never needs more fuel than the text is long. So
`loads` recovers the sorted value from its canonical text, and nothing more has
to be said about the printer.

Characters are Unicode scalar values. An escape of half a surrogate pair is
therefore not read, and neither is a number with a fraction or an exponent.
-/

/-- **JSON values** without fractions. The members of an object stand in the order in which
they were added. -/
inductive Json where
  | null
  | bool (b : Bool)
  | int (n : ℤ)
  | str (s : String)
  | arr (elements : List Json)
  | obj (members : List (String × Json))

namespace Json

/-- **Induction over a value**, through its elements and members. -/
theorem induct {P : Json → Prop} (null : P .null) (bool : ∀ b, P (.bool b))
    (int : ∀ n, P (.int n)) (str : ∀ s, P (.str s))
    (arr : ∀ xs, (∀ x ∈ xs, P x) → P (.arr xs)) (obj : ∀ ms, (∀ m ∈ ms, P m.2) → P (.obj ms)) :
    ∀ j, P j :=
  @Json.rec P (fun xs => ∀ x ∈ xs, P x) (fun ms => ∀ m ∈ ms, P m.2) (fun m => P m.2)
    null bool int str arr obj
    (fun _ h => by cases h) (fun _ _ hx hxs => List.forall_mem_cons.mpr ⟨hx, hxs⟩)
    (fun _ h => by cases h) (fun _ _ hm hms => List.forall_mem_cons.mpr ⟨hm, hms⟩)
    (fun _ _ hv => hv)

/-! ## The order of members -/

mutual

/-- **The value with its members sorted**, at every depth. -/
def sorted : Json → Json
  | .null => .null
  | .bool b => .bool b
  | .int n => .int n
  | .str s => .str s
  | .arr xs => .arr (sortedElements xs)
  | .obj ms => .obj ((sortedMembers ms).insertionSort fun a b => a.1 ≤ b.1)

/-- The elements of an array, sorted inside. -/
def sortedElements : List Json → List Json
  | [] => []
  | x :: xs => x.sorted :: sortedElements xs

/-- The members of an object, sorted inside. -/
def sortedMembers : List (String × Json) → List (String × Json)
  | [] => []
  | m :: ms => (m.1, m.2.sorted) :: sortedMembers ms

end

mutual

/-- **The values are the same**, whatever the order of their members: two objects have equally
many members, and each member of one has a member of the other of the same name and value. -/
def Same : Json → Json → Prop
  | .null, .null => True
  | .bool a, .bool b => a = b
  | .int m, .int n => m = n
  | .str s, .str t => s = t
  | .arr xs, .arr ys => SameElements xs ys
  | .obj ms, .obj ns => ms.length = ns.length ∧ SameMembers ms ns
  | _, _ => False

/-- The elements of two arrays are the same. -/
def SameElements : List Json → List Json → Prop
  | [], [] => True
  | x :: xs, y :: ys => x.Same y ∧ SameElements xs ys
  | _, _ => False

/-- The members of one object are members of another. -/
def SameMembers : List (String × Json) → List (String × Json) → Prop
  | [], _ => True
  | m :: ms, ns => (∃ n ∈ ns, n.1 = m.1 ∧ m.2.Same n.2) ∧ SameMembers ms ns

end

mutual

/-- **A value that can be built**: no object has two members of one name. -/
def Valid : Json → Prop
  | .null => True
  | .bool _ => True
  | .int _ => True
  | .str _ => True
  | .arr xs => ValidElements xs
  | .obj ms => (ms.map Prod.fst).Nodup ∧ ValidMembers ms

/-- The elements of an array can be built. -/
def ValidElements : List Json → Prop
  | [] => True
  | x :: xs => x.Valid ∧ ValidElements xs

/-- The members of an object can be built. -/
def ValidMembers : List (String × Json) → Prop
  | [] => True
  | m :: ms => m.2.Valid ∧ ValidMembers ms

end

theorem sortedElements_eq (xs : List Json) : sortedElements xs = xs.map sorted := by
  induction xs with
  | nil => rfl
  | cons x xs ih =>
    show x.sorted :: sortedElements xs = _
    rw [ih, List.map_cons]

/-- A member, sorted inside. -/
def sortedMember (m : String × Json) : String × Json := (m.1, m.2.sorted)

theorem sortedMembers_eq (ms : List (String × Json)) :
    sortedMembers ms = ms.map sortedMember := by
  induction ms with
  | nil => rfl
  | cons m ms ih =>
    show (m.1, m.2.sorted) :: sortedMembers ms = _
    rw [ih, List.map_cons]
    rfl

theorem validElements_iff {xs : List Json} : ValidElements xs ↔ ∀ x ∈ xs, x.Valid := by
  induction xs with
  | nil => simp [ValidElements]
  | cons x xs ih => simp [ValidElements, ih]

theorem validMembers_iff {ms : List (String × Json)} :
    ValidMembers ms ↔ ∀ m ∈ ms, m.2.Valid := by
  induction ms with
  | nil => simp [ValidMembers]
  | cons m ms ih => simp [ValidMembers, ih]

theorem sameMembers_iff {ms ns : List (String × Json)} :
    SameMembers ms ns ↔ ∀ m ∈ ms, ∃ n ∈ ns, n.1 = m.1 ∧ m.2.Same n.2 := by
  induction ms with
  | nil => simp [SameMembers]
  | cons m ms ih => rw [List.forall_mem_cons, ← ih, SameMembers]

/-- The members of a sorted object, in any order. -/
theorem perm_sorted (ms : List (String × Json)) :
    ((sortedMembers ms).insertionSort fun a b => a.1 ≤ b.1).Perm (ms.map sortedMember) := by
  rw [sortedMembers_eq]
  exact List.perm_insertionSort _ _

@[simp] theorem names_sorted (ms : List (String × Json)) :
    (ms.map sortedMember).map Prod.fst = ms.map Prod.fst := by
  rw [List.map_map]
  rfl

/-- Objects have the same sorted form when they have the same members, in any order. -/
theorem sorted_obj_eq_iff {ms ns : List (String × Json)} (hms : (ms.map Prod.fst).Nodup) :
    (Json.obj ms).sorted = (Json.obj ns).sorted ↔
      (ms.map sortedMember).Perm (ns.map sortedMember) := by
  constructor
  · intro h
    have h := Json.obj.inj h
    exact (perm_sorted ms).symm.trans (h ▸ perm_sorted ns)
  · intro h
    have hnames : ((ms.map sortedMember).map Prod.fst).Nodup := by rwa [names_sorted]
    show Json.obj _ = Json.obj _
    congr 1
    refine List.Perm.eq_of_pairwise (fun a b ha hb (hab : a.1 ≤ b.1) (hba : b.1 ≤ a.1) => ?_)
      (List.pairwise_insertionSort _ _) (List.pairwise_insertionSort _ _)
      ((perm_sorted ms).trans (h.trans (perm_sorted ns).symm))
    -- the order only compares names, but no two members have one name
    exact List.inj_on_of_nodup_map hnames ((perm_sorted ms).mem_iff.mp ha)
      (h.mem_iff.mpr ((perm_sorted ns).mem_iff.mp hb)) (le_antisymm hab hba)

/-- **Values that have one sorted form are the same.** -/
theorem same_of_sorted_eq : ∀ {a b : Json}, a.Valid → a.sorted = b.sorted → a.Same b := by
  intro a
  induction a using induct with
  | null => intro b _ h; cases b <;> trivial
  | bool _ => intro b _ h; cases b <;> first | exact Json.bool.inj h | cases h
  | int _ => intro b _ h; cases b <;> first | exact Json.int.inj h | cases h
  | str _ => intro b _ h; cases b <;> first | exact Json.str.inj h | cases h
  | arr xs ih =>
    intro b ha h
    cases b with
    | arr ys =>
      replace ha : ∀ x ∈ xs, x.Valid := validElements_iff.mp ha
      replace h : sortedElements xs = sortedElements ys := Json.arr.inj h
      show SameElements xs ys
      induction xs generalizing ys with
      | nil =>
        cases ys with
        | nil => trivial
        | cons y ys => cases h
      | cons x xs ihxs =>
        cases ys with
        | nil => cases h
        | cons y ys =>
          obtain ⟨hxy, hrest⟩ := List.cons.inj h
          rw [List.forall_mem_cons] at ih ha
          exact ⟨ih.1 ha.1 hxy, ihxs ih.2 ys ha.2 hrest⟩
    | _ => cases h
  | obj ms ih =>
    intro b ha h
    cases b with
    | obj ns =>
      have hperm := (sorted_obj_eq_iff ha.1).mp h
      refine ⟨by simpa using hperm.length_eq, sameMembers_iff.mpr fun m hm => ?_⟩
      obtain ⟨n, hn, hmn⟩ := List.mem_map.mp
        (hperm.mem_iff.mp (List.mem_map_of_mem (f := sortedMember) hm))
      have hname : (sortedMember n).1 = (sortedMember m).1 := congrArg Prod.fst hmn
      have hvalue : m.2.sorted = n.2.sorted := (congrArg Prod.snd hmn).symm
      exact ⟨n, hn, hname, ih m hm (validMembers_iff.mp ha.2 m hm) hvalue⟩
    | _ => cases h

/-- **Values that are the same have one sorted form.** -/
theorem sorted_eq_of_same : ∀ {a b : Json}, a.Valid → a.Same b → a.sorted = b.sorted := by
  intro a
  induction a using induct with
  | null => intro b _ h; cases b <;> first | rfl | cases h
  | bool _ => intro b _ h; cases b <;> first | exact congrArg Json.bool h | cases h
  | int _ => intro b _ h; cases b <;> first | exact congrArg Json.int h | cases h
  | str _ => intro b _ h; cases b <;> first | exact congrArg Json.str h | cases h
  | arr xs ih =>
    intro b ha h
    cases b with
    | arr ys =>
      replace ha : ∀ x ∈ xs, x.Valid := validElements_iff.mp ha
      replace h : SameElements xs ys := h
      show Json.arr (sortedElements xs) = Json.arr (sortedElements ys)
      congr 1
      induction xs generalizing ys with
      | nil =>
        cases ys with
        | nil => rfl
        | cons y ys => cases h
      | cons x xs ihxs =>
        cases ys with
        | nil => cases h
        | cons y ys =>
          rw [List.forall_mem_cons] at ih ha
          show x.sorted :: sortedElements xs = y.sorted :: sortedElements ys
          rw [ih.1 ha.1 h.1, ihxs ih.2 ys ha.2 h.2]
    | _ => cases h
  | obj ms ih =>
    intro b ha h
    cases b with
    | obj ns =>
      have hnames : ((ms.map sortedMember).map Prod.fst).Nodup := by
        rw [names_sorted]
        exact ha.1
      have hsub : ms.map sortedMember ⊆ ns.map sortedMember := by
        intro m' hm'
        obtain ⟨m, hm, rfl⟩ := List.mem_map.mp hm'
        obtain ⟨n, hn, hname, hvalue⟩ := sameMembers_iff.mp h.2 m hm
        have hsorted := ih m hm (validMembers_iff.mp ha.2 m hm) hvalue
        exact List.mem_map.mpr ⟨n, hn, Prod.ext hname hsorted.symm⟩
      refine (sorted_obj_eq_iff ha.1).mpr ((List.subperm_of_subset hnames.of_map hsub).perm_of_length_le ?_)
      rw [List.length_map, List.length_map, h.1]
    | _ => cases h

/-! ## The text -/

/-- The quotation mark. -/
def quote : Char := Char.ofNat 0x22

/-- The backslash. -/
def backslash : Char := Char.ofNat 0x5c

/-- The braces. -/
def openBrace : Char := Char.ofNat 0x7b
def closeBrace : Char := Char.ofNat 0x7d

/-- Four hexadecimal digits. -/
def hex4 (n : ℕ) : List Char :=
  [Nat.digitChar (n / 4096), Nat.digitChar (n / 256 % 16), Nat.digitChar (n / 16 % 16),
    Nat.digitChar (n % 16)]

/-- The escape of a code unit. -/
def escapeUnit (n : ℕ) : List Char := backslash :: 'u' :: hex4 n

/-- The escapes by a letter. -/
def letterOf (c : Char) : Option Char :=
  if c = quote then some quote
  else if c = backslash then some backslash
  else if c = Char.ofNat 0x0a then some 'n'
  else if c = Char.ofNat 0x0d then some 'r'
  else if c = Char.ofNat 0x09 then some 't'
  else if c = Char.ofNat 0x08 then some 'b'
  else if c = Char.ofNat 0x0c then some 'f'
  else none

/-- **A character of a string**, as it is printed: what is not printable ASCII is escaped, by
its one or two UTF-16 code units. -/
def escape (c : Char) : List Char :=
  match letterOf c with
  | some letter => [backslash, letter]
  | none =>
    if 0x20 ≤ c.toNat ∧ c.toNat ≤ 0x7e then [c]
    else if c.toNat < 0x10000 then escapeUnit c.toNat
    else escapeUnit (0xd800 + (c.toNat - 0x10000) / 1024) ++
      escapeUnit (0xdc00 + (c.toNat - 0x10000) % 1024)

/-- A string is printed between quotation marks. -/
def printString (s : String) : List Char := quote :: (s.toList.flatMap escape ++ [quote])

/-- A number in decimal. -/
def printInt : ℤ → List Char
  | .ofNat n => Nat.toDigits 10 n
  | .negSucc n => '-' :: Nat.toDigits 10 (n + 1)

mutual

/-- **The text of a value**, without white space, the members as they stand. -/
def print : Json → List Char
  | .null => "null".toList
  | .bool true => "true".toList
  | .bool false => "false".toList
  | .int n => printInt n
  | .str s => printString s
  | .arr xs => '[' :: (printElements xs ++ [']'])
  | .obj ms => openBrace :: (printMembers ms ++ [closeBrace])

/-- The elements of an array, between commas. -/
def printElements : List Json → List Char
  | [] => []
  | [x] => x.print
  | x :: y :: xs => x.print ++ ',' :: printElements (y :: xs)

/-- The members of an object, between commas. -/
def printMembers : List (String × Json) → List Char
  | [] => []
  | [m] => printString m.1 ++ ':' :: m.2.print
  | m :: n :: ms => printString m.1 ++ ':' :: (m.2.print ++ ',' :: printMembers (n :: ms))

end

/-- **The canonical text**, `json.dumps(…, ensure_ascii, sort_keys)` with the shortest
separators. -/
def canonicalJson (j : Json) : List Char := j.sorted.print

/-! ## Reading -/

/-- The value of a hexadecimal digit. -/
def hexValue (c : Char) : Option ℕ :=
  if '0' ≤ c ∧ c ≤ '9' then some (c.toNat - 48)
  else if 'a' ≤ c ∧ c ≤ 'f' then some (c.toNat - 87)
  else if 'A' ≤ c ∧ c ≤ 'F' then some (c.toNat - 55)
  else none

/-- Read four hexadecimal digits. -/
def unhex4 : List Char → Option (ℕ × List Char)
  | a :: b :: c :: d :: rest => do
    let a ← hexValue a
    let b ← hexValue b
    let c ← hexValue c
    let d ← hexValue d
    some (((a * 16 + b) * 16 + c) * 16 + d, rest)
  | _ => none

/-- Read the second half of a surrogate pair. -/
def scanLow (high : ℕ) : List Char → Option (Char × List Char)
  | b :: u :: rest =>
    if b = backslash ∧ u = 'u' then do
      let (low, rest) ← unhex4 rest
      if 0xdc00 ≤ low ∧ low < 0xe000 then
        some (Char.ofNat (0x10000 + (high - 0xd800) * 1024 + (low - 0xdc00)), rest)
      else none
    else none
  | _ => none

/-- Read an escape by code units. -/
def scanUnit (rest : List Char) : Option (Char × List Char) := do
  let (n, rest) ← unhex4 rest
  if 0xd800 ≤ n ∧ n < 0xdc00 then scanLow n rest
  else if 0xdc00 ≤ n ∧ n < 0xe000 then none
  else some (Char.ofNat n, rest)

/-- The character of an escape by a letter. -/
def charOf (letter : Char) : Option Char :=
  if letter = quote then some quote
  else if letter = backslash then some backslash
  else if letter = '/' then some '/'
  else if letter = 'b' then some (Char.ofNat 0x08)
  else if letter = 'f' then some (Char.ofNat 0x0c)
  else if letter = 'n' then some (Char.ofNat 0x0a)
  else if letter = 'r' then some (Char.ofNat 0x0d)
  else if letter = 't' then some (Char.ofNat 0x09)
  else none

/-- Read what follows a backslash. -/
def scanEscape : List Char → Option (Char × List Char)
  | [] => none
  | c :: rest => if c = 'u' then scanUnit rest else (charOf c).map fun a => (a, rest)

/-- Read one character of a string; control characters have to be escaped. -/
def scanChar : List Char → Option (Char × List Char)
  | [] => none
  | c :: rest =>
    if c = backslash then scanEscape rest
    else if c.toNat < 0x20 then none
    else some (c, rest)

/-- Read a string up to its closing quotation mark. -/
def scanString : ℕ → List Char → Option (List Char × List Char)
  | 0, _ => none
  | _ + 1, [] => none
  | fuel + 1, c :: rest =>
    if c = quote then some ([], rest)
    else do
      let (a, rest) ← scanChar (c :: rest)
      let (as, rest) ← scanString fuel rest
      some (a :: as, rest)

/-- Read a string after its opening quotation mark. -/
def parseString (cs : List Char) : Option (String × List Char) :=
  (scanString (cs.length + 1) cs).map fun r => (String.ofList r.1, r.2)

/-- White space. -/
def isSpace (c : Char) : Bool :=
  c = ' ' || c = Char.ofNat 0x09 || c = Char.ofNat 0x0a || c = Char.ofNat 0x0d

def skipSpace (cs : List Char) : List Char := cs.dropWhile isSpace

/-- The text goes on with a fraction or an exponent. -/
def isFraction : List Char → Bool
  | [] => false
  | c :: _ => c = '.' || c = 'e' || c = 'E'

/-- Read the digits of a number: nothing follows a leading zero. -/
def parseNat (cs : List Char) : Option (ℕ × List Char) :=
  match cs with
  | [] => none
  | c :: rest =>
    if c = '0' then if isFraction rest then none else some (0, rest)
    else if c.isDigit then
      if isFraction (cs.dropWhile Char.isDigit) then none
      else some (Nat.ofDigitChars 10 (cs.takeWhile Char.isDigit) 0, cs.dropWhile Char.isDigit)
    else none

/-- Read a number. -/
def parseInt : List Char → Option (ℤ × List Char)
  | [] => none
  | c :: rest =>
    if c = '-' then (parseNat rest).map fun r => (-(r.1 : ℤ), r.2)
    else (parseNat (c :: rest)).map fun r => ((r.1 : ℤ), r.2)

/-- Read a word. -/
def parseWord (word : String) (cs : List Char) : Option (List Char) :=
  if word.toList.isPrefixOf cs then some (cs.drop word.toList.length) else none

/-- A member is added to an object, or replaces the one of its name. -/
def put (ms : List (String × Json)) (m : String × Json) : List (String × Json) :=
  if m.1 ∈ ms.map Prod.fst then ms.map fun n => if n.1 = m.1 then m else n else ms ++ [m]

/-- The object of the members that were read. -/
def dict (ms : List (String × Json)) : List (String × Json) := ms.foldl put []

mutual

/-- **Read a value.** -/
def parseValue : ℕ → List Char → Option (Json × List Char)
  | 0, _ => none
  | fuel + 1, cs =>
    match skipSpace cs with
    | [] => none
    | c :: rest =>
      if c = quote then (parseString rest).map fun r => (.str r.1, r.2)
      else if c = '[' then
        if (skipSpace rest).head? = some ']' then some (.arr [], (skipSpace rest).tail)
        else (parseElements fuel rest).map fun r => (.arr r.1, r.2)
      else if c = openBrace then
        if (skipSpace rest).head? = some closeBrace then some (.obj [], (skipSpace rest).tail)
        else (parseMembers fuel rest).map fun r => (.obj (dict r.1), r.2)
      else if c = 'n' then (parseWord "null" (c :: rest)).map fun r => (.null, r)
      else if c = 't' then (parseWord "true" (c :: rest)).map fun r => (.bool true, r)
      else if c = 'f' then (parseWord "false" (c :: rest)).map fun r => (.bool false, r)
      else (parseInt (c :: rest)).map fun r => (.int r.1, r.2)

/-- Read the elements of an array, up to its closing bracket. -/
def parseElements : ℕ → List Char → Option (List Json × List Char)
  | 0, _ => none
  | fuel + 1, cs => do
    let (v, rest) ← parseValue fuel cs
    match skipSpace rest with
    | [] => none
    | c :: rest =>
      if c = ',' then (parseElements fuel rest).map fun r => (v :: r.1, r.2)
      else if c = ']' then some ([v], rest)
      else none

/-- Read the members of an object, up to its closing brace. -/
def parseMembers : ℕ → List Char → Option (List (String × Json) × List Char)
  | 0, _ => none
  | fuel + 1, cs =>
    match skipSpace cs with
    | [] => none
    | c :: rest =>
      if c = quote then do
        let (k, rest) ← parseString rest
        match skipSpace rest with
        | [] => none
        | c :: rest =>
          if c = ':' then do
            let (v, rest) ← parseValue fuel rest
            match skipSpace rest with
            | [] => none
            | c :: rest =>
              if c = ',' then (parseMembers fuel rest).map fun r => ((k, v) :: r.1, r.2)
              else if c = closeBrace then some ([(k, v)], rest)
              else none
          else none
      else none

end

/-- **Read a text**, `json.loads`. -/
def loads (cs : List Char) : Option Json :=
  match parseValue (cs.length + 1) cs with
  | none => none
  | some (v, rest) => if skipSpace rest = [] then some v else none

/-! ## Reading a printed value

Each part of the text is read back, whatever stands behind it. -/

theorem hexValue_digitChar : ∀ d < 16, hexValue (Nat.digitChar d) = some d := by
  decide

theorem unhex4_hex4 {n : ℕ} (h : n < 0x10000) (rest : List Char) :
    unhex4 (hex4 n ++ rest) = some (n, rest) := by
  show unhex4 (_ :: _ :: _ :: _ :: rest) = _
  rw [unhex4, hexValue_digitChar _ (by omega), hexValue_digitChar _ (by omega),
    hexValue_digitChar _ (by omega), hexValue_digitChar _ (by omega)]
  show some (_, rest) = _
  congr 2
  omega

theorem charOf_letterOf {c letter : Char} (h : letterOf c = some letter) :
    charOf letter = some c ∧ letter ≠ 'u' := by
  unfold letterOf at h
  split_ifs at h with h₁ h₂ h₃ h₄ h₅ h₆ h₇ <;> obtain rfl := Option.some.inj h <;> subst c <;> decide

/-- A scalar value beyond the surrogates, or before them. -/
theorem scalar_toNat (c : Char) : c.toNat < 0xd800 ∨ 0xe000 ≤ c.toNat ∧ c.toNat < 0x110000 := by
  rcases c.valid with h | h
  · exact .inl h
  · exact .inr ⟨by have := h.1; simp only [Char.toNat]; omega, h.2⟩

theorem scanUnit_hex4 {c : Char} (h : c.toNat < 0x10000) (rest : List Char) :
    scanUnit (hex4 c.toNat ++ rest) = some (c, rest) := by
  unfold scanUnit
  rw [unhex4_hex4 h]
  have hscalar := scalar_toNat c
  show (if _ then _ else if _ then none else some (Char.ofNat c.toNat, rest)) = _
  rw [if_neg (by omega), if_neg (by omega), Char.ofNat_toNat]

/-- A pair of surrogates is read. -/
theorem scanUnit_surrogates {high low : ℕ} (hhigh : 0xd800 ≤ high ∧ high < 0xdc00)
    (hlow : 0xdc00 ≤ low ∧ low < 0xe000) (rest : List Char) :
    scanUnit (hex4 high ++ (escapeUnit low ++ rest)) =
      some (Char.ofNat (0x10000 + (high - 0xd800) * 1024 + (low - 0xdc00)), rest) := by
  unfold scanUnit
  rw [unhex4_hex4 (by omega)]
  simp only [Option.bind_eq_bind, Option.bind_some]
  rw [if_pos hhigh, escapeUnit, List.cons_append, List.cons_append, scanLow, if_pos ⟨rfl, rfl⟩,
    unhex4_hex4 (by omega)]
  simp only [Option.bind_eq_bind, Option.bind_some]
  rw [if_pos hlow]

/-- A character beyond the basic plane is read from its pair of surrogates. -/
theorem scanUnit_pair {c : Char} (h : 0x10000 ≤ c.toNat) (rest : List Char) :
    scanUnit (hex4 (0xd800 + (c.toNat - 0x10000) / 1024) ++
      (escapeUnit (0xdc00 + (c.toNat - 0x10000) % 1024) ++ rest)) = some (c, rest) := by
  have hscalar := scalar_toNat c
  obtain ⟨v, hv⟩ : ∃ v, v = c.toNat - 0x10000 := ⟨_, rfl⟩
  rw [← hv, scanUnit_surrogates (by omega) (by omega)]
  have hvalue : 0x10000 + (0xd800 + v / 1024 - 0xd800) * 1024 + (0xdc00 + v % 1024 - 0xdc00) =
      c.toNat := by
    omega
  rw [hvalue, Char.ofNat_toNat]

theorem scanChar_escape (c : Char) (rest : List Char) :
    scanChar (escape c ++ rest) = some (c, rest) := by
  unfold escape
  cases hletter : letterOf c with
  | some letter =>
    obtain ⟨hchar, hu⟩ := charOf_letterOf hletter
    show scanChar (backslash :: letter :: rest) = _
    rw [scanChar, if_pos rfl, scanEscape, if_neg hu, hchar]
    rfl
  | none =>
    have hbackslash : c ≠ backslash := by
      rintro rfl
      cases hletter
    simp only
    split_ifs with hprintable hbasic
    · show scanChar (c :: rest) = _
      rw [scanChar, if_neg hbackslash, if_neg (by omega)]
    · show scanChar (backslash :: 'u' :: (hex4 c.toNat ++ rest)) = _
      rw [scanChar, if_pos rfl, scanEscape, if_pos rfl, scanUnit_hex4 hbasic]
    · show scanChar (backslash :: 'u' :: ((hex4 _ ++ escapeUnit _) ++ rest)) = _
      rw [scanChar, if_pos rfl, scanEscape, if_pos rfl, List.append_assoc, scanUnit_pair (by omega)]

/-- No printed character begins with a quotation mark. -/
theorem escape_head (c : Char) : ∃ d ds, escape c = d :: ds ∧ d ≠ quote := by
  unfold escape
  cases hletter : letterOf c with
  | some letter => exact ⟨backslash, [letter], rfl, by decide⟩
  | none =>
    have hquote : c ≠ quote := by
      rintro rfl
      cases hletter
    simp only
    split_ifs
    · exact ⟨c, [], rfl, hquote⟩
    · exact ⟨backslash, _, rfl, by decide⟩
    · exact ⟨backslash, _, rfl, by decide⟩

/-- A string is read back, however its characters were printed, if each of them is read back
and none begins with a quotation mark. -/
theorem scanString_of {print : Char → List Char}
    (hscan : ∀ c rest, scanChar (print c ++ rest) = some (c, rest))
    (hhead : ∀ c, ∃ d ds, print c = d :: ds ∧ d ≠ quote) (cs : List Char) (rest : List Char) :
    ∀ fuel, (cs.flatMap print).length < fuel →
      scanString fuel (cs.flatMap print ++ quote :: rest) = some (cs, rest) := by
  induction cs with
  | nil =>
    intro fuel hfuel
    obtain ⟨fuel, rfl⟩ := Nat.exists_eq_add_one_of_ne_zero (Nat.ne_of_gt hfuel)
    rfl
  | cons c cs ih =>
    intro fuel hfuel
    obtain ⟨d, ds, hprint, hquote⟩ := hhead c
    obtain ⟨fuel, rfl⟩ := Nat.exists_eq_add_one_of_ne_zero (Nat.ne_of_gt (Nat.zero_lt_of_lt hfuel))
    have hstep := hscan c (cs.flatMap print ++ quote :: rest)
    rw [List.flatMap_cons, List.length_append, hprint, List.length_cons] at hfuel
    rw [List.flatMap_cons, List.append_assoc]
    rw [hprint] at hstep ⊢
    show (if d = quote then _ else (scanChar (d :: ds ++ _)).bind _) = _
    rw [if_neg hquote, hstep]
    show (scanString fuel _).bind _ = _
    rw [ih fuel (by omega)]
    rfl

theorem parseString_of {print : Char → List Char}
    (hscan : ∀ c rest, scanChar (print c ++ rest) = some (c, rest))
    (hhead : ∀ c, ∃ d ds, print c = d :: ds ∧ d ≠ quote) (s : String) (rest : List Char) :
    parseString (s.toList.flatMap print ++ quote :: rest) = some (s, rest) := by
  unfold parseString
  rw [scanString_of hscan hhead s.toList rest _ (by rw [List.length_append]; omega)]
  show some (String.ofList s.toList, rest) = _
  rw [String.ofList_toList]

theorem parseString_print (s : String) (rest : List Char) :
    parseString (s.toList.flatMap escape ++ quote :: rest) = some (s, rest) :=
  parseString_of scanChar_escape escape_head s rest

/-- A number is complete where the text does not go on with a digit or a fraction. -/
def Stops (rest : List Char) : Prop := ∀ c ∈ rest.head?, c.isDigit = false ∧ isFraction [c] = false

theorem isFraction_of_stops {rest : List Char} (h : Stops rest) : isFraction rest = false := by
  cases rest with
  | nil => rfl
  | cons c rest => exact (h c rfl).2

/-- The first digit of a number is not zero. -/
theorem toDigits_head {n : ℕ} (h : 0 < n) : ∃ c cs, Nat.toDigits 10 n = c :: cs ∧ c ≠ '0' := by
  induction n using Nat.strong_induction_on with
  | _ n ih =>
    rw [Nat.toDigits_eq_if (by decide)]
    split_ifs with hlt
    · refine ⟨Nat.digitChar n, [], rfl, ?_⟩
      have hall : ∀ d < 10, 0 < d → Nat.digitChar d ≠ '0' := by decide
      exact hall n hlt h
    · obtain ⟨c, cs, hdigits, hne⟩ := ih (n / 10) (by omega) (by omega)
      rw [hdigits]
      exact ⟨c, cs ++ [Nat.digitChar (n % 10)], rfl, hne⟩

theorem parseNat_toDigits (n : ℕ) {rest : List Char} (hrest : Stops rest) :
    parseNat (Nat.toDigits 10 n ++ rest) = some (n, rest) := by
  rcases Nat.eq_zero_or_pos n with rfl | hn
  · rw [Nat.toDigits_zero]
    show parseNat ('0' :: rest) = _
    rw [parseNat, if_pos rfl, isFraction_of_stops hrest]
    rfl
  · obtain ⟨c, cs, hdigits, hne⟩ := toDigits_head hn
    have hall : ∀ d ∈ Nat.toDigits 10 n, d.isDigit = true := fun d hd =>
      Nat.isDigit_of_mem_toDigits (by decide) (by decide) hd
    have htake : (Nat.toDigits 10 n ++ rest).takeWhile Char.isDigit = Nat.toDigits 10 n := by
      rw [List.takeWhile_append_of_pos hall]
      cases rest with
      | nil => simp
      | cons d rest => rw [List.takeWhile_cons_of_neg (by simp [(hrest d rfl).1]), List.append_nil]
    have hdrop : (Nat.toDigits 10 n ++ rest).dropWhile Char.isDigit = rest := by
      rw [List.dropWhile_append_of_pos hall]
      cases rest with
      | nil => rfl
      | cons d rest => rw [List.dropWhile_cons_of_neg (by simp [(hrest d rfl).1])]
    have hvalue := @Nat.ofDigitChars_ten_toDigits n
    have hc : c.isDigit = true := hall c (by rw [hdigits]; exact List.mem_cons_self)
    rw [hdigits] at htake hdrop hvalue ⊢
    show (if c = '0' then _ else if c.isDigit = true then
      if isFraction ((c :: cs ++ rest).dropWhile Char.isDigit) then none
      else some (Nat.ofDigitChars 10 ((c :: cs ++ rest).takeWhile Char.isDigit) 0, _) else _) = _
    rw [if_neg hne, if_pos hc, hdrop, isFraction_of_stops hrest, htake, hvalue]
    rfl

theorem parseInt_print (n : ℤ) {rest : List Char} (hrest : Stops rest) :
    parseInt (printInt n ++ rest) = some (n, rest) := by
  cases n with
  | ofNat n =>
    have hnat := parseNat_toDigits n hrest
    have hne : Nat.toDigits 10 n ≠ [] := Nat.toDigits_ne_nil
    show parseInt (Nat.toDigits 10 n ++ rest) = _
    cases hdigits : Nat.toDigits 10 n with
    | nil => exact absurd hdigits hne
    | cons c cs =>
      have hc : c.isDigit = true := Nat.isDigit_of_mem_toDigits (b := 10) (n := n) (by decide)
        (by decide) (by rw [hdigits]; exact List.mem_cons_self)
      have hminus : c ≠ '-' := by
        rintro rfl
        cases hc
      rw [hdigits] at hnat
      show (if c = '-' then _ else (parseNat (c :: cs ++ rest)).map _) = _
      rw [if_neg hminus, hnat]
      rfl
  | negSucc n =>
    show parseInt ('-' :: (Nat.toDigits 10 (n + 1) ++ rest)) = _
    rw [parseInt, if_pos rfl, parseNat_toDigits (n + 1) hrest]
    rfl

/-! ### Values -/

/-- What a value can begin with. -/
structure Opens (cs : List Char) (c : Char) (rest : List Char) : Prop where
  eq : cs = c :: rest
  noSpace : isSpace c = false
  noBracket : c ≠ ']'

theorem opens_printInt (n : ℤ) : ∃ c cs, printInt n = c :: cs ∧ (c = '-' ∨ c.isDigit = true) := by
  cases n with
  | ofNat n =>
    show ∃ c cs, Nat.toDigits 10 n = c :: cs ∧ _
    cases hdigits : Nat.toDigits 10 n with
    | nil => exact absurd hdigits Nat.toDigits_ne_nil
    | cons c cs =>
      exact ⟨c, cs, rfl, .inr (Nat.isDigit_of_mem_toDigits (b := 10) (n := n) (by decide)
        (by decide) (by rw [hdigits]; exact List.mem_cons_self))⟩
  | negSucc n => exact ⟨'-', _, rfl, .inl rfl⟩

/-- Digits are none of the characters that the reader tells apart. -/
theorem ne_of_isDigit {c d : Char} (hc : c.isDigit = true) (hd : d.isDigit = false) : c ≠ d := by
  rintro rfl
  rw [hc] at hd
  cases hd

theorem isSpace_eq_false {c : Char} (h₁ : c ≠ ' ') (h₂ : c ≠ Char.ofNat 0x09)
    (h₃ : c ≠ Char.ofNat 0x0a) (h₄ : c ≠ Char.ofNat 0x0d) : isSpace c = false := by
  simp [isSpace, h₁, h₂, h₃, h₄]

theorem opens_print (j : Json) : ∃ c cs, Opens j.print c cs := by
  cases j with
  | null => exact ⟨'n', _, rfl, rfl, by decide⟩
  | bool b =>
    cases b with
    | true => exact ⟨'t', _, rfl, rfl, by decide⟩
    | false => exact ⟨'f', _, rfl, rfl, by decide⟩
  | int n =>
    obtain ⟨c, cs, hprint, rfl | hc⟩ := opens_printInt n
    · exact ⟨'-', cs, hprint, rfl, by decide⟩
    · exact ⟨c, cs, hprint, isSpace_eq_false (ne_of_isDigit hc rfl) (ne_of_isDigit hc rfl)
        (ne_of_isDigit hc rfl) (ne_of_isDigit hc rfl), ne_of_isDigit hc rfl⟩
  | str s => exact ⟨quote, _, rfl, rfl, by decide⟩
  | arr xs => exact ⟨'[', _, rfl, rfl, by decide⟩
  | obj ms => exact ⟨openBrace, _, rfl, rfl, by decide⟩

@[simp] theorem skipSpace_cons {c : Char} (h : isSpace c = false) (cs : List Char) :
    skipSpace (c :: cs) = c :: cs := by
  unfold skipSpace
  rw [List.dropWhile_cons_of_neg (by simp [h])]

theorem skipSpace_print (j : Json) (rest : List Char) :
    skipSpace (j.print ++ rest) = j.print ++ rest := by
  obtain ⟨c, cs, h⟩ := opens_print j
  rw [h.eq, List.cons_append, skipSpace_cons h.noSpace]

/-- The names of an object are there once, so building it again changes nothing. -/
theorem dict_of_nodup {ms : List (String × Json)} (h : (ms.map Prod.fst).Nodup) : dict ms = ms := by
  have hput : ∀ (ns ms : List (String × Json)), ((ns ++ ms).map Prod.fst).Nodup →
      ms.foldl put ns = ns ++ ms := by
    intro ns ms
    induction ms generalizing ns with
    | nil =>
      intro _
      rw [List.append_nil]
      rfl
    | cons m ms ih =>
      intro hnames
      have hnew : m.1 ∉ ns.map Prod.fst := by
        rw [List.map_append, List.map_cons] at hnames
        exact fun hm => (List.nodup_append.mp hnames).2.2 _ hm _ List.mem_cons_self rfl
      rw [List.foldl_cons, put, if_neg hnew, ih (ns ++ [m]) (by simpa using hnames),
        List.append_assoc]
      rfl
  exact hput [] ms h

/-- The text of an element or a member goes on with a comma or is closed. -/
theorem stops_cons {c : Char} (h : c.isDigit = false ∧ isFraction [c] = false)
    (rest : List Char) : Stops (c :: rest) := by
  intro d hd
  obtain rfl := Option.some.inj hd
  exact h

/-- What is read from the text of a value, whatever follows. -/
def ReadBack (j : Json) : Prop :=
  ∀ fuel rest, j.print.length ≤ fuel → Stops rest →
    parseValue fuel (j.print ++ rest) = some (j, rest)

theorem parseElements_print {xs : List Json} (hne : xs ≠ []) (hxs : ∀ x ∈ xs, ReadBack x)
    (rest : List Char) : ∀ fuel, (printElements xs).length < fuel →
      parseElements fuel (printElements xs ++ ']' :: rest) = some (xs, rest) := by
  induction xs with
  | nil => exact absurd rfl hne
  | cons x xs ih =>
    intro fuel hfuel
    obtain ⟨fuel, rfl⟩ := Nat.exists_eq_add_one_of_ne_zero (Nat.ne_of_gt (Nat.zero_lt_of_lt hfuel))
    rw [List.forall_mem_cons] at hxs
    cases xs with
    | nil =>
      rw [printElements] at hfuel ⊢
      rw [parseElements, hxs.1 fuel _ (by omega) (stops_cons ⟨rfl, rfl⟩ rest)]
      rfl
    | cons y xs =>
      rw [printElements, List.length_append, List.length_cons] at hfuel
      rw [printElements, List.append_assoc, List.cons_append, parseElements,
        hxs.1 fuel _ (by omega) (stops_cons ⟨rfl, rfl⟩ _)]
      show (parseElements fuel _).map _ = _
      rw [ih (List.cons_ne_nil y xs) hxs.2 fuel (by omega)]
      rfl

theorem parseMembers_print {ms : List (String × Json)} (hne : ms ≠ [])
    (hms : ∀ m ∈ ms, ReadBack m.2) (rest : List Char) :
    ∀ fuel, (printMembers ms).length < fuel →
      parseMembers fuel (printMembers ms ++ closeBrace :: rest) = some (ms, rest) := by
  induction ms with
  | nil => exact absurd rfl hne
  | cons m ms ih =>
    intro fuel hfuel
    obtain ⟨fuel, rfl⟩ := Nat.exists_eq_add_one_of_ne_zero (Nat.ne_of_gt (Nat.zero_lt_of_lt hfuel))
    rw [List.forall_mem_cons] at hms
    have hname : ∀ rest, parseString ((m.1.toList.flatMap escape ++ [quote]) ++ rest) =
        some (m.1, rest) := fun rest => by
      rw [List.append_assoc]
      exact parseString_print m.1 rest
    cases ms with
    | nil =>
      rw [printMembers, List.length_append, List.length_cons] at hfuel
      have hvalue := hms.1 fuel (closeBrace :: rest) (by omega) (stops_cons ⟨rfl, rfl⟩ rest)
      rw [printMembers, List.append_assoc, List.cons_append, printString, List.cons_append,
        parseMembers, skipSpace_cons rfl]
      simp only [if_true, hname, Option.bind_eq_bind, Option.bind_some]
      rw [skipSpace_cons rfl]
      simp only [if_true, hvalue, Option.bind_some]
      rfl
    | cons n ms =>
      rw [printMembers, List.length_append, List.length_cons, List.length_append,
        List.length_cons] at hfuel
      have hvalue := hms.1 fuel (',' :: (printMembers (n :: ms) ++ closeBrace :: rest)) (by omega)
        (stops_cons ⟨rfl, rfl⟩ _)
      rw [printMembers, List.append_assoc, List.cons_append, List.append_assoc, List.cons_append,
        printString, List.cons_append, parseMembers, skipSpace_cons rfl]
      simp only [if_true, hname, Option.bind_eq_bind, Option.bind_some]
      rw [skipSpace_cons rfl]
      simp only [if_true, hvalue, Option.bind_some]
      show (parseMembers fuel _).map _ = _
      rw [ih (List.cons_ne_nil n ms) hms.2 fuel (by omega)]
      rfl

theorem printElements_cons (x : Json) (xs : List Json) :
    ∃ t, printElements (x :: xs) = x.print ++ t := by
  cases xs with
  | nil => exact ⟨[], by rw [printElements, List.append_nil]⟩
  | cons y xs => exact ⟨_, by rw [printElements]⟩

theorem printMembers_cons (m : String × Json) (ms : List (String × Json)) :
    ∃ t, printMembers (m :: ms) = quote :: t := by
  cases ms with
  | nil => exact ⟨_, by rw [printMembers, printString, List.cons_append]⟩
  | cons n ms => exact ⟨_, by rw [printMembers, printString, List.cons_append]⟩

/-- **A value is read back from its text.** -/
theorem parseValue_print {j : Json} (hj : j.Valid) : ReadBack j := by
  induction j using induct with
  | null =>
    intro fuel rest hfuel _
    obtain ⟨fuel, rfl⟩ := Nat.exists_eq_add_one_of_ne_zero (Nat.ne_of_gt (Nat.zero_lt_of_lt hfuel))
    rfl
  | bool b =>
    intro fuel rest hfuel _
    cases b <;>
    · obtain ⟨fuel, rfl⟩ := Nat.exists_eq_add_one_of_ne_zero
        (Nat.ne_of_gt (Nat.zero_lt_of_lt hfuel))
      rfl
  | int n =>
    intro fuel rest hfuel hrest
    obtain ⟨c, cs, hprint, hc⟩ := opens_printInt n
    have hread := parseInt_print n hrest
    have hskip := skipSpace_print (.int n) rest
    rw [show (Json.int n).print = printInt n from rfl, hprint] at hfuel hskip ⊢
    obtain ⟨fuel, rfl⟩ := Nat.exists_eq_add_one_of_ne_zero (Nat.ne_of_gt (Nat.zero_lt_of_lt hfuel))
    have hne : ∀ d : Char, d.isDigit = false → d ≠ '-' → c ≠ d := by
      rintro d hd hminus rfl
      rcases hc with hc | hc
      · exact hminus hc
      · rw [hc] at hd
        cases hd
    rw [hprint] at hread
    rw [parseValue, hskip, List.cons_append]
    simp only [hne quote rfl (by decide), hne '[' rfl (by decide), hne openBrace rfl (by decide),
      hne 'n' rfl (by decide), hne 't' rfl (by decide), hne 'f' rfl (by decide), if_false]
    rw [List.cons_append] at hread
    rw [hread]
    rfl
  | str s =>
    intro fuel rest hfuel _
    obtain ⟨fuel, rfl⟩ := Nat.exists_eq_add_one_of_ne_zero (Nat.ne_of_gt (Nat.zero_lt_of_lt hfuel))
    show parseValue (fuel + 1) (quote :: ((s.toList.flatMap escape ++ [quote]) ++ rest)) = _
    rw [parseValue, skipSpace_cons rfl, List.append_assoc]
    simp only [if_true]
    rw [show [quote] ++ rest = quote :: rest from rfl, parseString_print]
    rfl
  | arr xs ih =>
    intro fuel rest hfuel _
    have hxs : ∀ x ∈ xs, ReadBack x := fun x hx => ih x hx (validElements_iff.mp hj x hx)
    obtain ⟨fuel, rfl⟩ := Nat.exists_eq_add_one_of_ne_zero (Nat.ne_of_gt (Nat.zero_lt_of_lt hfuel))
    rw [print, List.length_cons, List.length_append, List.length_singleton] at hfuel
    rw [print, List.cons_append, List.append_assoc, parseValue, skipSpace_cons rfl]
    simp only [show '[' ≠ quote by decide, if_true, if_false]
    cases xs with
    | nil => rfl
    | cons x xs =>
      obtain ⟨c, cs, hopens⟩ := opens_print x
      obtain ⟨t, ht⟩ := printElements_cons x xs
      have hhead : (skipSpace (printElements (x :: xs) ++ ([']'] ++ rest))).head? ≠ some ']' := by
        rw [ht, List.append_assoc, skipSpace_print, hopens.eq]
        exact fun h => hopens.noBracket (Option.some.inj h)
      rw [if_neg hhead]
      show (parseElements fuel (_ ++ ']' :: rest)).map _ = _
      rw [parseElements_print (List.cons_ne_nil x xs) hxs rest fuel (by omega)]
      rfl
  | obj ms ih =>
    intro fuel rest hfuel _
    have hms : ∀ m ∈ ms, ReadBack m.2 := fun m hm => ih m hm (validMembers_iff.mp hj.2 m hm)
    obtain ⟨fuel, rfl⟩ := Nat.exists_eq_add_one_of_ne_zero (Nat.ne_of_gt (Nat.zero_lt_of_lt hfuel))
    rw [print, List.length_cons, List.length_append, List.length_singleton] at hfuel
    rw [print, List.cons_append, List.append_assoc, parseValue, skipSpace_cons rfl]
    simp only [show openBrace ≠ quote by decide, show openBrace ≠ '[' by decide, if_true, if_false]
    cases ms with
    | nil => rfl
    | cons m ms =>
      obtain ⟨t, ht⟩ := printMembers_cons m ms
      have hhead : (skipSpace (printMembers (m :: ms) ++ ([closeBrace] ++ rest))).head? ≠
          some closeBrace := by
        rw [ht, List.cons_append, skipSpace_cons rfl]
        exact fun h => absurd (Option.some.inj h) (by decide)
      rw [if_neg hhead]
      show (parseMembers fuel (_ ++ closeBrace :: rest)).map _ = _
      rw [parseMembers_print (List.cons_ne_nil m ms) hms rest fuel (by omega)]
      show some (Json.obj (dict (m :: ms)), rest) = _
      rw [dict_of_nodup hj.1]

/-- A text that is read whole. -/
theorem loads_print {j : Json} (hj : j.Valid) : loads j.print = some j := by
  have hread := parseValue_print hj (j.print.length + 1) [] (Nat.le_succ _) (fun c hc => by cases hc)
  rw [List.append_nil] at hread
  unfold loads
  rw [hread]
  rfl

/-- Sorting keeps the names of every object apart. -/
theorem valid_sorted {j : Json} (hj : j.Valid) : j.sorted.Valid := by
  induction j using induct with
  | null => trivial
  | bool b => trivial
  | int n => trivial
  | str s => trivial
  | arr xs ih =>
    show ValidElements (sortedElements xs)
    rw [sortedElements_eq, validElements_iff]
    intro x' hx'
    obtain ⟨x, hx, rfl⟩ := List.mem_map.mp hx'
    exact ih x hx (validElements_iff.mp hj x hx)
  | obj ms ih =>
    refine ⟨?_, validMembers_iff.mpr fun m' hm' => ?_⟩
    · rw [((perm_sorted ms).map Prod.fst).nodup_iff, names_sorted]
      exact hj.1
    · obtain ⟨m, hm, rfl⟩ := List.mem_map.mp ((perm_sorted ms).mem_iff.mp hm')
      exact ih m hm (validMembers_iff.mp hj.2 m hm)

/-- Sorting twice is sorting once. -/
theorem sorted_sorted {j : Json} (hj : j.Valid) : j.sorted.sorted = j.sorted := by
  induction j using induct with
  | null => rfl
  | bool b => rfl
  | int n => rfl
  | str s => rfl
  | arr xs ih =>
    show Json.arr (sortedElements (sortedElements xs)) = Json.arr (sortedElements xs)
    rw [sortedElements_eq, sortedElements_eq, List.map_map]
    congr 1
    exact List.map_congr_left fun x hx => ih x hx (validElements_iff.mp hj x hx)
  | obj ms ih =>
    refine (sorted_obj_eq_iff ?_).mpr ?_
    · rw [((perm_sorted ms).map Prod.fst).nodup_iff, names_sorted]
      exact hj.1
    · refine ((perm_sorted ms).map sortedMember).trans (.of_eq ?_)
      rw [List.map_map]
      refine List.map_congr_left fun m hm => ?_
      exact Prod.ext rfl (ih m hm (validMembers_iff.mp hj.2 m hm))

/-- **The canonical text is read as the sorted value.** -/
theorem loads_canonicalJson {j : Json} (hj : j.Valid) : loads (canonicalJson j) = some j.sorted :=
  loads_print (valid_sorted hj)

/-- **Equal canonical texts are texts of one value**, and conversely. -/
theorem canonicalJson_eq_iff {a b : Json} (ha : a.Valid) (hb : b.Valid) :
    canonicalJson a = canonicalJson b ↔ a.sorted = b.sorted := by
  constructor
  · intro h
    have hread := loads_canonicalJson ha
    rw [h, loads_canonicalJson hb] at hread
    exact (Option.some.inj hread).symm
  · intro h
    unfold canonicalJson
    rw [h]

end Json
