import Mathlib.Data.List.DropRight
import Mathlib.Data.List.Basic

/-!
# Texts between Python and SQLite

A Python `str` is a list of code points, and any code point can stand in it. A
column of SQLite is stricter. What is bound to it is encoded in UTF-8 first, and
that fails for the halves of a surrogate pair; and `length` stops at the first
NUL, so that a text which is not empty in Python may have the length `0` in a
`CHECK`. `trim` moreover takes off blanks only, where `str.strip` takes off every
white space.
-/

/-- **A text**: the code points of a `str`. -/
abbrev Text := List ℕ

instance : LawfulBEq Text := inferInstance

namespace Text

/-- The text of a literal. -/
def ofString (s : String) : Text := s.toList.map Char.toNat

/-! ## Python -/

/-- `str.isspace` of one code point. -/
def isSpace (c : ℕ) : Bool :=
  (9 ≤ c && c ≤ 13) || (0x1c ≤ c && c ≤ 0x20) || c == 0x85 || c == 0xa0 || c == 0x1680 ||
    (0x2000 ≤ c && c ≤ 0x200a) || c == 0x2028 || c == 0x2029 || c == 0x202f || c == 0x205f ||
    c == 0x3000

/-- `str.strip`. -/
def strip (t : Text) : Text := (t.dropWhile isSpace).rdropWhile isSpace

/-- `str.split`: the words between white space. -/
def split (t : Text) : List Text := (t.splitOnP isSpace).filter (· ≠ [])

/-- `" ".join`. -/
def join (ts : List Text) : Text := [0x20].intercalate ts

/-- `str.casefold`, by the folding of each code point. -/
def casefold (fold : ℕ → List ℕ) (t : Text) : Text := t.flatMap fold

/-- `" ".join(t.split()).casefold()`. -/
def normalize (fold : ℕ → List ℕ) (t : Text) : Text := casefold fold (join (split t))

/-- White space is between words. -/
theorem split_append_cons (t u : Text) {c : ℕ} (hc : isSpace c = true) :
    split (t ++ c :: u) = split t ++ split u := by
  unfold split
  rw [List.splitOnP_append_cons t u hc, List.filter_append]

theorem split_dropWhile (t : Text) : split (t.dropWhile isSpace) = split t := by
  induction t with
  | nil => rfl
  | cons c t ih =>
    by_cases hc : isSpace c = true
    · rw [List.dropWhile_cons_of_pos hc, ih]
      exact (split_append_cons [] t hc).symm
    · rw [List.dropWhile_cons_of_neg hc]

theorem split_rdropWhile (t : Text) : split (t.rdropWhile isSpace) = split t := by
  induction t using List.reverseRecOn with
  | nil => rfl
  | append_singleton t c ih =>
    by_cases hc : isSpace c = true
    · rw [List.rdropWhile_concat_pos isSpace t c hc, ih, split_append_cons t [] hc]
      exact (List.append_nil _).symm
    · rw [List.rdropWhile_concat_neg isSpace t c hc]

/-- **The white space around a text is lost in normalizing anyway.** -/
theorem normalize_strip (fold : ℕ → List ℕ) (t : Text) :
    normalize fold (strip t) = normalize fold t := by
  unfold normalize strip
  rw [split_rdropWhile, split_dropWhile]

/-! ### Lines -/

/-- A line break, as `str.splitlines` has them. -/
def isLineBreak (c : ℕ) : Bool :=
  (10 ≤ c && c ≤ 13) || (0x1c ≤ c && c ≤ 0x1e) || c == 0x85 || c == 0x2028 || c == 0x2029

/-- The lines of a text, with what was read of the present one. -/
def splitlinesFrom (line : Text) : Text → List Text
  | [] => if line = [] then [] else [line]
  | 13 :: 10 :: t => line :: splitlinesFrom [] t
  | c :: t => if isLineBreak c then line :: splitlinesFrom [] t else splitlinesFrom (line ++ [c]) t

/-- `str.splitlines`. -/
def splitlines (t : Text) : List Text := splitlinesFrom [] t

/-- Line ends as a file in text mode is read: each of them is a newline. -/
def universalNewlines : Text → Text
  | [] => []
  | 13 :: 10 :: t => 10 :: universalNewlines t
  | c :: t => (if c = 13 then 10 else c) :: universalNewlines t

/-- `"\n".join`. -/
def joinLines (ts : List Text) : Text := [10].intercalate ts

theorem mem_joinLines {ts : List Text} {c : ℕ} (h : c ∈ joinLines ts) :
    c = 10 ∨ ∃ t ∈ ts, c ∈ t := by
  unfold joinLines at h
  induction ts with
  | nil => cases h
  | cons t ts ih =>
    cases ts with
    | nil => exact .inr ⟨t, List.mem_cons_self, by simpa using h⟩
    | cons u us =>
      rw [List.intercalate_cons_cons, List.append_assoc, List.mem_append, List.singleton_append,
        List.mem_cons] at h
      rcases h with h | rfl | h
      · exact .inr ⟨t, List.mem_cons_self, h⟩
      · exact .inl rfl
      · exact (ih h).imp_right fun ⟨v, hv, hc⟩ => ⟨v, List.mem_cons_of_mem t hv, hc⟩

/-- The text has no line break. -/
def Single (t : Text) : Prop := ∀ c ∈ t, isLineBreak c = false

instance (t : Text) : Decidable (Single t) :=
  inferInstanceAs (Decidable (∀ c ∈ t, isLineBreak c = false))

theorem isSpace_of_isLineBreak {c : ℕ} (h : isLineBreak c = true) : isSpace c = true := by
  simp only [isLineBreak, isSpace, Bool.or_eq_true, Bool.and_eq_true, decide_eq_true_eq,
    beq_iff_eq] at h ⊢
  omega

theorem Single.append {t u : Text} (ht : Single t) (hu : Single u) : Single (t ++ u) :=
  fun c hc => (List.mem_append.mp hc).elim (ht c) (hu c)

theorem Single.of_subset {t u : Text} (hu : Single u) (h : t ⊆ u) : Single t :=
  fun c hc => hu c (h hc)

theorem Single.newline_notMem {t : Text} (ht : Single t) : 10 ∉ t := fun h => by
  have := ht 10 h
  cases this

/-- One letter that does not end a line. -/
theorem splitlinesFrom_cons (line t : Text) {c : ℕ} (hc : isLineBreak c = false) :
    splitlinesFrom line (c :: t) = splitlinesFrom (line ++ [c]) t := by
  rw [splitlinesFrom, if_neg (by simp [hc])]
  rintro t' rfl
  cases hc

theorem splitlinesFrom_append (line t : Text) {u : Text} (hu : Single u) :
    splitlinesFrom line (u ++ t) = splitlinesFrom (line ++ u) t := by
  induction u generalizing line with
  | nil => simp
  | cons c u ih =>
    rw [List.cons_append, splitlinesFrom_cons _ _ (hu c List.mem_cons_self),
      ih _ fun d hd => hu d (List.mem_cons_of_mem c hd), List.append_assoc, List.singleton_append]

/-- A newline ends a line. -/
theorem splitlinesFrom_newline (line t : Text) :
    splitlinesFrom line (10 :: t) = line :: splitlinesFrom [] t := by
  rw [splitlinesFrom, if_pos (show isLineBreak 10 = true from rfl)]
  exact fun _ h => by cases h

/-- **Lines that were joined are split again.** -/
theorem splitlines_joinLines {ts : List Text} (hts : ∀ t ∈ ts, Single t ∧ t ≠ []) :
    splitlines (joinLines ts) = ts := by
  unfold splitlines joinLines
  induction ts with
  | nil => rfl
  | cons t ts ih =>
    obtain ⟨⟨hsingle, hne⟩, hrest⟩ := List.forall_mem_cons.mp hts
    cases ts with
    | nil =>
      rw [List.intercalate_singleton, ← List.append_nil t, splitlinesFrom_append _ _ hsingle]
      simp [splitlinesFrom, hne]
    | cons u us =>
      rw [List.intercalate_cons_cons, List.append_assoc, splitlinesFrom_append _ _ hsingle,
        List.singleton_append, splitlinesFrom_newline, ih hrest, List.nil_append]

theorem single_of_mem_splitlinesFrom {line t u : Text} (hline : Single line)
    (hu : u ∈ splitlinesFrom line t) : Single u := by
  induction line, t using splitlinesFrom.induct with
  | case1 => simp [splitlinesFrom] at hu
  | case2 line hne =>
    rw [splitlinesFrom, if_neg hne, List.mem_singleton] at hu
    exact hu ▸ hline
  | case3 line t ih =>
    rw [splitlinesFrom] at hu
    rcases List.mem_cons.mp hu with rfl | hu
    · exact hline
    · exact ih (fun _ h => by cases h) hu
  | case4 line c t hcr hbreak ih =>
    rw [splitlinesFrom, if_pos hbreak] at hu
    · rcases List.mem_cons.mp hu with rfl | hu
      · exact hline
      · exact ih (fun _ h => by cases h) hu
    · exact hcr
  | case5 line c t hcr hbreak ih =>
    rw [splitlinesFrom, if_neg hbreak] at hu
    · refine ih (hline.append fun d hd => ?_) hu
      rw [List.mem_singleton.mp hd]
      simpa using hbreak
    · exact hcr

/-- **A line has no line break.** -/
theorem single_of_mem_splitlines {t u : Text} (hu : u ∈ splitlines t) : Single u :=
  single_of_mem_splitlinesFrom (fun _ h => by cases h) hu

theorem universalNewlines_of_notMem {t : Text} (h : 13 ∉ t) : universalNewlines t = t := by
  induction t with
  | nil => rfl
  | cons c t ih =>
    obtain ⟨hc, ht⟩ := not_or.mp (fun h' => h (List.mem_cons.mpr h'))
    rw [universalNewlines, if_neg (Ne.symm hc), ih ht]
    rintro t' rfl
    exact absurd rfl hc

/-! ### White space -/

/-- **A text as `" ".join(t.split())` leaves it**, if anything is left: blanks are the only white
space, and they stand inside. -/
structure Line (t : Text) : Prop where
  ne : t ≠ []
  blank : ∀ c ∈ t, isSpace c = true → c = 0x20
  head : ∀ c ∈ t.head?, isSpace c = false
  last : ∀ c ∈ t.getLast?, isSpace c = false

theorem Line.single {t : Text} (h : Line t) : Single t := fun c hc => by
  cases hbreak : isLineBreak c with
  | false => rfl
  | true =>
    obtain rfl := h.blank c hc (isSpace_of_isLineBreak hbreak)
    cases hbreak

/-- No white space stands in a word. -/
theorem isSpace_of_mem_splitOnP {t w : Text} (hw : w ∈ t.splitOnP isSpace) :
    ∀ c ∈ w, isSpace c = false := by
  induction t generalizing w with
  | nil =>
    rw [List.splitOnP_nil, List.mem_singleton] at hw
    simp [hw]
  | cons d t ih =>
    rw [List.splitOnP_cons_eq_if_modifyHead] at hw
    split at hw
    · rcases List.mem_cons.mp hw with rfl | hw
      · simp
      · exact ih hw
    · rename_i hd
      cases hwords : t.splitOnP isSpace with
      | nil => exact absurd hwords (List.splitOnP_ne_nil _ _)
      | cons v vs =>
        rw [hwords, List.modifyHead_cons] at hw
        rw [hwords] at ih
        rcases List.mem_cons.mp hw with rfl | hw
        · exact List.forall_mem_cons.mpr ⟨by simpa using hd, ih List.mem_cons_self⟩
        · exact ih (List.mem_cons_of_mem v hw)

theorem of_mem_split {t w : Text} (hw : w ∈ split t) : w ≠ [] ∧ ∀ c ∈ w, isSpace c = false := by
  obtain ⟨hmem, hne⟩ := List.mem_filter.mp hw
  exact ⟨by simpa using hne, isSpace_of_mem_splitOnP hmem⟩

theorem line_join {ws : List Text} (hne : ws ≠ [])
    (hws : ∀ w ∈ ws, w ≠ [] ∧ ∀ c ∈ w, isSpace c = false) : Line (join ws) := by
  unfold join
  induction ws with
  | nil => exact absurd rfl hne
  | cons w ws ih =>
    obtain ⟨⟨hw, hspace⟩, hrest⟩ := List.forall_mem_cons.mp hws
    have hhead : ∀ c ∈ w.head?, isSpace c = false := fun c hc =>
      hspace c (List.mem_of_mem_head? hc)
    cases ws with
    | nil =>
      rw [List.intercalate_singleton]
      refine ⟨hw, fun c hc h => ?_, hhead, fun c hc => hspace c (List.mem_of_mem_getLast? hc)⟩
      rw [hspace c hc] at h
      cases h
    | cons v vs =>
      obtain ⟨hne', hblank, -, hlast⟩ := ih (List.cons_ne_nil v vs) hrest
      rw [List.intercalate_cons_cons]
      refine ⟨by simp [hw], fun c hc h => ?_, ?_, ?_⟩
      · rcases List.mem_append.mp hc with hc | hc
        · rcases List.mem_append.mp hc with hc | hc
          · rw [hspace c hc] at h
            cases h
          · exact List.mem_singleton.mp hc
        · exact hblank c hc h
      · rw [List.append_assoc, List.head?_append_of_ne_nil _ hw]
        exact hhead
      · rw [List.getLast?_append_of_ne_nil _ hne']
        exact hlast

/-- **The words of a text are a line**, unless there are none. -/
theorem line_join_split {t : Text} (h : join (split t) ≠ []) : Line (join (split t)) :=
  line_join (fun hnil => h (by rw [hnil]; rfl)) fun _ hw => of_mem_split hw

/-- A text without white space at its ends is not stripped. -/
theorem strip_eq_self {t : Text} (hhead : ∀ c ∈ t.head?, isSpace c = false)
    (hlast : ∀ c ∈ t.getLast?, isSpace c = false) : strip t = t := by
  unfold strip
  have hfront : t.dropWhile isSpace = t := by
    cases t with
    | nil => rfl
    | cons c t => rw [List.dropWhile_cons_of_neg (by simp [hhead c rfl])]
  rw [hfront, List.rdropWhile_eq_self_iff]
  exact fun hne => by simp [hlast _ (List.getLast?_eq_getLast_of_ne_nil hne)]

/-- White space behind a text is stripped. -/
theorem strip_append {t u : Text} (hne : t ≠ []) (hhead : ∀ c ∈ t.head?, isSpace c = false)
    (hlast : ∀ c ∈ t.getLast?, isSpace c = false) (hu : ∀ c ∈ u, isSpace c = true) :
    strip (t ++ u) = t := by
  induction u using List.reverseRecOn with
  | nil =>
    rw [List.append_nil]
    exact strip_eq_self hhead hlast
  | append_singleton u c ih =>
    have hc : isSpace c = true := hu c (by simp)
    have hfront : ∀ v : Text, (t ++ v).dropWhile isSpace = t ++ v := fun v => by
      cases t with
      | nil => exact absurd rfl hne
      | cons d t =>
        rw [List.cons_append, List.dropWhile_cons_of_neg (by simp [hhead d rfl])]
    have ih := ih fun d hd => hu d (List.mem_append_left _ hd)
    unfold strip at ih ⊢
    rw [hfront] at ih ⊢
    rw [← List.append_assoc, List.rdropWhile_concat_pos isSpace _ c hc, ih]

/-! ## SQLite -/

/-- The text can be encoded in UTF-8. -/
def encodable (t : Text) : Bool := t.all fun c => c < 0xd800 || 0xe000 ≤ c

/-- `length`, which stops at the first NUL. -/
def sqlLength (t : Text) : ℕ := (t.takeWhile (· ≠ 0)).length

/-- `trim`, which takes off blanks. -/
def sqlTrim (t : Text) : Text := (t.dropWhile (· = 0x20)).rdropWhile (· = 0x20)

/-- The order of texts, which is that of their bytes. -/
def before : Text → Text → Bool
  | [], _ => true
  | _ :: _, [] => false
  | c :: t, d :: u => c < d || (c == d && before t u)

theorem sqlLength_le (t : Text) : sqlLength t ≤ t.length := by
  unfold sqlLength
  exact (List.takeWhile_sublist _).length_le

theorem sqlLength_pos {t : Text} : 0 < sqlLength t ↔ ∃ c ∈ t.head?, c ≠ 0 := by
  unfold sqlLength
  cases t with
  | nil => simp
  | cons c t =>
    rw [List.head?_cons, List.takeWhile_cons]
    by_cases hc : c = 0
    · simp [hc]
    · simp [hc]

/-- What the back of a text loses, its head is there unless all of it is lost. -/
theorem head?_rdropWhile {p : ℕ → Bool} {t : Text} {c : ℕ} (hc : c ∈ t.head?) (hp : p c = false) :
    c ∈ (t.rdropWhile p).head? := by
  cases t with
  | nil => cases hc
  | cons d t =>
    obtain rfl : d = c := Option.some.inj hc
    obtain ⟨u, hu⟩ : ∃ u, (d :: t).rdropWhile p = d :: u := by
      cases hr : (d :: t).rdropWhile p with
      | nil =>
        have := List.rdropWhile_eq_nil_iff.mp hr d List.mem_cons_self
        rw [hp] at this
        cases this
      | cons e u =>
        obtain ⟨v, hv⟩ := List.rdropWhile_prefix p (l := d :: t)
        rw [hr] at hv
        exact ⟨u, congrArg (· :: u) (List.cons.inj hv).1⟩
    rw [hu]
    rfl

/-- The first code point after the leading blanks is there and is not NUL. -/
def Begins (t : Text) : Prop := ∃ c ∈ (t.dropWhile (· = 0x20)).head?, c ≠ 0

instance (t : Text) : Decidable (Begins t) :=
  inferInstanceAs (Decidable (∃ c ∈ (t.dropWhile (· = 0x20)).head?, c ≠ 0))

/-- **What `CHECK(length(trim(…)) > 0)` asks.** -/
theorem sqlLength_sqlTrim_pos {t : Text} : 0 < sqlLength (sqlTrim t) ↔ Begins t := by
  unfold sqlTrim Begins
  rw [sqlLength_pos]
  set u := t.dropWhile (· = 0x20) with hu
  constructor
  · rintro ⟨c, hc, hne⟩
    obtain ⟨v, hv⟩ := List.rdropWhile_prefix (fun d => decide (d = 0x20)) (l := u)
    cases hr : u.rdropWhile (· = 0x20) with
    | nil =>
      rw [hr] at hc
      cases hc
    | cons d w =>
      rw [hr] at hc hv
      rw [← hv]
      exact ⟨c, hc, hne⟩
  · rintro ⟨c, hc, hne⟩
    have hblank : decide (c = 0x20) = false := by
      have hhead := List.head?_dropWhile_not (fun d => decide (d = 0x20)) t
      rw [← hu, Option.mem_def.mp hc] at hhead
      exact hhead
    exact ⟨c, head?_rdropWhile hc hblank, hne⟩

-- A text that is not empty, and has the length `0` in SQLite.
example : strip [0x20, 0, 0x61] = [0, 0x61] ∧ sqlLength (sqlTrim [0x20, 0, 0x61]) = 0 := by decide

end Text
