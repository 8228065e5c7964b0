import Mathlib.Computability.Language
import Mathlib.Data.List.TakeDrop

/-!
# Regular expressions with priorities

A backtracking matcher tries its alternatives in order, and what it answers is the
first of the matches, not the longest. So a pattern is read as a function from a
position to the *list* of the positions at which a match may end, in the order in
which the matcher comes to them (`ends`); whatever a pattern is composed of, the list
is composed in the same way. A position knows the text on both sides, since an
assertion looks at the letter before it and at the letter behind it.

Where a pattern has no assertion, the order may be forgotten again: the pattern
matches the words of a language (`words`), and to find no match is to have no word of
the language anywhere in the text (`search_eq_none_iff`). That is what is needed to
see that a text is clean after all matches were replaced (`search_sub_eq_none`): the
gaps between the matches are clean, because the search goes from left to right, and no
match goes across a replacement whose first and last letters are in no word.
-/

universe u

/-- **A regular expression** over the letters `α`. -/
inductive Regex (α : Type u) where
  /-- The empty text. -/
  | empty
  /-- One letter of a class. -/
  | one (p : α → Bool)
  /-- An assertion about the letter before and the letter behind. -/
  | check (p : Option α → Option α → Bool)
  | seq (r s : Regex α)
  | alt (r s : Regex α)
  /-- Any number of repetitions, as many as possible or as few as possible. -/
  | star (greedy : Bool) (r : Regex α)
  /-- A group, whose text is captured. -/
  | group (k : ℕ) (r : Regex α)

namespace Regex

variable {α : Type u}

/-- **A position in a text**: the letters before it, the nearest first, the letters
behind it, and the texts captured on the way. -/
@[ext] structure Cursor (α : Type u) where
  before : List α
  after : List α
  groups : List (ℕ × List α) := []

/-- The start of a text. -/
def Cursor.start (text : List α) : Cursor α := ⟨[], text, []⟩

/-- The text between two positions. -/
def Cursor.between (c d : Cursor α) : List α := c.after.take (c.after.length - d.after.length)

/-- The text that a group captured. -/
def Cursor.group? (c : Cursor α) (k : ℕ) : Option (List α) :=
  (c.groups.find? fun g => g.1 == k).map Prod.snd

/-- Repetitions of a step, each of them forward. -/
def iterate (step : Cursor α → List (Cursor α)) (greedy : Bool) : ℕ → Cursor α → List (Cursor α)
  | 0, c => [c]
  | n + 1, c =>
    let more := (step c).flatMap fun d =>
      if d.after.length < c.after.length then iterate step greedy n d else []
    if greedy then more ++ [c] else c :: more

/-- **Where a match may end**, in the order of the matcher. -/
def ends : Regex α → Cursor α → List (Cursor α)
  | empty, c => [c]
  | one p, c =>
    match c.after with
    | [] => []
    | a :: after => if p a then [⟨a :: c.before, after, c.groups⟩] else []
  | check p, c => if p c.before.head? c.after.head? then [c] else []
  | seq r s, c => (ends r c).flatMap (ends s)
  | alt r s, c => ends r c ++ ends s c
  | star greedy r, c => iterate (ends r) greedy c.after.length c
  | group k r, c => (ends r c).map fun d => { d with groups := (k, c.between d) :: d.groups }

/-! ## Patterns -/

/-- The letters of a word, one after the other. -/
def lit [DecidableEq α] : List α → Regex α
  | [] => empty
  | a :: w => seq (one (· = a)) (lit w)

/-- The first of several alternatives that goes on. -/
def anyOf : List (Regex α) → Regex α
  | [] => check fun _ _ => false
  | [r] => r
  | r :: s :: rs => alt r (anyOf (s :: rs))

/-- One after the other. -/
def chain : List (Regex α) → Regex α
  | [] => empty
  | [r] => r
  | r :: s :: rs => seq r (chain (s :: rs))

/-- `r?`. -/
def opt (r : Regex α) : Regex α := alt r empty

/-- `r*`. -/
def many (r : Regex α) : Regex α := star true r

/-- `r+`. -/
def plus (r : Regex α) : Regex α := seq r (many r)

/-- `r{n}`. -/
def times : ℕ → Regex α → Regex α
  | 0, _ => empty
  | n + 1, r => seq r (times n r)

/-- `r{0,n}`. -/
def upTo : ℕ → Regex α → Regex α
  | 0, _ => empty
  | n + 1, r => opt (seq r (upTo n r))

/-- `r{n,}`. -/
def atLeast (n : ℕ) (r : Regex α) : Regex α := seq (times n r) (many r)

/-! ## Matching -/

/-- The first match at a position; one that has to advance is not empty. -/
def firstAt (r : Regex α) (advance : Bool) (c : Cursor α) : Option (Cursor α) :=
  (ends r c).find? fun d => !advance || d.after.length < c.after.length

/-- `re.match`: the end of the match at the start. -/
def matchStart (r : Regex α) (text : List α) : Option (Cursor α) := firstAt r false (.start text)

/-- `re.fullmatch`: the whole text matches. -/
def fullmatch (r : Regex α) (text : List α) : Bool :=
  (ends r (.start text)).any fun d => d.after.isEmpty

/-- **A match** in a text: the text it skips, and what it matches. -/
structure Match (α : Type u) where
  gap : List α
  text : List α
  rest : Cursor α

/-- The leftmost match behind a position; one at the position itself has to advance if the
match before it was empty. -/
def searchFrom (r : Regex α) (advance : Bool) : List α → List α → Option (Match α)
  | before, after =>
    match firstAt r advance ⟨before, after, []⟩ with
    | some d => some ⟨[], (⟨before, after, []⟩ : Cursor α).between d, d⟩
    | none =>
      match after with
      | [] => none
      | a :: after =>
        (searchFrom r false (a :: before) after).map fun m => { m with gap := a :: m.gap }

/-- **`re.search`**. -/
def search (r : Regex α) (text : List α) : Option (Match α) := searchFrom r false [] text

/-- The matches behind a position, without overlap, and the text behind the last. -/
def matchesFrom (r : Regex α) : ℕ → Bool → List α → List α → List (Match α) × List α
  | 0, _, _, after => ([], after)
  | n + 1, advance, before, after =>
    match searchFrom r advance before after with
    | none => ([], after)
    | some m =>
      let (ms, tail) := matchesFrom r n m.text.isEmpty m.rest.before m.rest.after
      (m :: ms, tail)

/-- **`re.finditer`**: the matches of a text. Two of them may end at one position, the second
one being empty. -/
def finditer (r : Regex α) (text : List α) : List (Match α) × List α :=
  matchesFrom r (2 * text.length + 2) false [] text

/-- **`re.sub`**: the matches of a text replaced. -/
def sub (r : Regex α) (replace : Match α → List α) (text : List α) : List α :=
  ((finditer r text).1.flatMap fun m => m.gap ++ replace m) ++ (finditer r text).2

/-! ## The language of a pattern -/

/-- **The words of a pattern**: what it may match where its assertions hold. -/
def words : Regex α → Language α
  | empty => 1
  | one p => {w | ∃ a, p a = true ∧ w = [a]}
  | check _ => 1
  | seq r s => words r * words s
  | alt r s => words r + words s
  | star _ r => KStar.kstar (words r)
  | group _ r => words r

/-- The pattern has no assertion. -/
def plain : Regex α → Bool
  | empty | one _ => true
  | check _ => false
  | seq r s | alt r s => plain r && plain s
  | star _ r | group _ r => plain r

/-- The pattern may match the empty text. -/
def nullable : Regex α → Bool
  | empty | check _ | star _ _ => true
  | one _ => false
  | seq r s => nullable r && nullable s
  | alt r s => nullable r || nullable s
  | group _ r => nullable r

theorem nullable_of_nil_mem : ∀ {r : Regex α}, [] ∈ words r → r.nullable = true
  | empty, _ | check _, _ | star _ _, _ => rfl
  | one p, h => by
    obtain ⟨a, -, h⟩ := h
    cases h
  | seq r s, h => by
    obtain ⟨x, hx, y, hy, h⟩ := Language.mem_mul.mp h
    obtain ⟨rfl, rfl⟩ := List.append_eq_nil_iff.mp h
    show (r.nullable && s.nullable) = true
    rw [nullable_of_nil_mem hx, nullable_of_nil_mem hy]
    rfl
  | alt r s, h => by
    show (r.nullable || s.nullable) = true
    rcases h with h | h
    · rw [nullable_of_nil_mem h, Bool.true_or]
    · rw [nullable_of_nil_mem h, Bool.or_true]
  | group k r, h => nullable_of_nil_mem (r := r) h

/-- From one position to another by reading a word. -/
structure Reads (w : List α) (c d : Cursor α) : Prop where
  after : c.after = w ++ d.after
  before : d.before = w.reverse ++ c.before

theorem Reads.refl (c : Cursor α) : Reads [] c c := ⟨rfl, rfl⟩

theorem Reads.trans {v w : List α} {c d e : Cursor α} (h : Reads v c d) (h' : Reads w d e) :
    Reads (v ++ w) c e := by
  refine ⟨?_, ?_⟩
  · rw [h.after, h'.after, List.append_assoc]
  · rw [h'.before, h.before, List.reverse_append, List.append_assoc]

theorem Reads.between {w : List α} {c d : Cursor α} (h : Reads w c d) : c.between d = w := by
  unfold Cursor.between
  rw [h.after, List.length_append, Nat.add_sub_cancel, List.take_left]

theorem Reads.length {w : List α} {c d : Cursor α} (h : Reads w c d) :
    c.after.length = w.length + d.after.length := by rw [h.after, List.length_append]

theorem reads_iterate {L : Language α} {step : Cursor α → List (Cursor α)} {greedy : Bool}
    (hstep : ∀ c, ∀ d ∈ step c, ∃ w ∈ L, Reads w c d) :
    ∀ n c, ∀ d ∈ iterate step greedy n c, ∃ w ∈ KStar.kstar L, Reads w c d
  | 0, c, d, hd => by
    rw [List.mem_singleton.mp hd]
    exact ⟨[], Language.nil_mem_kstar L, .refl c⟩
  | n + 1, c, d, hd => by
    have hmore : d = c ∨ ∃ e ∈ step c, d ∈ iterate step greedy n e := by
      simp only [iterate] at hd
      split at hd <;> simp at hd <;> grind
    rcases hmore with rfl | ⟨e, he, hd⟩
    · exact ⟨[], Language.nil_mem_kstar L, .refl d⟩
    · obtain ⟨v, hv, hce⟩ := hstep c e he
      obtain ⟨w, hw, hed⟩ := reads_iterate hstep n e d hd
      refine ⟨v ++ w, ?_, hce.trans hed⟩
      rw [← Language.one_add_self_mul_kstar_eq_kstar]
      exact .inr (Language.append_mem_mul hv hw)

/-- **A match reads a word of the pattern.** -/
theorem reads_of_mem_ends : ∀ (r : Regex α) (c : Cursor α), ∀ d ∈ ends r c,
    ∃ w ∈ words r, Reads w c d
  | empty, c, d, hd => by
    rw [List.mem_singleton.mp hd]
    exact ⟨[], rfl, .refl c⟩
  | one p, c, d, hd => by
    unfold ends at hd
    split at hd
    · cases hd
    · rename_i a after hafter
      split at hd
      · rename_i hp
        rw [List.mem_singleton.mp hd]
        exact ⟨[a], ⟨a, hp, rfl⟩, hafter, rfl⟩
      · cases hd
  | check p, c, d, hd => by
    unfold ends at hd
    split at hd
    · rw [List.mem_singleton.mp hd]
      exact ⟨[], rfl, .refl c⟩
    · cases hd
  | seq r s, c, d, hd => by
    obtain ⟨e, he, hd⟩ := List.mem_flatMap.mp hd
    obtain ⟨v, hv, hce⟩ := reads_of_mem_ends r c e he
    obtain ⟨w, hw, hed⟩ := reads_of_mem_ends s e d hd
    exact ⟨v ++ w, Language.append_mem_mul hv hw, hce.trans hed⟩
  | alt r s, c, d, hd => by
    rcases List.mem_append.mp hd with hd | hd
    · obtain ⟨w, hw, hcd⟩ := reads_of_mem_ends r c d hd
      exact ⟨w, .inl hw, hcd⟩
    · obtain ⟨w, hw, hcd⟩ := reads_of_mem_ends s c d hd
      exact ⟨w, .inr hw, hcd⟩
  | star greedy r, c, d, hd => reads_iterate (reads_of_mem_ends r) c.after.length c d hd
  | group k r, c, d, hd => by
    obtain ⟨e, he, rfl⟩ := List.mem_map.mp hd
    obtain ⟨w, hw, hce⟩ := reads_of_mem_ends r c e he
    exact ⟨w, hw, hce.after, hce.before⟩

theorem mem_iterate_self (step : Cursor α → List (Cursor α)) (greedy : Bool) (n : ℕ)
    (c : Cursor α) : c ∈ iterate step greedy n c := by
  cases n with
  | zero => exact List.mem_singleton_self c
  | succ n => cases greedy <;> simp [iterate]

theorem mem_iterate_of_step {step : Cursor α → List (Cursor α)} {greedy : Bool} {n : ℕ}
    {c d e : Cursor α} (he : e ∈ step c) (hlt : e.after.length < c.after.length)
    (hd : d ∈ iterate step greedy n e) : d ∈ iterate step greedy (n + 1) c := by
  have hmore : d ∈ (step c).flatMap fun d =>
      if d.after.length < c.after.length then iterate step greedy n d else [] :=
    List.mem_flatMap.mpr ⟨e, he, by rw [if_pos hlt]; exact hd⟩
  cases greedy <;> simp only [iterate] <;> simp [hmore]

theorem exists_mem_iterate {L : Language α} {step : Cursor α → List (Cursor α)} {greedy : Bool}
    (hstep : ∀ c, ∀ w ∈ L, ∀ v, c.after = w ++ v → ∃ d ∈ step c, d.after = v) (v : List α) :
    ∀ (ws : List (List α)) (n : ℕ) (c : Cursor α), (∀ w ∈ ws, w ∈ L ∧ w ≠ []) →
      c.after = ws.flatten ++ v → ws.flatten.length ≤ n →
      ∃ d ∈ iterate step greedy n c, d.after = v
  | [], n, c, _, hc, _ => ⟨c, mem_iterate_self step greedy n c, hc⟩
  | w :: ws, n, c, hws, hc, hn => by
    obtain ⟨hw, hne⟩ := hws w List.mem_cons_self
    have hpos := List.length_pos_iff.mpr hne
    simp only [List.flatten_cons, List.length_append] at hn
    obtain ⟨n, rfl⟩ : ∃ m, n = m + 1 := ⟨n - 1, by omega⟩
    obtain ⟨e, he, hafter⟩ := hstep c w hw (ws.flatten ++ v) (by
      rw [hc, List.flatten_cons, List.append_assoc])
    obtain ⟨d, hd, hdv⟩ := exists_mem_iterate hstep v ws n e
      (fun x hx => hws x (List.mem_cons_of_mem w hx)) hafter (by omega)
    refine ⟨d, mem_iterate_of_step he ?_ hd, hdv⟩
    rw [hafter, hc]
    simp only [List.flatten_cons, List.length_append]
    omega

/-- **Every word that comes next is matched**, if nothing is asserted. -/
theorem exists_mem_ends : ∀ {r : Regex α} (_ : r.plain = true) (c : Cursor α), ∀ w ∈ words r,
    ∀ v, c.after = w ++ v → ∃ d ∈ ends r c, d.after = v
  | empty, _, c, w, hw, v, hc => by
    obtain rfl : w = [] := hw
    exact ⟨c, List.mem_singleton_self c, hc⟩
  | one p, _, c, w, hw, v, hc => by
    obtain ⟨a, ha, rfl⟩ := hw
    refine ⟨⟨a :: c.before, v, c.groups⟩, ?_, rfl⟩
    simp only [ends, hc, List.singleton_append, ha, if_true, List.mem_singleton]
  | seq r s, h, c, w, hw, v, hc => by
    have h := Bool.and_eq_true_iff.mp h
    obtain ⟨x, hx, y, hy, rfl⟩ := Language.mem_mul.mp hw
    obtain ⟨e, he, hafter⟩ := exists_mem_ends h.1 c x hx (y ++ v) (by
      rw [hc, List.append_assoc])
    obtain ⟨d, hd, hdv⟩ := exists_mem_ends h.2 e y hy v hafter
    exact ⟨d, List.mem_flatMap.mpr ⟨e, he, hd⟩, hdv⟩
  | alt r s, h, c, w, hw, v, hc => by
    have h := Bool.and_eq_true_iff.mp h
    rcases hw with hw | hw
    · obtain ⟨d, hd, hdv⟩ := exists_mem_ends h.1 c w hw v hc
      exact ⟨d, List.mem_append_left _ hd, hdv⟩
    · obtain ⟨d, hd, hdv⟩ := exists_mem_ends h.2 c w hw v hc
      exact ⟨d, List.mem_append_right _ hd, hdv⟩
  | star greedy r, h, c, w, hw, v, hc => by
    obtain ⟨ws, rfl, hws⟩ := Language.mem_kstar_iff_exists_nonempty.mp hw
    refine exists_mem_iterate (exists_mem_ends (r := r) h) v ws _ c hws hc ?_
    rw [hc, List.length_append]
    omega
  | group k r, h, c, w, hw, v, hc => by
    obtain ⟨d, hd, hdv⟩ := exists_mem_ends (r := r) h c w hw v hc
    exact ⟨_, List.mem_map_of_mem hd, hdv⟩

/-! ## Searching -/

/-- No word of the pattern stands in a text. -/
def Clean (r : Regex α) (text : List α) : Prop := ∀ w ∈ words r, ¬ w <:+: text

theorem Clean.of_infix {r : Regex α} {t u : List α} (h : Clean r u) (ht : t <:+: u) : Clean r t :=
  fun w hw hwt => h w hw (hwt.trans ht)

theorem firstAt_false (r : Regex α) (c : Cursor α) : firstAt r false c = (ends r c).head? := by
  cases h : ends r c <;> simp [firstAt, h]

/-- Nothing is matched at a position exactly if no word comes next. -/
theorem firstAt_eq_none {r : Regex α} (hr : r.plain = true) {c : Cursor α} :
    firstAt r false c = none ↔ ∀ w ∈ words r, ¬ w <+: c.after := by
  rw [firstAt_false, List.head?_eq_none_iff]
  constructor
  · rintro h w hw ⟨v, hv⟩
    obtain ⟨d, hd, -⟩ := exists_mem_ends hr c w hw v hv.symm
    rw [h] at hd
    cases hd
  · intro h
    rw [List.eq_nil_iff_forall_not_mem]
    intro d hd
    obtain ⟨w, hw, hreads⟩ := reads_of_mem_ends r c d hd
    exact h w hw ⟨d.after, hreads.after.symm⟩

theorem nil_notMem_words {r : Regex α} (hne : r.nullable = false) : [] ∉ words r := fun h => by
  rw [nullable_of_nil_mem h] at hne
  cases hne

theorem clean_nil {r : Regex α} : Clean r [] ↔ [] ∉ words r := by
  constructor
  · exact fun h hnil => h [] hnil List.infix_rfl
  · rintro h w hw hinfix
    rw [List.eq_nil_of_infix_nil hinfix] at hw
    exact h hw

theorem clean_cons {r : Regex α} {a : α} {t : List α} :
    Clean r (a :: t) ↔ (∀ w ∈ words r, ¬ w <+: a :: t) ∧ Clean r t := by
  unfold Clean
  simp only [List.infix_cons_iff, not_or]
  exact ⟨fun h => ⟨fun w hw => (h w hw).1, fun w hw => (h w hw).2⟩,
    fun h w hw => ⟨h.1 w hw, h.2 w hw⟩⟩

theorem searchFrom_eq_none {r : Regex α} (hr : r.plain = true) {before after : List α} :
    searchFrom r false before after = none ↔ Clean r after := by
  induction after generalizing before with
  | nil =>
    have hfirst := firstAt_eq_none hr (c := ⟨before, [], []⟩)
    simp only [List.prefix_nil] at hfirst
    rw [clean_nil]
    unfold searchFrom
    cases h : firstAt r false ⟨before, [], []⟩ with
    | none => simpa using fun hnil => hfirst.mp h [] hnil rfl
    | some d =>
      simp only [reduceCtorEq, false_iff, not_not]
      by_contra hnil
      rw [hfirst.mpr fun w hw hw' => hnil (hw' ▸ hw)] at h
      cases h
  | cons a t ih =>
    rw [clean_cons, ← firstAt_eq_none hr (c := ⟨before, a :: t, []⟩), ← @ih (a :: before)]
    rw [searchFrom.eq_def]
    cases h : firstAt r false ⟨before, a :: t, []⟩ <;> simp [h]

/-- **A search fails exactly if no word stands in the text.** -/
theorem search_eq_none_iff {r : Regex α} (hr : r.plain = true) {text : List α} :
    search r text = none ↔ Clean r text := searchFrom_eq_none hr

/-- What a search found. -/
structure Found (r : Regex α) (before after : List α) (m : Match α) : Prop where
  word : m.text ∈ words r
  after : after = m.gap ++ (m.text ++ m.rest.after)
  before : m.rest.before = (m.gap ++ m.text).reverse ++ before
  gap : Clean r m.gap

theorem found_of_searchFrom {r : Regex α} (hr : r.plain = true) (hne : r.nullable = false)
    {before after : List α} {m : Match α} (h : searchFrom r false before after = some m) :
    Found r before after m := by
  induction after generalizing before m with
  | nil =>
    unfold searchFrom at h
    split at h
    · rename_i d hd
      have hmem : d ∈ ends r ⟨before, [], []⟩ := List.mem_of_find?_eq_some hd
      obtain ⟨w, hw, hreads⟩ := reads_of_mem_ends r _ d hmem
      obtain rfl : w = [] := (List.append_eq_nil_iff.mp hreads.after.symm).1
      exact absurd hw (nil_notMem_words hne)
    · cases h
  | cons a t ih =>
    unfold searchFrom at h
    split at h
    · rename_i d hd
      have hmem : d ∈ ends r ⟨before, a :: t, []⟩ := List.mem_of_find?_eq_some hd
      obtain ⟨w, hw, hreads⟩ := reads_of_mem_ends r _ d hmem
      obtain rfl := Option.some.inj h
      refine ⟨?_, ?_, ?_, clean_nil.mpr (nil_notMem_words hne)⟩ <;> simp only [hreads.between]
      · exact hw
      · exact hreads.after
      · exact hreads.before
    · rename_i hnone
      obtain ⟨m', hm', rfl⟩ := Option.map_eq_some_iff.mp h
      have hfound := ih hm'
      refine ⟨hfound.word, ?_, ?_, ?_⟩
      · show a :: t = a :: m'.gap ++ (m'.text ++ m'.rest.after)
        rw [List.cons_append, ← hfound.after]
      · show m'.rest.before = (a :: m'.gap ++ m'.text).reverse ++ before
        rw [hfound.before]
        simp
      · refine clean_cons.mpr ⟨fun w hw hprefix => ?_, hfound.gap⟩
        -- the word would have been matched before the search went on
        refine (firstAt_eq_none hr (c := ⟨before, a :: t, []⟩)).mp hnone w hw ?_
        rw [hfound.after]
        exact hprefix.trans (List.prefix_append (a :: m'.gap) _)

/-! ## Replacing -/

/-- **A text taken apart** into matches with the gaps before them, and a tail. -/
inductive Parts (r : Regex α) : List α → List (Match α) → List α → Prop
  | last {tail : List α} : Clean r tail → Parts r tail [] tail
  | next {rest tail : List α} {ms : List (Match α)} (m : Match α) : Clean r m.gap →
      m.text ∈ words r → Parts r rest ms tail →
      Parts r (m.gap ++ (m.text ++ rest)) (m :: ms) tail

theorem parts_matchesFrom {r : Regex α} (hr : r.plain = true) (hne : r.nullable = false) (n : ℕ)
    (before after : List α) (hn : after.length < n) :
    Parts r after (matchesFrom r n false before after).1
      (matchesFrom r n false before after).2 := by
  induction n generalizing before after with
  | zero => exact absurd hn (Nat.not_lt_zero _)
  | succ n ih =>
    unfold matchesFrom
    cases h : searchFrom r false before after with
    | none => exact .last ((searchFrom_eq_none hr).mp h)
    | some m =>
      have hfound := found_of_searchFrom hr hne h
      have htext : m.text ≠ [] := fun hnil => nil_notMem_words hne (hnil ▸ hfound.word)
      have hlength : m.rest.after.length < n := by
        have := List.length_pos_iff.mpr htext
        rw [hfound.after] at hn
        simp only [List.length_append] at hn
        omega
      have hparts := Parts.next m hfound.gap hfound.word
        (ih m.rest.before m.rest.after hlength)
      rw [← hfound.after] at hparts
      simp only [List.isEmpty_eq_false_iff.mpr htext]
      exact hparts

/-- **The matches take a text apart.** -/
theorem parts_finditer {r : Regex α} (hr : r.plain = true) (hne : r.nullable = false)
    (text : List α) : Parts r text (finditer r text).1 (finditer r text).2 :=
  parts_matchesFrom hr hne _ [] text (by omega)

/-- What is clean is not changed. -/
theorem sub_of_clean {r : Regex α} (hr : r.plain = true) {replace : Match α → List α}
    {text : List α} (h : Clean r text) : sub r replace text = text := by
  have hfind : finditer r text = ([], text) := by
    unfold finditer matchesFrom
    rw [(searchFrom_eq_none hr).mpr h]
  unfold sub
  rw [hfind]
  rfl

theorem prefix_append_cons {w x y : List α} {a : α} (ha : a ∉ w) (h : w <+: x ++ a :: y) :
    w <+: x := by
  rcases List.prefix_or_prefix_of_prefix h (List.prefix_append x (a :: y)) with hw | ⟨z, rfl⟩
  · exact hw
  · cases z with
    | nil => exact (List.append_nil x).symm ▸ List.prefix_rfl
    | cons b z =>
      have hb := (List.prefix_append_right_inj x).mp h
      rw [(List.cons_prefix_cons.mp hb).1] at ha
      exact absurd (List.mem_append_right x List.mem_cons_self) ha

/-- A word does not go across a letter that it does not have. -/
theorem infix_append_cons {w x y : List α} {a : α} (ha : a ∉ w) (h : w <:+: x ++ a :: y) :
    w <:+: x ∨ w <:+: y := by
  induction x with
  | nil =>
    rcases List.infix_cons_iff.mp h with h | h
    · exact .inl (prefix_append_cons (x := []) ha h).isInfix
    · exact .inr h
  | cons b x ih =>
    rcases List.infix_cons_iff.mp h with h | h
    · exact .inl (prefix_append_cons (x := b :: x) ha h).isInfix
    · exact (ih h).imp (fun h => List.infix_cons_iff.mpr (.inr h)) id

/-- **A replacement that words do not reach into**: its first and its last letter are in no
word, and it is clean itself. -/
structure Fence (r : Regex α) (v : List α) : Prop where
  fenced : ∃ a u b, v = a :: (u ++ [b]) ∧ (∀ w ∈ words r, a ∉ w ∧ b ∉ w) ∧ Clean r u

theorem Fence.clean_append {r : Regex α} {x v y : List α} (hv : Fence r v) (hx : Clean r x)
    (hy : Clean r y) : Clean r (x ++ (v ++ y)) := by
  obtain ⟨a, u, b, rfl, hab, hu⟩ := hv.fenced
  intro w hw hinfix
  obtain ⟨ha, hb⟩ := hab w hw
  have hsplit : x ++ (a :: (u ++ [b]) ++ y) = x ++ a :: (u ++ b :: y) := by simp
  rw [hsplit] at hinfix
  rcases infix_append_cons ha hinfix with h | h
  · exact hx w hw h
  · rcases infix_append_cons hb h with h | h
    · exact hu w hw h
    · exact hy w hw h

/-- **After all matches were replaced, none is left.** -/
theorem clean_sub {r : Regex α} (hr : r.plain = true) (hne : r.nullable = false)
    {replace : Match α → List α} (hreplace : ∀ m, Fence r (replace m)) (text : List α) : Clean r (sub r replace text) := by
  have hparts := parts_finditer hr hne text
  unfold sub
  generalize (finditer r text).1 = ms at hparts ⊢
  generalize (finditer r text).2 = tail at hparts ⊢
  induction hparts with
  | last h => exact h
  | next m hgap _ _ ih =>
    simp only [List.flatMap_cons, List.append_assoc]
    exact (hreplace m).clean_append hgap ih

/-! ## The letters of a pattern -/

/-- The letters of the classes of a pattern meet `q`. -/
def Over (q : α → Prop) : Regex α → Prop
  | empty | check _ => True
  | one p => ∀ a, p a = true → q a
  | seq r s | alt r s => Over q r ∧ Over q s
  | star _ r | group _ r => Over q r

theorem forall_mem_words {q : α → Prop} : ∀ {r : Regex α} (_ : Over q r), ∀ w ∈ words r,
    ∀ a ∈ w, q a
  | empty, _, w, hw, a, ha => by
    obtain rfl : w = [] := hw
    cases ha
  | check p, _, w, hw, a, ha => by
    obtain rfl : w = [] := hw
    cases ha
  | one p, h, w, hw, a, ha => by
    obtain ⟨b, hb, rfl⟩ := hw
    rw [List.mem_singleton.mp ha]
    exact h b hb
  | seq r s, h, w, hw, a, ha => by
    obtain ⟨x, hx, y, hy, rfl⟩ := Language.mem_mul.mp hw
    rcases List.mem_append.mp ha with ha | ha
    · exact forall_mem_words h.1 x hx a ha
    · exact forall_mem_words h.2 y hy a ha
  | alt r s, h, w, hw, a, ha => by
    rcases hw with hw | hw
    · exact forall_mem_words h.1 w hw a ha
    · exact forall_mem_words h.2 w hw a ha
  | star greedy r, h, w, hw, a, ha => by
    obtain ⟨ws, rfl, hws⟩ := Language.mem_kstar.mp hw
    obtain ⟨x, hx, ha⟩ := List.mem_flatten.mp ha
    exact forall_mem_words (r := r) h x (hws x hx) a ha
  | group k r, h, w, hw, a, ha => forall_mem_words (r := r) h w hw a ha

theorem over_lit [DecidableEq α] {q : α → Prop} {w : List α} (h : ∀ a ∈ w, q a) :
    Over q (lit w) := by
  induction w with
  | nil => trivial
  | cons a w ih =>
    refine ⟨fun b hb => ?_, ih fun b hb => h b (List.mem_cons_of_mem a hb)⟩
    rw [of_decide_eq_true hb]
    exact h a List.mem_cons_self

theorem over_anyOf {q : α → Prop} : ∀ {rs : List (Regex α)}, (∀ r ∈ rs, Over q r) →
    Over q (anyOf rs)
  | [], _ => trivial
  | [r], h => h r List.mem_cons_self
  | r :: _ :: _, h =>
    ⟨h r List.mem_cons_self, over_anyOf fun s hs => h s (List.mem_cons_of_mem r hs)⟩

theorem over_chain {q : α → Prop} : ∀ {rs : List (Regex α)}, (∀ r ∈ rs, Over q r) →
    Over q (chain rs)
  | [], _ => trivial
  | [r], h => h r List.mem_cons_self
  | r :: _ :: _, h =>
    ⟨h r List.mem_cons_self, over_chain fun s hs => h s (List.mem_cons_of_mem r hs)⟩

theorem words_lit [DecidableEq α] (v : List α) : words (lit v) = {v} := by
  induction v with
  | nil => rfl
  | cons a v ih =>
    ext w
    show w ∈ words (one (· = a)) * words (lit v) ↔ w = a :: v
    rw [ih, Language.mem_mul]
    constructor
    · rintro ⟨x, ⟨b, hb, rfl⟩, y, rfl, rfl⟩
      rw [of_decide_eq_true hb]
      rfl
    · rintro rfl
      exact ⟨[a], ⟨a, decide_eq_true rfl, rfl⟩, v, rfl, rfl⟩

/-! ## Running a pattern

What a pattern matches first is found by running it: the parts of a sequence one after the
other, a greedy repetition from the longest piece down and a lazy one from the shortest
up. -/

section Running

variable {before after u v : List α} {groups : List (ℕ × List α)} {p : α → Bool} {s : Regex α}

theorem head?_seq (r s : Regex α) (c : Cursor α) :
    (ends (seq r s) c).head? = (ends r c).findSome? fun d => (ends s d).head? :=
  List.head?_flatMap

theorem ends_seq_of_nil {r : Regex α} {c : Cursor α} (h : ends r c = []) (s : Regex α) :
    ends (seq r s) c = [] := by
  show (ends r c).flatMap _ = []
  rw [h]
  rfl

theorem ends_seq_of_singleton {r : Regex α} {c d : Cursor α} (h : ends r c = [d]) (s : Regex α) :
    ends (seq r s) c = ends s d := by
  show (ends r c).flatMap _ = _
  rw [h, List.flatMap_singleton]

theorem ends_check_of {q : Option α → Option α → Bool} {c : Cursor α}
    (h : q c.before.head? c.after.head? = true) : ends (check q) c = [c] := if_pos h

theorem ends_one_of {a : α} (h : p a = true) :
    ends (one p) ⟨before, a :: after, groups⟩ = [⟨a :: before, after, groups⟩] := if_pos h

/-- A word that comes next is read. -/
theorem ends_lit_append [DecidableEq α] (w : List α) :
    ends (lit w) ⟨before, w ++ after, groups⟩ = [⟨w.reverse ++ before, after, groups⟩] := by
  induction w generalizing before with
  | nil => rfl
  | cons a w ih =>
    show ends (seq (one (· = a)) (lit w)) ⟨before, a :: (w ++ after), groups⟩ = _
    rw [ends_seq_of_singleton (ends_one_of (p := fun b => decide (b = a)) (decide_eq_true rfl)), ih]
    simp

theorem ends_lit_seq [DecidableEq α] (w : List α) (s : Regex α) :
    ends (seq (lit w) s) ⟨before, w ++ after, groups⟩
      = ends s ⟨w.reverse ++ before, after, groups⟩ :=
  ends_seq_of_singleton (ends_lit_append w) s

/-- A word that does not come next is not read. -/
theorem ends_lit_of_not [DecidableEq α] {w : List α} {c : Cursor α} (h : ¬ w <+: c.after) :
    ends (lit w) c = [] := by
  rw [List.eq_nil_iff_forall_not_mem]
  intro d hd
  obtain ⟨x, hx, hreads⟩ := reads_of_mem_ends (lit w) c d hd
  rw [words_lit] at hx
  obtain rfl : x = w := hx
  exact h ⟨d.after, hreads.after.symm⟩

/-- A repetition of a class looks at one letter at a time. -/
theorem ends_star_one (greedy : Bool) :
    ends (star greedy (one p)) ⟨before, after, groups⟩ =
      let more := match after with
        | [] => []
        | a :: rest => if p a then ends (star greedy (one p)) ⟨a :: before, rest, groups⟩ else []
      if greedy then more ++ [⟨before, after, groups⟩] else ⟨before, after, groups⟩ :: more := by
  cases after with
  | nil => cases greedy <;> rfl
  | cons a rest =>
    show iterate (ends (one p)) greedy (rest.length + 1) ⟨before, a :: rest, groups⟩ = _
    by_cases hp : p a = true
    · simp [iterate, ends, hp]
    · simp [iterate, ends, hp]

/-- **A greedy repetition takes the longest piece with which the rest goes on.** -/
theorem head?_many {d : Cursor α} (hu : ∀ a ∈ u, p a = true)
    (hd : (ends s ⟨u.reverse ++ before, v, groups⟩).head? = some d)
    (hlonger : ∀ w rest, v = w ++ rest → w ≠ [] → (∀ a ∈ w, p a = true) →
      ends s ⟨w.reverse ++ (u.reverse ++ before), rest, groups⟩ = []) :
    (ends (seq (many (one p)) s) ⟨before, u ++ v, groups⟩).head? = some d := by
  rw [head?_seq, many]
  induction u generalizing before with
  | nil =>
    simp only [List.reverse_nil, List.nil_append] at hd hlonger
    -- Behind the piece that is taken, every longer one fails.
    have hmore : ∀ (w rest : List α), v = w ++ rest → w ≠ [] → (∀ a ∈ w, p a = true) →
        (ends (star true (one p)) ⟨w.reverse ++ before, rest, groups⟩).findSome?
          (fun d => (ends s d).head?) = none := by
      intro w rest hv hne hw
      induction rest generalizing w with
      | nil =>
        rw [ends_star_one]
        simp [hlonger w [] hv hne hw]
      | cons a rest ih =>
        rw [ends_star_one]
        by_cases hp : p a = true
        · have hnext := ih (w ++ [a]) (by simp [hv]) (by simp)
            fun b hb => (List.mem_append.mp hb).elim (hw b) fun hb => by
              rw [List.mem_singleton.mp hb]
              exact hp
          simp only [List.reverse_append, List.reverse_cons, List.reverse_nil, List.nil_append,
            List.cons_append] at hnext
          simp [hp, hnext, hlonger w _ hv hne hw]
        · simp [hp, hlonger w _ hv hne hw]
    rw [List.nil_append, ends_star_one]
    cases v with
    | nil => simpa using hd
    | cons a rest =>
      by_cases hp : p a = true
      · have hnext := hmore [a] rest rfl (by simp) (by simpa using hp)
        simp only [List.reverse_cons, List.reverse_nil, List.nil_append, List.cons_append] at hnext
        simpa [hp, hnext] using hd
      · simpa [hp] using hd
  | cons a u ih =>
    rw [List.cons_append, ends_star_one]
    have hp := hu a List.mem_cons_self
    have hnext := @ih (a :: before) (fun b hb => hu b (List.mem_cons_of_mem a hb))
      (by simpa using hd) (by simpa using hlonger)
    simp [hp, hnext]

/-- **A lazy group takes the shortest piece with which the rest goes on.** -/
theorem head?_lazy {k : ℕ} {d : Cursor α}
    (hd : (ends s ⟨u.reverse ++ before, v, (k, u) :: groups⟩).head? = some d)
    (hshorter : ∀ w rest, u = w ++ rest → rest ≠ [] →
      ends s ⟨w.reverse ++ before, rest ++ v, (k, w) :: groups⟩ = []) :
    (ends (seq (group k (star false (one fun _ => true))) s) ⟨before, u ++ v, groups⟩).head?
      = some d := by
  -- The piece that was passed over so far.
  suffices hrest : ∀ w rest : List α, u = w ++ rest →
      (ends (star false (one fun _ => true)) ⟨w.reverse ++ before, rest ++ v, groups⟩).findSome?
        (fun e => (ends s { e with groups := (k, (⟨before, u ++ v, groups⟩ : Cursor α).between e) ::
          e.groups }).head?) = some d by
    rw [head?_seq]
    show ((ends _ _).map _).findSome? _ = _
    rw [List.findSome?_map]
    exact hrest [] u rfl
  intro w rest hu
  induction rest generalizing w with
  | nil =>
    obtain rfl : u = w := by simpa using hu
    rw [ends_star_one]
    have hbetween : (⟨before, u ++ v, groups⟩ : Cursor α).between
        ⟨u.reverse ++ before, v, groups⟩ = u := Reads.between ⟨rfl, rfl⟩
    simp [hbetween, hd]
  | cons a rest ih =>
    rw [List.cons_append, ends_star_one]
    have hbetween : (⟨before, u ++ v, groups⟩ : Cursor α).between
        ⟨w.reverse ++ before, a :: (rest ++ v), groups⟩ = w :=
      Reads.between ⟨by simp [hu], rfl⟩
    have hnext := ih (w ++ [a]) (by simp [hu])
    have hfail := hshorter w (a :: rest) hu (by simp)
    rw [List.cons_append] at hfail
    simp only [List.reverse_append, List.reverse_cons, List.reverse_nil, List.nil_append,
      List.cons_append] at hnext
    simp [hbetween, hfail, hnext]

/-- Where the first try of one part is good for the next, nothing else is tried. -/
theorem head?_seq_of {r : Regex α} {c d e : Cursor α} (hd : (ends r c).head? = some d)
    (he : (ends s d).head? = some e) : (ends (seq r s) c).head? = some e := by
  rw [head?_seq]
  cases hends : ends r c with
  | nil => simp [hends] at hd
  | cons d' ds =>
    obtain rfl : d' = d := by simpa [hends] using hd
    rw [List.findSome?_cons, he]

/-- A group keeps what was read in it. -/
theorem head?_group_of {r : Regex α} {k : ℕ} {groups' : List (ℕ × List α)}
    (hd : (ends r ⟨before, u ++ v, groups⟩).head? = some ⟨u.reverse ++ before, v, groups'⟩) :
    (ends (group k r) ⟨before, u ++ v, groups⟩).head?
      = some ⟨u.reverse ++ before, v, (k, u) :: groups'⟩ := by
  show ((ends r _).map _).head? = _
  rw [List.head?_map, hd]
  have hbetween : (⟨before, u ++ v, groups⟩ : Cursor α).between
      ⟨u.reverse ++ before, v, groups'⟩ = u := Reads.between ⟨rfl, rfl⟩
  simp [hbetween]

/-- **A greedy repetition of a class goes to the first letter that is not in it.** -/
theorem head?_many_one (hu : ∀ a ∈ u, p a = true) (hv : ∀ a ∈ v.head?, p a = false) :
    (ends (many (one p)) ⟨before, u ++ v, groups⟩).head?
      = some ⟨u.reverse ++ before, v, groups⟩ := by
  have hrun : (ends (seq (many (one p)) empty) ⟨before, u ++ v, groups⟩).head?
      = some ⟨u.reverse ++ before, v, groups⟩ := head?_many hu rfl ?_
  · rw [head?_seq] at hrun
    cases hends : ends (many (one p)) ⟨before, u ++ v, groups⟩ with
    | nil => simp [hends] at hrun
    | cons d ds => simpa [hends, ends] using hrun
  · intro w rest hvw hne hw
    cases w with
    | nil => exact absurd rfl hne
    | cons a w =>
      have hout := hv a (by simp [hvw])
      rw [hw a List.mem_cons_self] at hout
      cases hout

theorem head?_plus_one (hne : u ≠ []) (hu : ∀ a ∈ u, p a = true)
    (hv : ∀ a ∈ v.head?, p a = false) :
    (ends (plus (one p)) ⟨before, u ++ v, groups⟩).head?
      = some ⟨u.reverse ++ before, v, groups⟩ := by
  cases u with
  | nil => exact absurd rfl hne
  | cons a u =>
    obtain ⟨ha, hu⟩ := List.forall_mem_cons.mp hu
    rw [plus, List.cons_append, ends_seq_of_singleton (ends_one_of ha), head?_many_one hu hv]
    simp

/-- **A search finds the match at the first position where there is one.** -/
theorem searchFrom_append {r : Regex α} {d : Cursor α}
    (hd : (ends r ⟨u.reverse ++ before, v, []⟩).head? = some d)
    (hbefore : ∀ w rest, u = w ++ rest → rest ≠ [] →
      ends r ⟨w.reverse ++ before, rest ++ v, []⟩ = []) :
    searchFrom r false before (u ++ v)
      = some ⟨u, (⟨u.reverse ++ before, v, []⟩ : Cursor α).between d, d⟩ := by
  induction u generalizing before with
  | nil =>
    have hfirst : firstAt r false ⟨before, v, []⟩ = some d := by
      rw [firstAt_false]
      exact hd
    rw [List.nil_append, searchFrom.eq_def]
    simp [hfirst]
  | cons a u ih =>
    have hnone : firstAt r false ⟨before, a :: (u ++ v), []⟩ = none := by
      rw [firstAt_false, List.head?_eq_none_iff]
      exact hbefore [] (a :: u) rfl (by simp)
    have hnext := @ih (a :: before) (by simpa using hd) fun w rest hu hrest => by
      have := hbefore (a :: w) rest (by simp [hu]) hrest
      simpa using this
    rw [List.cons_append, searchFrom.eq_def]
    simp [hnone, hnext]

end Running

end Regex
