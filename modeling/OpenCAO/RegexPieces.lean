import OpenCAO.RegexContext

/-!
# The pieces of a text

The matches of a text, with the letters between them, are the pieces it is taken apart into.
What replaces the matches, or collects them, goes over the pieces; and where a letter cuts a
text in two, the pieces of the text are those of its parts, with the letter between them.
-/

universe u

namespace Regex

variable {α : Type u} {r : Regex α} {a : α}

/-- **A piece of a text**: a letter that is in no match, or a match. -/
inductive Piece (α : Type u) where
  | letter (a : α)
  | found (w : List α)

/-- Matches with the gaps before them, and the text behind the last, as pieces. -/
def glue (parts : List (Match α) × List α) : List (Piece α) :=
  (parts.1.flatMap fun m => m.gap.map .letter ++ [.found m.text]) ++ parts.2.map .letter

/-- The pieces of a text behind a position. -/
def piecesFrom (r : Regex α) (before after : List α) : List (Piece α) :=
  glue (matchesFrom r (after.length + 1) false before after)

/-- **The pieces of a text**, as `re.finditer` takes it apart. -/
def pieces (r : Regex α) (text : List α) : List (Piece α) := glue (finditer r text)

theorem glue_cons (m : Match α) (ms : List (Match α)) (tail : List α) :
    glue (m :: ms, tail) = m.gap.map .letter ++ .found m.text :: glue (ms, tail) := by
  simp [glue]

section Pieces

variable {before after : List α} {d : Cursor α}

/-- Without a match at the end of a text, nothing is found there. -/
theorem ends_nil (hne : r.nullable = false) (before : List α) (groups : List (ℕ × List α)) :
    ends r ⟨before, [], groups⟩ = [] := by
  rw [List.eq_nil_iff_forall_not_mem]
  intro d hd
  obtain ⟨w, hw, hreads⟩ := reads_of_mem_ends r _ d hd
  obtain rfl : w = [] := (List.append_eq_nil_iff.mp hreads.after.symm).1
  exact nil_notMem_words hne hw

theorem search_nil (hne : r.nullable = false) : search r [] = none := by
  unfold search searchFrom
  rw [firstAt_false, ends_nil hne]
  rfl

theorem length_of_head? (hne : r.nullable = false)
    (hd : (ends r ⟨before, after, []⟩).head? = some d) : d.after.length < after.length := by
  obtain ⟨w, hw, hreads⟩ := reads_of_mem_ends r _ d (List.mem_of_mem_head? hd)
  have hpos : 0 < w.length := List.length_pos_iff.mpr fun h => nil_notMem_words hne (h ▸ hw)
  have hlength : after.length = w.length + d.after.length := hreads.length
  omega

theorem glue_matchesFrom_found (hne : r.nullable = false) (n : ℕ)
    (hd : (ends r ⟨before, after, []⟩).head? = some d) :
    glue (matchesFrom r (n + 1) false before after)
      = .found ((⟨before, after, []⟩ : Cursor α).between d) ::
        glue (matchesFrom r n false d.before d.after) := by
  obtain ⟨w, hw, hreads⟩ := reads_of_mem_ends r _ d (List.mem_of_mem_head? hd)
  have hsearch : searchFrom r false before after
      = some ⟨[], (⟨before, after, []⟩ : Cursor α).between d, d⟩ := by
    unfold searchFrom
    rw [firstAt_false, hd]
  have hempty : ((⟨before, after, []⟩ : Cursor α).between d).isEmpty = false := by
    rw [hreads.between, List.isEmpty_eq_false_iff]
    exact fun h => nil_notMem_words hne (h ▸ hw)
  conv_lhs => unfold matchesFrom
  rw [hsearch]
  simp only [hempty]
  exact glue_cons _ _ _

theorem glue_matchesFrom_letter (n : ℕ) {b : α} (h : ends r ⟨before, b :: after, []⟩ = []) :
    glue (matchesFrom r (n + 1) false before (b :: after))
      = .letter b :: glue (matchesFrom r (n + 1) false (b :: before) after) := by
  have hsearch : searchFrom r false before (b :: after)
      = (searchFrom r false (b :: before) after).map fun m => { m with gap := b :: m.gap } := by
    conv_lhs => unfold searchFrom
    rw [firstAt_false, h]
    rfl
  unfold matchesFrom
  rw [hsearch]
  cases searchFrom r false (b :: before) after with
  | none => rfl
  | some m =>
    simp only [Option.map_some]
    rw [glue_cons, glue_cons]
    rfl

theorem glue_matchesFrom_nil (hne : r.nullable = false) (n : ℕ) (before : List α) :
    glue (matchesFrom r n false before []) = [] := by
  cases n with
  | zero => rfl
  | succ n =>
    unfold matchesFrom searchFrom
    rw [firstAt_false, ends_nil hne]
    rfl

/-- The bound on the number of matches is not felt. -/
theorem glue_matchesFrom (hne : r.nullable = false) (before after : List α) :
    ∀ n, after.length < n →
      glue (matchesFrom r n false before after) = piecesFrom r before after := by
  unfold piecesFrom
  induction hn : after.length using Nat.strong_induction_on generalizing before after with
  | _ k ih =>
    intro n hlt
    obtain ⟨n, rfl⟩ : ∃ m, n = m + 1 := ⟨n - 1, by omega⟩
    cases hhead : (ends r ⟨before, after, []⟩).head? with
    | some d =>
      have hshort := length_of_head? hne hhead
      rw [glue_matchesFrom_found hne n hhead, glue_matchesFrom_found hne k hhead,
        ih _ (hn ▸ hshort) d.before d.after rfl n (by omega),
        ih _ (hn ▸ hshort) d.before d.after rfl k (by omega)]
    | none =>
      have hends := List.head?_eq_none_iff.mp hhead
      cases after with
      | nil => rw [glue_matchesFrom_nil hne, glue_matchesFrom_nil hne]
      | cons b after =>
        have hshort : after.length < k := by rw [← hn, List.length_cons]; omega
        rw [glue_matchesFrom_letter n hends, glue_matchesFrom_letter k hends,
          ih _ hshort (b :: before) after rfl (n + 1) (by omega),
          ih _ hshort (b :: before) after rfl (k + 1) (by omega)]

theorem pieces_eq (hne : r.nullable = false) (text : List α) :
    pieces r text = piecesFrom r [] text := glue_matchesFrom hne [] text _ (by omega)

theorem piecesFrom_found (hne : r.nullable = false)
    (hd : (ends r ⟨before, after, []⟩).head? = some d) :
    piecesFrom r before after = .found ((⟨before, after, []⟩ : Cursor α).between d) ::
      piecesFrom r d.before d.after := by
  rw [piecesFrom, glue_matchesFrom_found hne _ hd,
    glue_matchesFrom hne d.before d.after _ (length_of_head? hne hd)]

theorem piecesFrom_letter (hne : r.nullable = false) {b : α}
    (h : ends r ⟨before, b :: after, []⟩ = []) :
    piecesFrom r before (b :: after) = .letter b :: piecesFrom r (b :: before) after := by
  rw [piecesFrom, glue_matchesFrom_letter _ h,
    glue_matchesFrom hne (b :: before) after _ (by simp only [List.length_cons]; omega)]

theorem piecesFrom_nil (hne : r.nullable = false) (before : List α) :
    piecesFrom r before [] = [] := glue_matchesFrom_nil hne _ before

/-- Behind a letter that begins a text, the pieces are those of a text. -/
theorem StartsAt.piecesFrom_behind (h : r.StartsAt a) (hne : r.nullable = false) (front : List α) :
    piecesFrom r (before ++ a :: front) after = piecesFrom r before after := by
  induction hn : after.length using Nat.strong_induction_on generalizing before after with
  | _ n ih =>
    have hmoved : ends r ⟨before ++ a :: front, after, []⟩
        = (ends r ⟨before, after, []⟩).map (·.behind (a :: front)) :=
      h.ends_behind ⟨before, after, []⟩ front
    cases hhead : (ends r ⟨before, after, []⟩).head? with
    | some d =>
      have hhead' : (ends r ⟨before ++ a :: front, after, []⟩).head?
          = some (d.behind (a :: front)) := by
        rw [hmoved, List.head?_map, hhead]
        rfl
      rw [piecesFrom_found hne hhead', piecesFrom_found hne hhead]
      exact congrArg _ (@ih _ (hn ▸ length_of_head? hne hhead) d.before d.after rfl)
    | none =>
      have hends := List.head?_eq_none_iff.mp hhead
      cases after with
      | nil => rw [piecesFrom_nil hne, piecesFrom_nil hne]
      | cons b after =>
        rw [hends, List.map_nil] at hmoved
        rw [piecesFrom_letter hne hmoved, piecesFrom_letter hne hends]
        exact congrArg _
          (@ih after.length (by rw [← hn, List.length_cons]; omega) (b :: before) after rfl)

/-- The pieces before a letter that no match goes on to, and those behind it. -/
theorem piecesFrom_append_cons (hne : r.nullable = false) {x y : List α}
    (hstop : ∀ u v, x = u ++ v → ends r ⟨u.reverse ++ before, v ++ a :: y, []⟩
      = (ends r ⟨u.reverse ++ before, v, []⟩).map (·.extend (a :: y))) :
    piecesFrom r before (x ++ a :: y)
      = piecesFrom r before x ++ .letter a :: piecesFrom r (a :: (x.reverse ++ before)) y := by
  induction hn : x.length using Nat.strong_induction_on generalizing before x with
  | _ n ih =>
    have hmoved : ends r ⟨before, x ++ a :: y, []⟩
        = (ends r ⟨before, x, []⟩).map (·.extend (a :: y)) := hstop [] x rfl
    cases hhead : (ends r ⟨before, x, []⟩).head? with
    | some d =>
      obtain ⟨w, -, hreads⟩ := reads_of_mem_ends r _ d (List.mem_of_mem_head? hhead)
      have hhead' : (ends r ⟨before, x ++ a :: y, []⟩).head? = some (d.extend (a :: y)) := by
        rw [hmoved, List.head?_map, hhead]
        rfl
      have hmatch : (⟨before, x ++ a :: y, []⟩ : Cursor α).between (d.extend (a :: y))
          = (⟨before, x, []⟩ : Cursor α).between d := by
        have hreads' : Reads w (⟨before, x ++ a :: y, []⟩ : Cursor α) (d.extend (a :: y)) :=
          ⟨by simp [Cursor.extend, show x = w ++ d.after from hreads.after], hreads.before⟩
        rw [hreads'.between, hreads.between]
      have hbefore : d.before = w.reverse ++ before := hreads.before
      have hx : x = w ++ d.after := hreads.after
      have hrest := @ih _ (hn ▸ length_of_head? hne hhead) d.before d.after
        (fun u v huv => by
          have := hstop (w ++ u) v (by rw [hx, huv, List.append_assoc])
          rw [hbefore]
          simpa using this) rfl
      rw [piecesFrom_found hne hhead', piecesFrom_found hne hhead, hmatch]
      show _ :: piecesFrom r d.before (d.after ++ a :: y) = _
      rw [hrest, hbefore, hx]
      simp
    | none =>
      have hends := List.head?_eq_none_iff.mp hhead
      rw [hends, List.map_nil] at hmoved
      cases x with
      | nil =>
        rw [List.nil_append, piecesFrom_letter hne hmoved, piecesFrom_nil hne]
        rfl
      | cons b x =>
        have hrest := @ih x.length (by rw [← hn, List.length_cons]; omega) (b :: before) x
          (fun u v huv => by
            have := hstop (b :: u) v (by rw [huv, List.cons_append])
            simpa using this) rfl
        have hmoved' : ends r ⟨before, b :: (x ++ a :: y), []⟩ = [] := hmoved
        rw [List.cons_append, piecesFrom_letter hne hmoved', piecesFrom_letter hne hends, hrest]
        simp

end Pieces

/-- **The pieces of a text with a letter that cuts it** are those of the two parts. -/
theorem pieces_append_cons (hne : r.nullable = false) (hstart : r.StartsAt a) {x y : List α}
    (hstop : ∀ u v, x = u ++ v → ends r ⟨u.reverse, v ++ a :: y, []⟩
      = (ends r ⟨u.reverse, v, []⟩).map (·.extend (a :: y))) :
    pieces r (x ++ a :: y) = pieces r x ++ .letter a :: pieces r y := by
  have hsplit : piecesFrom r [] (x ++ a :: y) = piecesFrom r [] x ++ .letter a :: _ :=
    piecesFrom_append_cons hne fun u v huv => by simpa using hstop u v huv
  have hbehind : piecesFrom r ([] ++ a :: x.reverse) y = piecesFrom r [] y :=
    hstart.piecesFrom_behind hne x.reverse
  rw [pieces_eq hne, pieces_eq hne, pieces_eq hne, hsplit, List.append_nil]
  exact congrArg _ (congrArg _ hbehind)

theorem StopsAt.pieces_append_cons (hstop : r.StopsAt a) (hne : r.nullable = false)
    (hstart : r.StartsAt a) (x y : List α) :
    pieces r (x ++ a :: y) = pieces r x ++ .letter a :: pieces r y :=
  Regex.pieces_append_cons hne hstart fun u v _ => hstop.ends_extend ⟨u.reverse, v, []⟩ y

/-- Nothing is matched where a letter of every word is missing. -/
theorem ends_of_notMem {b : α} (hb : ∀ w ∈ words r, b ∈ w) {c : Cursor α} (h : b ∉ c.after) :
    ends r c = [] := by
  rw [List.eq_nil_iff_forall_not_mem]
  intro d hd
  obtain ⟨w, hw, hreads⟩ := reads_of_mem_ends r c d hd
  exact h (hreads.after ▸ List.mem_append_left _ (hb w hw))

/-- Nothing is found in a text that misses a letter of every word. -/
theorem pieces_of_notMem (hne : r.nullable = false) {b : α} (hb : ∀ w ∈ words r, b ∈ w)
    {text : List α} (h : b ∉ text) : pieces r text = text.map .letter := by
  rw [pieces_eq hne]
  generalize ([] : List α) = before
  induction text generalizing before with
  | nil => exact piecesFrom_nil hne before
  | cons c text ih =>
    rw [piecesFrom_letter hne (ends_of_notMem hb h),
      ih (fun hmem => h (List.mem_cons_of_mem c hmem))]
    rfl

/-! ### Replacing the matches -/

/-- What was found in a piece. -/
def Piece.text? : Piece α → Option (List α)
  | .letter _ => none
  | .found w => some w

theorem filterMap_pieces (text : List α) :
    (pieces r text).filterMap Piece.text? = (finditer r text).1.map Match.text := by
  have hletters : ∀ t : List α, (t.map Piece.letter).filterMap Piece.text? = [] := by
    intro t
    simp [Piece.text?, List.filterMap_map, Function.comp_def]
  unfold pieces glue
  rw [List.filterMap_append, hletters, List.append_nil]
  induction (finditer r text).1 with
  | nil => rfl
  | cons m ms ih =>
    rw [List.flatMap_cons, List.filterMap_append, List.filterMap_append, hletters, ih]
    rfl

/-- A piece with a match replaced. -/
def Piece.replaced (replace : List α → List α) : Piece α → List α
  | .letter a => [a]
  | .found w => replace w

/-- **Matches replaced by what they are**, piece by piece. -/
theorem sub_eq_flatMap (replace : List α → List α) (text : List α) :
    sub r (fun m => replace m.text) text = (pieces r text).flatMap (Piece.replaced replace) := by
  have hletters : ∀ t : List α, (t.map Piece.letter).flatMap (Piece.replaced replace) = t := by
    intro t
    induction t with
    | nil => rfl
    | cons b t ih => simp [Piece.replaced, ih]
  unfold sub pieces glue
  rw [List.flatMap_append, hletters, List.flatMap_assoc]
  refine congrArg (· ++ _) (List.flatMap_congr fun m _ => ?_)
  rw [List.flatMap_append, hletters]
  simp [Piece.replaced]

end Regex
