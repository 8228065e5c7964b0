import OpenCAO.Capsules

/-!
# The format of a capsule

What `read_capsule` gets out of a file that `record` wrote. Every text was squeezed before, so
it has no line break, and blanks are all the white space it has. The lines of the header are
therefore told apart again, and none of them ends the header early.

The markers of the body are found by a search, and the marker of the rule may stand at the end
of the title too: `# Prefer ## Rule` is a line that ends in `## Rule`. A search finds the
marker there first, and then the rule begins with what should have been its own marker. This
is all that can go wrong (`ruleOf_body`, `ruleOf_body_of_suffix`).
-/

namespace Capsules

open Text Regex

/-! ## Lines -/

/-- What stands up to a newline, behind a line that has none. -/
theorem append_newline_eq {t w x y : Text} (ht : 10 ∉ t) (h : t ++ 10 :: x = w ++ 10 :: y) :
    (w = t ∧ x = y) ∨ ∃ w', w = t ++ 10 :: w' ∧ x = w' ++ 10 :: y := by
  rcases List.append_eq_append_iff.mp h with ⟨a, rfl, ha⟩ | ⟨a, rfl, ha⟩
  · cases a with
    | nil => exact .inl ⟨List.append_nil t, (List.cons.inj ha).2⟩
    | cons c a =>
      obtain ⟨rfl, rfl⟩ := List.cons.inj ha
      exact .inr ⟨a, rfl, rfl⟩
  · cases a with
    | nil => exact .inl ⟨(List.append_nil w).symm, (List.cons.inj ha).2.symm⟩
    | cons c a =>
      obtain ⟨rfl, -⟩ := List.cons.inj ha
      exact absurd (List.mem_append_right w List.mem_cons_self) ht

/-- Two lines that go on with a newline are the same line. -/
theorem eq_of_append_newline {t u x y : Text} (ht : 10 ∉ t) (hu : 10 ∉ u)
    (h : t ++ 10 :: x = u ++ 10 :: y) : u = t := by
  rcases append_newline_eq ht h with ⟨h, -⟩ | ⟨w, rfl, -⟩
  · exact h
  · exact absurd (List.mem_append_right t List.mem_cons_self) hu

/-- **A line between two newlines is one of the lines that were joined.** -/
theorem mem_of_between_newlines {m : Text} (hm : 10 ∉ m) {ts : List Text} (hts : ∀ t ∈ ts, 10 ∉ t)
    {w rest v : Text} (h : joinLines ts = w ++ rest) (hrest : rest ≠ [])
    (hbegins : 10 :: (m ++ [10]) <+: rest ++ 10 :: v) : m ∈ ts := by
  obtain ⟨rest, rfl⟩ : ∃ r, rest = 10 :: r := by
    cases rest with
    | nil => exact absurd rfl hrest
    | cons c r =>
      obtain ⟨z, hz⟩ := hbegins
      exact ⟨r, by rw [(List.cons.inj hz).1]⟩
  rw [List.cons_append, List.prefix_cons_inj] at hbegins
  induction ts generalizing w with
  | nil => simp [joinLines] at h
  | cons t ts ih =>
    obtain ⟨ht, hrest⟩ := List.forall_mem_cons.mp hts
    cases ts with
    | nil =>
      rw [joinLines, List.intercalate_singleton] at h
      exact absurd (h ▸ List.mem_append_right w List.mem_cons_self) ht
    | cons u us =>
      rw [joinLines, List.intercalate_cons_cons, List.append_assoc, List.singleton_append] at h
      rcases append_newline_eq ht h with ⟨-, hnext⟩ | ⟨w', -, hlater⟩
      · -- The newline is the one behind `t`, so the line is the next one.
        have hu : 10 ∉ u := hrest u List.mem_cons_self
        obtain ⟨z, hz⟩ : ∃ z, rest ++ 10 :: v = u ++ 10 :: z := by
          rw [← hnext]
          cases us with
          | nil => exact ⟨v, by rw [List.intercalate_singleton]⟩
          | cons u' us => exact ⟨_, by simp [List.intercalate_cons_cons]; rfl⟩
        obtain ⟨y, hy⟩ := hbegins
        rw [hz, List.append_assoc, List.singleton_append] at hy
        rw [← eq_of_append_newline hm hu hy]
        exact List.mem_cons_of_mem t List.mem_cons_self
      · exact List.mem_cons_of_mem t (ih hrest hlater)

/-- White space does not begin in a line that does not end in it. -/
theorem eq_of_append_space {m t space tail y : Text} (hm : 10 ∉ m) (ht : 10 ∉ t)
    (hlast : ∀ c ∈ t.getLast?, isSpace c = false) (hspace : ∀ c ∈ space, isSpace c = true)
    (h : m ++ (space ++ 10 :: tail) = t ++ 10 :: y) : t = m := by
  obtain ⟨r, rfl⟩ : m <+: t := prefix_append_cons hm ⟨_, h⟩
  rw [List.append_assoc, List.append_cancel_left_eq] at h
  cases hr : r.getLast? with
  | none => rw [List.getLast?_eq_none_iff.mp hr, List.append_nil]
  | some c =>
    have hmem : c ∈ space := by
      have hc := List.mem_of_getLast? hr
      rcases append_newline_eq (fun h => ht (List.mem_append_right m h)) h.symm with
        ⟨rfl, -⟩ | ⟨w, rfl, -⟩
      · exact hc
      · exact List.mem_append_left _ hc
    have hout := hlast c (by simp [List.getLast?_append, hr])
    rw [hspace c hmem] at hout
    cases hout

/-! ## Identifiers -/

/-- The letters of an identifier are no white space, and it has one. -/
theorem letters_of_fullmatch {t : Text} (h : fullmatch idPattern t = true) :
    t ≠ [] ∧ ∀ c ∈ t, isIdLetter c = true := by
  obtain ⟨d, hd, hafter⟩ := List.any_eq_true.mp h
  obtain ⟨w, hw, hreads⟩ := reads_of_mem_ends idPattern _ d hd
  obtain rfl : t = w := by
    have := hreads.after
    rw [List.isEmpty_iff.mp hafter, List.append_nil] at this
    exact this
  refine ⟨fun hnil => ?_, forall_mem_words ?_ t hw⟩
  · rw [hnil] at hw
    exact nil_notMem_words (r := idPattern) rfl hw
  · have hupTo : ∀ n, Over (fun c => isIdLetter c = true) (.upTo n (.one isIdLetter)) := fun n => by
      induction n with
      | zero => trivial
      | succ n ih => exact ⟨⟨fun _ h => h, ih⟩, trivial⟩
    exact ⟨fun c hc => by simp [isIdLetter, hc], fun _ hc => hc, hupTo 62, trivial⟩

theorem isSpace_of_isIdLetter {c : ℕ} (h : isIdLetter c = true) : isSpace c = false := by
  simp only [isIdLetter, isIdHead, isSpace, Bool.or_eq_true, Bool.and_eq_true, decide_eq_true_eq,
    beq_iff_eq, Bool.or_eq_false_iff, Bool.and_eq_false_iff, decide_eq_false_iff_not,
    beq_eq_false_iff_ne] at h ⊢
  omega

/-- The stem of the name of a file is the identifier. -/
theorem stem_fileName {t : Text} (h : t ≠ []) : stem (fileName t) = t := by
  have hfront : (fileName t).rdropWhile (· ≠ 0x2e) = t ++ [0x2e] := by
    have hname : fileName t = t ++ [0x2e] ++ [0x6d] ++ [0x64] := by simp [fileName]; decide
    rw [hname, List.rdropWhile_concat_pos _ _ _ (by decide),
      List.rdropWhile_concat_pos _ _ _ (by decide), List.rdropWhile_concat_neg _ _ _ (by decide)]
  have hlength : (fileName t).length = t.length + 3 := List.length_append
  have hpos := List.length_pos_iff.mpr h
  unfold stem
  rw [hfront, if_pos (by rw [hlength]; simp; omega)]
  simp

/-! ## The header -/

/-- **What `record` makes sure of**, before it writes a file. -/
structure Draft.Valid (d : Draft) : Prop where
  capsuleId : fullmatch idPattern d.capsuleId = true
  scope : d.scope ∈ scopes
  title : Line d.title
  rule : Line d.rule
  verification : Line d.verification
  triggers_ne : d.triggers ≠ []
  triggers : ∀ t ∈ d.triggers, Single t
  created : Single d.created
  updated : Single d.updated

theorem readLine_trigger (m : Metadata) (t : Text) :
    readLine m (ofString "- " ++ t) = { m with triggers := m.triggers ++ [t] } := by
  unfold readLine
  rw [if_pos (List.prefix_append _ _)]
  rfl

/-- A line `key: value`. -/
theorem readLine_field (m : Metadata) {key : Text} (value : Text) (hhead : 0x2d ∉ key.head?)
    (hne : key ≠ []) (hcolon : 0x3a ∉ key) (hkey : key ≠ ofString "triggers") :
    readLine m (key ++ 0x3a :: value)
      = { m with fields := (key, strip value) :: m.fields } := by
  have htake : (key ++ 0x3a :: value).takeWhile (· ≠ 0x3a) = key := by
    rw [List.takeWhile_append_of_pos (p := fun c => decide (c ≠ 0x3a))
      fun c hc => decide_eq_true fun h : c = 0x3a => hcolon (h ▸ hc)]
    simp
  have hdash : ¬ ofString "- " <+: key ++ 0x3a :: value := by
    cases key with
    | nil => exact absurd rfl hne
    | cons c key =>
      rintro ⟨z, hz⟩
      exact hhead (by rw [← (List.cons.inj hz).1]; rfl)
  unfold readLine
  rw [if_neg hdash, if_pos (by simp)]
  simp only [htake, if_neg hkey]
  simp

/-- The metadata of a draft. -/
def Draft.metadata (d : Draft) : Metadata where
  triggers := d.triggers
  fields := [(ofString "updated", strip (0x20 :: d.updated)),
    (ofString "created", strip (0x20 :: d.created)), (ofString "scope", strip (0x20 :: d.scope)),
    (ofString "status", strip (0x20 :: ofString "active")),
    (ofString "id", strip (0x20 :: d.capsuleId))]

theorem foldl_readLine_triggers (m : Metadata) (ts : List Text) :
    (ts.map (ofString "- " ++ ·)).foldl readLine m = { m with triggers := m.triggers ++ ts } := by
  induction ts generalizing m with
  | nil => simp
  | cons t ts ih =>
    rw [List.map_cons, List.foldl_cons, readLine_trigger, ih]
    simp

theorem foldl_readLine_header (d : Draft) : d.header.foldl readLine {} = d.metadata := by
  have hfield : ∀ (m : Metadata) (key value : Text), 0x2d ∉ key.head? ∧ key ≠ [] ∧ 0x3a ∉ key ∧
      key ≠ ofString "triggers" → readLine m (key ++ 0x3a :: value)
        = { m with fields := (key, strip value) :: m.fields } :=
    fun m key value h => readLine_field m value h.1 h.2.1 h.2.2.1 h.2.2.2
  have htriggers : ∀ m, readLine m (ofString "triggers:") = m := fun m => rfl
  unfold Draft.header
  rw [List.foldl_append, foldl_readLine_triggers]
  simp only [List.foldl_cons, List.foldl_nil, htriggers]
  rw [show ofString "id: " = ofString "id" ++ [0x3a, 0x20] by decide,
    show ofString "status: active" = ofString "status" ++ 0x3a :: 0x20 :: ofString "active" by decide,
    show ofString "scope: " = ofString "scope" ++ [0x3a, 0x20] by decide,
    show ofString "created: " = ofString "created" ++ [0x3a, 0x20] by decide,
    show ofString "updated: " = ofString "updated" ++ [0x3a, 0x20] by decide]
  simp only [List.append_assoc, List.cons_append, List.nil_append]
  rw [hfield _ _ _ (by decide), hfield _ _ _ (by decide), hfield _ _ _ (by decide),
    hfield _ _ _ (by decide), hfield _ _ _ (by decide)]
  rfl

theorem Draft.text_eq (d : Draft) (h : d.triggers ≠ []) :
    d.text = ofString "---\n" ++ (joinLines d.header ++ (ofString "\n---\n" ++ d.body)) := by
  obtain ⟨t, ts, hts⟩ := List.exists_cons_of_ne_nil h
  unfold Draft.text Draft.header joinLines
  simp only [hts, List.map_cons, List.cons_append, List.nil_append, List.intercalate_cons_cons]
  rw [show ofString "---\nid: " = ofString "---\n" ++ ofString "id: " by decide,
    show ofString "\nstatus: active\nscope: "
      = [10] ++ ofString "status: active" ++ [10] ++ ofString "scope: " by decide,
    show ofString "\ncreated: " = [10] ++ ofString "created: " by decide,
    show ofString "\nupdated: " = [10] ++ ofString "updated: " by decide,
    show ofString "\ntriggers:\n" = [10] ++ ofString "triggers:" ++ [10] by decide]
  simp only [List.append_assoc]

theorem Draft.Valid.single {d : Draft} (hd : d.Valid) : ∀ t ∈ d.header, Single t ∧ t ≠ [] := by
  have hfield : ∀ key : String, ∀ t : Text, Single (ofString key) ∧ ofString key ≠ [] → Single t →
      Single (ofString key ++ t) ∧ ofString key ++ t ≠ [] :=
    fun key t hkey ht => ⟨hkey.1.append ht, by simp [hkey.2]⟩
  have hid : Single d.capsuleId := fun c hc => by
    have hspace := isSpace_of_isIdLetter ((letters_of_fullmatch hd.capsuleId).2 c hc)
    cases hbreak : isLineBreak c with
    | false => rfl
    | true =>
      rw [isSpace_of_isLineBreak hbreak] at hspace
      cases hspace
  have hscope : Single d.scope := by
    have : ∀ t ∈ scopes, Single t := by decide
    exact this d.scope hd.scope
  unfold Draft.header
  rw [List.forall_mem_append, List.forall_mem_map]
  constructor
  · simp only [List.forall_mem_cons, List.not_mem_nil, false_imp_iff, implies_true, and_true]
    exact ⟨hfield _ _ (by decide) hid, by decide, hfield _ _ (by decide) hscope,
      hfield _ _ (by decide) hd.created, hfield _ _ (by decide) hd.updated, by decide⟩
  · exact fun t ht => hfield _ _ (by decide) (hd.triggers t ht)

/-- No line of the header ends it. -/
theorem dashes_notMem_header (d : Draft) : ofString "---" ∉ d.header := by
  have hfield : ∀ key t : Text, ¬ key <+: ofString "---" → ofString "---" ≠ key ++ t :=
    fun key t hkey h => hkey ⟨t, h.symm⟩
  unfold Draft.header
  simp only [List.mem_append, List.mem_cons, List.not_mem_nil, or_false, List.mem_map, not_or,
    not_exists, not_and]
  exact ⟨⟨hfield _ _ (by decide), by decide, hfield _ _ (by decide), hfield _ _ (by decide),
    hfield _ _ (by decide), by decide⟩, fun t _ h => hfield _ t (by decide) h.symm⟩

/-- **The header of a file that was written is found.** -/
theorem matchStart_text {d : Draft} (hd : d.Valid) :
    ∃ c, matchStart headerPattern d.text = some c ∧ c.after = d.body ∧
      c.group? 1 = some (joinLines d.header) := by
  have hgroup : (ends (.seq (.group 1 (.star false any)) (.lit (ofString "\n---\n")))
      ⟨(ofString "---\n").reverse, joinLines d.header ++ (ofString "\n---\n" ++ d.body), []⟩).head?
        = some _ :=
    head?_lazy (by rw [ends_lit_append]; rfl) fun w rest hsplit hne => ends_lit_of_not fun hbegins => by
      refine dashes_notMem_header d (mem_of_between_newlines (by decide)
        (fun t ht => (hd.single t ht).1.newline_notMem) hsplit hne
        (v := ofString "---\n" ++ d.body) ?_)
      rw [show 10 :: (ofString "---" ++ [10]) = ofString "\n---\n" by decide]
      exact hbegins
  have hmatch : matchStart headerPattern d.text = (ends (.seq (.group 1 (.star false any))
      (.lit (ofString "\n---\n"))) ⟨(ofString "---\n").reverse,
        joinLines d.header ++ (ofString "\n---\n" ++ d.body), []⟩).head? := by
    rw [matchStart, firstAt_false, d.text_eq hd.triggers_ne]
    show (ends (.seq (.check _) (.seq (.lit _) _)) _).head? = _
    rw [ends_seq_of_singleton (ends_check_of rfl), Cursor.start, ends_lit_seq, List.append_nil]
    rfl
  exact ⟨_, hmatch.trans hgroup, rfl, rfl⟩

/-- **The header of a file that was written is read back.** -/
theorem readHeader_header {d : Draft} (hd : d.Valid) :
    readHeader (joinLines d.header) = d.metadata := by
  rw [readHeader, splitlines_joinLines hd.single, foldl_readLine_header]

theorem Draft.Valid.get_id {d : Draft} (hd : d.Valid) :
    d.metadata.get? "id" = some d.capsuleId := by
  obtain ⟨-, hletters⟩ := letters_of_fullmatch hd.capsuleId
  have hspace : ∀ c ∈ d.capsuleId, isSpace c = false := fun c hc =>
    isSpace_of_isIdLetter (hletters c hc)
  rw [← strip_eq_self (fun c hc => hspace c (List.mem_of_mem_head? hc))
    fun c hc => hspace c (List.mem_of_mem_getLast? hc)]
  rfl

theorem Draft.Valid.get_scope {d : Draft} (hd : d.Valid) :
    d.metadata.get? "scope" = some d.scope := by
  have hstrip : ∀ t ∈ scopes, strip (0x20 :: t) = t := by decide
  exact congrArg some (hstrip d.scope hd.scope)

theorem Draft.get_status (d : Draft) : d.metadata.get? "status" = some (ofString "active") := by
  rfl

/-! ## The markers -/

/-- A marker that is matched is there, and its line ends. -/
theorem exists_of_marked {marker : String} {r : Regex ℕ} {c : Cursor ℕ}
    (h : ends (marked marker r) c ≠ []) :
    ∃ space tail, c.after = ofString marker ++ (space ++ 10 :: tail) ∧
      ∀ b ∈ space, isSpace b = true := by
  obtain ⟨d, hd⟩ := List.exists_mem_of_ne_nil _ h
  obtain ⟨w, hw, hreads⟩ := reads_of_mem_ends (marked marker r) c d hd
  obtain ⟨m, hm, y, hy, rfl⟩ := Language.mem_mul.mp hw
  obtain ⟨space, hspace, z, hz, rfl⟩ := Language.mem_mul.mp hy
  obtain ⟨n, hn, tail, -, rfl⟩ := Language.mem_mul.mp hz
  rw [words_lit] at hm hn
  obtain rfl : m = ofString marker := hm
  obtain rfl : n = [10] := hn
  refine ⟨space, tail ++ d.after, ?_,
    forall_mem_words (r := .many (.one isSpace)) (fun _ h => h) space hspace⟩
  rw [hreads.after]
  simp

/-- **A marker is matched with the blank line behind it**, and the rest goes on there. -/
theorem head?_marked {marker : String} {r : Regex ℕ} {before x : Text}
    {groups : List (ℕ × Text)} {d : Cursor ℕ} (hx : ∀ c ∈ x.head?, isSpace c = false)
    (h : (ends r ⟨10 :: 10 :: ((ofString marker).reverse ++ before), x, groups⟩).head? = some d) :
    (ends (marked marker r) ⟨before, ofString marker ++ 10 :: 10 :: x, groups⟩).head?
      = some d := by
  rw [marked, ends_lit_seq]
  refine head?_many (u := [10]) (by decide) ?_ fun w rest hv hne hw => ?_
  · rw [show 10 :: x = [10] ++ x from rfl, ends_lit_seq]
    exact h
  · cases w with
    | nil => exact absurd rfl hne
    | cons b w =>
      obtain rfl : 10 = b := (List.cons.inj hv).1
      have htail : x = w ++ rest := (List.cons.inj hv).2
      refine ends_seq_of_nil (ends_lit_of_not fun hbegins => ?_) r
      -- Behind two newlines there is no third one.
      have hhead : ∀ c ∈ (w ++ rest).head?, isSpace c = false := htail ▸ hx
      cases w with
      | nil =>
        obtain ⟨z, rfl⟩ := hbegins
        cases hhead 10 rfl
      | cons c w =>
        have hc := hhead c rfl
        rw [hw c (by simp)] at hc
        cases hc

/-- The verification and its marker. -/
def verificationSection (y : Text) : Text := ofString "\n## Verification" ++ 10 :: 10 :: y

/-- A rule, a verification, and their markers. -/
def ruleSection (x y : Text) : Text :=
  ofString "## Rule" ++ 10 :: 10 :: ((x ++ [10]) ++ verificationSection y)

/-- No marker of a verification begins in a text. -/
def Clear (x y : Text) : Prop :=
  ∀ w rest space tail, x ++ [10] = w ++ rest → rest ≠ [] → (∀ b ∈ space, isSpace b = true) →
    rest ++ verificationSection y ≠ ofString "\n## Verification" ++ (space ++ 10 :: tail)

/-- No marker of a rule begins in a text. -/
def Ahead (u v : Text) : Prop :=
  ∀ w rest space tail, u = w ++ rest → rest ≠ [] → (∀ b ∈ space, isSpace b = true) →
    rest ++ v ≠ ofString "## Rule" ++ (space ++ 10 :: tail)

/-- **The rule and the verification are found** behind a text without a marker. -/
theorem ruleOf_append {u x y : Text} (hu : Ahead u (ruleSection x y)) (hxy : Clear x y)
    (hx : ∀ c ∈ x.head?, isSpace c = false) (hne : x ≠ []) (hy : ∀ c ∈ y.head?, isSpace c = false)
    (hne' : y ≠ []) :
    ruleOf (u ++ ruleSection x y) = some (strip (x ++ [10]), strip y) := by
  have hverification : ∀ before groups, (ends verificationPattern
      ⟨before, verificationSection y, groups⟩).head?
        = some ⟨y.reverse ++ 10 :: 10 :: ((ofString "\n## Verification").reverse ++ before), [],
          (2, y) :: groups⟩ := fun before groups => by
    refine head?_marked hy ?_
    rw [show y = y ++ [] from (List.append_nil y).symm]
    refine (head?_group_of (head?_plus_one hne' (fun _ _ => rfl) fun c hc => ?_)).trans ?_
    · cases hc
    · rw [List.append_nil]
  have hhead : ∀ c ∈ ((x ++ [10]) ++ verificationSection y).head?, isSpace c = false := by
    rw [List.append_assoc, List.head?_append_of_ne_nil _ hne]
    exact hx
  obtain ⟨d, hrule, hgroup, hgroup'⟩ : ∃ d, (ends rulePattern
      ⟨u.reverse ++ [], ruleSection x y, []⟩).head? = some d ∧
        d.group? 1 = some (x ++ [10]) ∧ d.group? 2 = some y := by
    refine ⟨_, head?_marked hhead (head?_lazy (hverification _ _) ?_), rfl, rfl⟩
    intro w rest hsplit hrest
    by_contra hends
    obtain ⟨space, tail, hafter, hspace⟩ := exists_of_marked hends
    exact hxy w rest space tail hsplit hrest hspace hafter
  have hbefore : ∀ w rest, u = w ++ rest → rest ≠ [] →
      ends rulePattern ⟨w.reverse ++ [], rest ++ ruleSection x y, []⟩ = [] := by
    intro w rest hsplit hrest
    by_contra hends
    obtain ⟨space, tail, hafter, hspace⟩ := exists_of_marked hends
    exact hu w rest space tail hsplit hrest hspace hafter
  rw [ruleOf, search, searchFrom_append hrule hbefore]
  simp [hgroup, hgroup']

/-! ## The body -/

/-- A marker of a verification begins with a newline, and does not go on with one. -/
theorem verification_eq (z : Text) :
    ofString "\n## Verification" ++ z = 10 :: (ofString "## Verification" ++ z) := by
  rw [show ofString "\n## Verification" = 10 :: ofString "## Verification" by decide]
  rfl

/-- Behind a line there is a newline too many. -/
theorem clear_of_line {x : Text} (hx : 10 ∉ x) (y : Text) : Clear x y := by
  intro w rest space tail hsplit hrest _ h
  obtain ⟨c, r, rfl⟩ := List.exists_cons_of_ne_nil hrest
  rw [verification_eq, List.cons_append] at h
  obtain ⟨rfl, h⟩ := List.cons.inj h
  rcases append_newline_eq hx hsplit with ⟨-, rfl⟩ | ⟨w', -, hnil⟩
  · cases h
  · simp at hnil

/-- A rule behind a marker that it does not imitate. -/
theorem clear_of_marker {rule : Text} (hrule : Line rule)
    (hne : rule ≠ ofString "## Verification") (y : Text) :
    Clear (ofString "## Rule" ++ 10 :: 10 :: rule) y := by
  intro w rest space tail hsplit hrest hspace h
  obtain ⟨c, r, rfl⟩ := List.exists_cons_of_ne_nil hrest
  have hcons := h
  rw [verification_eq, List.cons_append] at hcons
  obtain ⟨rfl, htail⟩ := List.cons.inj hcons
  have hsplit : ofString "## Rule" ++ 10 :: (10 :: (rule ++ [10])) = w ++ 10 :: r := by
    rw [← hsplit]
    simp
  rcases append_newline_eq (by decide) hsplit with ⟨-, rfl⟩ | ⟨w', -, hlater⟩
  · cases htail
  · rcases append_newline_eq (t := []) (by simp) hlater with ⟨-, rfl⟩ | ⟨w'', -, hline⟩
    · rw [List.append_assoc, List.singleton_append] at htail
      exact hne (eq_of_append_space (by decide) hrule.single.newline_notMem hrule.last hspace
        htail.symm)
    · exact clear_of_line hrule.single.newline_notMem y w'' _ space tail hline hrest hspace h

/-- A marker of a rule in the line of the title is the end of the title. -/
theorem eq_marker_of_title {p rest z space tail : Text} (hp : Line p) (hrest : rest ≠ [])
    {w : Text} (hsplit : ofString "# " ++ p = w ++ rest) (hspace : ∀ b ∈ space, isSpace b = true)
    (h : rest ++ 10 :: z = ofString "## Rule" ++ (space ++ 10 :: tail)) :
    rest = ofString "## Rule" ∧ rest <:+ p := by
  have hnewline : 10 ∉ rest := fun hmem => by
    rcases List.mem_append.mp (hsplit ▸ List.mem_append_right w hmem) with hmem | hmem
    · revert hmem
      decide
    · exact hp.single.newline_notMem hmem
  have hlast : ∀ c ∈ rest.getLast?, isSpace c = false := fun c hc => by
    refine hp.last c ?_
    rw [← List.getLast?_append_of_ne_nil _ hp.ne, hsplit, List.getLast?_append_of_ne_nil _ hrest]
    exact hc
  obtain rfl := eq_of_append_space (by decide) hnewline hlast hspace h.symm
  refine ⟨rfl, ?_⟩
  -- The marker does not begin at the number sign of the title.
  match w with
  | [] => cases hsplit
  | [_] => cases hsplit
  | _ :: _ :: w => exact ⟨w, ((List.cons.inj (List.cons.inj hsplit).2).2).symm⟩

theorem Draft.body_eq (d : Draft) :
    d.body = (10 :: (ofString "# " ++ d.title) ++ [10, 10])
      ++ ruleSection d.rule (d.verification ++ [10]) := by
  unfold Draft.body ruleSection verificationSection
  rw [show ofString "\n# " = 10 :: ofString "# " by decide,
    show ofString "\n\n## Rule\n\n" = [10, 10] ++ ofString "## Rule" ++ [10, 10] by decide,
    show ofString "\n\n## Verification\n\n"
      = [10] ++ ofString "\n## Verification" ++ [10, 10] by decide,
    show ofString "\n" = [10] by decide]
  simp

/-- **The title is read back.** -/
theorem titleOf_body {d : Draft} (hd : d.Valid) : titleOf d.body = some d.title := by
  obtain ⟨z, hz⟩ : ∃ z, d.body = [10] ++ (ofString "# " ++ (d.title ++ 10 :: z)) :=
    ⟨_, by rw [d.body_eq]; simp; rfl⟩
  have hletters : ∀ c ∈ d.title, decide (c ≠ 10) = true := fun c hc =>
    decide_eq_true fun h => hd.title.single.newline_notMem (h ▸ hc)
  have htitle : (ends titlePattern ⟨[10].reverse ++ [],
      ofString "# " ++ (d.title ++ 10 :: z), []⟩).head? = some ⟨d.title.reverse ++
        ((ofString "# ").reverse ++ ([10].reverse ++ [])), 10 :: z, [(1, d.title)]⟩ := by
    show (ends (.seq (.check _) (.seq (.lit _) _)) _).head? = _
    rw [ends_seq_of_singleton (ends_check_of rfl), ends_lit_seq]
    exact head?_seq_of (head?_group_of (head?_plus_one hd.title.ne hletters (by simp)))
      (congrArg List.head? (ends_check_of rfl))
  have hbefore : ∀ w rest, [10] = w ++ rest → rest ≠ [] →
      ends titlePattern ⟨w.reverse ++ [], rest ++ (ofString "# " ++ (d.title ++ 10 :: z)), []⟩
        = [] := by
    intro w rest hsplit hrest
    obtain ⟨rfl, rfl⟩ : w = [] ∧ rest = [10] := by
      cases w with
      | nil => exact ⟨rfl, hsplit.symm⟩
      | cons c w => simp_all
    show ends (.seq (.check _) (.seq (.lit _) _)) _ = []
    rw [ends_seq_of_singleton (ends_check_of rfl),
      ends_seq_of_nil (ends_lit_of_not fun ⟨_, h⟩ => by cases h)]
  rw [titleOf, hz, search, searchFrom_append htitle hbefore]
  rfl

/-- **The rule and the verification are read back**, unless the title ends in the marker. -/
theorem ruleOf_body {d : Draft} (hd : d.Valid) (h : ¬ ofString "## Rule" <:+ d.title) :
    ruleOf d.body = some (d.rule, d.verification) := by
  have hnewline : ∀ c ∈ ([10] : Text), isSpace c = true := by decide
  have hahead : Ahead (10 :: (ofString "# " ++ d.title) ++ [10, 10])
      (ruleSection d.rule (d.verification ++ [10])) := by
    intro w rest space tail hsplit hrest hspace hmarker
    -- The marker does not begin with a newline, so it begins in the line of the title.
    have hhead : ∀ c ∈ rest.head?, c ≠ 10 := by
      obtain ⟨c, r, rfl⟩ := List.exists_cons_of_ne_nil hrest
      rintro _ ⟨rfl⟩ rfl
      cases hmarker
    obtain ⟨c, w, rfl⟩ : ∃ c w', w = c :: w' := by
      cases w with
      | nil =>
        rw [List.nil_append] at hsplit
        exact absurd rfl (hhead 10 (by rw [← hsplit]; rfl))
      | cons c w => exact ⟨c, w, rfl⟩
    rw [List.cons_append, List.cons_append] at hsplit
    rcases List.append_eq_append_iff.mp (List.cons.inj hsplit).2 with ⟨a, -, ha⟩ | ⟨a, ha, rfl⟩
    · have hmem : ∀ c ∈ rest, c = 10 := fun c hc => by
        have := ha ▸ List.mem_append_right a hc
        simpa using this
      obtain ⟨c, r, rfl⟩ := List.exists_cons_of_ne_nil hrest
      exact hhead c rfl (hmem c List.mem_cons_self)
    · have hne : a ≠ [] := by
        rintro rfl
        exact hhead 10 rfl rfl
      rw [List.append_assoc] at hmarker
      obtain ⟨rfl, hsuffix⟩ := eq_marker_of_title hd.title hne ha hspace hmarker
      exact h hsuffix
  rw [d.body_eq, ruleOf_append hahead (clear_of_line hd.rule.single.newline_notMem _) hd.rule.head
    hd.rule.ne ?_ (by simp), strip_append hd.rule.ne hd.rule.head hd.rule.last hnewline,
    strip_append hd.verification.ne hd.verification.head hd.verification.last hnewline]
  rw [List.head?_append_of_ne_nil _ hd.verification.ne]
  exact hd.verification.head

/-- **A title that ends in the marker takes the place of the marker.** What is read as the rule
begins with what was its marker. -/
theorem ruleOf_body_of_suffix {d : Draft} (hd : d.Valid) (h : ofString "## Rule" <:+ d.title) :
    ∃ r v, ruleOf d.body = some (r, v) ∧ r ≠ d.rule := by
  obtain ⟨p, hp⟩ := h
  have hahead : ∀ x y, Ahead (10 :: (ofString "# " ++ p)) (ruleSection x y) := by
    intro x y w rest space tail hsplit hrest hspace hmarker
    cases w with
    | nil =>
      rw [List.nil_append] at hsplit
      rw [← hsplit] at hmarker
      cases hmarker
    | cons c w =>
      have hw : ofString "# " ++ p = w ++ rest := (List.cons.inj hsplit).2
      have hline : ofString "# " ++ d.title = w ++ (rest ++ ofString "## Rule") := by
        rw [← hp, ← List.append_assoc, hw, List.append_assoc]
      rw [ruleSection, ← List.append_assoc] at hmarker
      obtain ⟨hnil, -⟩ := eq_marker_of_title hd.title (by simp [hrest]) hline hspace hmarker
      exact hrest (by simpa using hnil)
  have hnewline : ∀ c ∈ ([10] : Text), isSpace c = true := by decide
  have hhead : ∀ c ∈ (d.verification ++ [10]).head?, isSpace c = false := by
    rw [List.head?_append_of_ne_nil _ hd.verification.ne]
    exact hd.verification.head
  by_cases hrule : d.rule = ofString "## Verification"
  · -- The rule is read as the marker of the verification.
    have hbody : d.body = 10 :: (ofString "# " ++ p) ++ ruleSection (ofString "## Rule")
        (ofString "## Verification" ++ 10 :: 10 :: (d.verification ++ [10])) := by
      rw [d.body_eq, ← hp, hrule]
      simp [ruleSection, verificationSection, verification_eq]
    have hmarker : ∀ z : Text, ∀ c ∈ (ofString "## Verification" ++ z).head?, isSpace c = false :=
      fun z c hc => by
        cases hc
        rfl
    refine ⟨_, _, hbody ▸ ruleOf_append (hahead _ _) (clear_of_line (by decide) _) (by decide)
      (by decide) (hmarker _) (by simp), ?_⟩
    rw [hrule]
    decide
  · have hbody : d.body = 10 :: (ofString "# " ++ p) ++ ruleSection
        (ofString "## Rule" ++ 10 :: 10 :: d.rule) (d.verification ++ [10]) := by
      rw [d.body_eq, ← hp]
      simp [ruleSection]
    have hmarker : ∀ z : Text, ∀ c ∈ (ofString "## Rule" ++ z).head?, isSpace c = false :=
      fun z c hc => by
        cases hc
        rfl
    refine ⟨_, _, hbody ▸ ruleOf_append (hahead _ _) (clear_of_marker hd.rule hrule _) (hmarker _)
      (by simp) hhead (by simp), fun heq => ?_⟩
    have hlast : ∀ c ∈ (ofString "## Rule" ++ 10 :: 10 :: d.rule).getLast?, isSpace c = false := by
      rw [show ofString "## Rule" ++ 10 :: 10 :: d.rule
        = (ofString "## Rule" ++ [10, 10]) ++ d.rule by simp,
        List.getLast?_append_of_ne_nil _ hd.rule.ne]
      exact hd.rule.last
    rw [strip_append (by simp) (hmarker _) hlast hnewline] at heq
    have hlength := congrArg List.length heq
    simp at hlength
    omega

/-! ## Reading a file -/

/-- No line of a header has a line break. -/
structure Metadata.Single (m : Metadata) : Prop where
  triggers : ∀ t ∈ m.triggers, t.Single
  fields : ∀ f ∈ m.fields, f.2.Single

theorem single_readLine {m : Metadata} (hm : m.Single) {t : Text} (ht : t.Single) :
    (readLine m t).Single := by
  unfold readLine
  dsimp only
  split_ifs
  · refine ⟨fun u hu => ?_, hm.fields⟩
    rcases List.mem_append.mp hu with hu | hu
    · exact hm.triggers u hu
    · rw [List.mem_singleton.mp hu]
      exact ht.of_subset (List.drop_subset 2 t)
  · exact hm
  · refine ⟨hm.triggers, List.forall_mem_cons.mpr ⟨ht.of_subset fun c hc => ?_, hm.fields⟩⟩
    exact List.drop_subset _ t
      ((List.dropWhile_sublist isSpace).subset ((List.rdropWhile_prefix isSpace _).subset hc))
  · exact hm

theorem single_readHeader (header : Text) : (readHeader header).Single := by
  have hfold : ∀ (lines : List Text) (m : Metadata), m.Single → (∀ t ∈ lines, t.Single) →
      (lines.foldl readLine m).Single := fun lines => by
    induction lines with
    | nil => exact fun m hm _ => hm
    | cons t ts ih =>
      intro m hm hts
      obtain ⟨ht, hts⟩ := List.forall_mem_cons.mp hts
      exact ih _ (single_readLine hm ht) hts
  refine hfold _ {} ⟨?_, ?_⟩ fun t ht => single_of_mem_splitlines ht
  · exact fun _ h => by cases h
  · exact fun _ h => by cases h

/-- The metadata of a capsule that was read come from a header. -/
theorem single_of_readCapsule {env : Environment} {name : Text} {entry : Option Entry}
    {c : Capsule} (h : readCapsule env name entry = .ok c) : c.metadata.Single := by
  unfold readCapsule at h
  split at h
  · obtain ⟨_, -, h⟩ := bind_eq_ok.mp h
    split at h
    · cases h
    · unfold readText at h
      split at h
      · cases h
      · obtain ⟨_, -, h⟩ := bind_eq_ok.mp h
        obtain ⟨_, -, h⟩ := bind_eq_ok.mp h
        split at h
        · cases h
          exact single_readHeader _
        · cases h
  · cases h

theorem carriageReturn_notMem_text {d : Draft} (hd : d.Valid) : 13 ∉ d.text := by
  have hsingle : ∀ {t : Text}, t.Single → 13 ∉ t := fun ht h => by
    have := ht 13 h
    cases this
  have hheader : 13 ∉ joinLines d.header := fun h => by
    rcases mem_joinLines h with h | ⟨t, ht, h⟩
    · cases h
    · exact hsingle (hd.single t ht).1 h
  have hbody : 13 ∉ d.body := by
    simp only [Draft.body, List.mem_append, not_or]
    exact ⟨⟨⟨⟨⟨⟨by decide, hsingle hd.title.single⟩, by decide⟩, hsingle hd.rule.single⟩,
      by decide⟩, hsingle hd.verification.single⟩, by decide⟩
  rw [d.text_eq hd.triggers_ne]
  simp only [List.mem_append, not_or]
  exact ⟨by decide, hheader, by decide, hbody⟩

/-- **A file that was written is read again.** -/
theorem readText_text {d : Draft} (hd : d.Valid) (env : Environment) :
    ∃ rule verification, ruleOf d.body = some (rule, verification) ∧
      readText env (fileName d.capsuleId) d.text = .ok
        { metadata := d.metadata, title := d.title, rule, verification,
          digest := env.digest d.text } := by
  obtain ⟨⟨rule, verification⟩, hrule⟩ : ∃ p, ruleOf d.body = some p := by
    by_cases h : ofString "## Rule" <:+ d.title
    · obtain ⟨r, v, hr, -⟩ := ruleOf_body_of_suffix hd h
      exact ⟨_, hr⟩
    · exact ⟨_, ruleOf_body hd h⟩
  refine ⟨rule, verification, hrule, ?_⟩
  obtain ⟨header, hmatch, hafter, hgroup⟩ := matchStart_text hd
  obtain ⟨hne, -⟩ := letters_of_fullmatch hd.capsuleId
  unfold readText
  simp only [hmatch, hafter, hgroup, Option.getD_some, readHeader_header hd, hd.get_id,
    hd.get_scope, titleOf_body hd, hrule]
  rw [require, ensure, if_pos ⟨hd.capsuleId, (stem_fileName hne).symm⟩, require, ensure,
    if_pos ⟨d.scope, rfl, hd.scope⟩, ok_bind, ok_bind]

/-- **A file is read again if it is not too long.** -/
theorem readCapsule_bytes {d : Draft} (hd : d.Valid) (env : Environment) {bytes : List UInt8}
    (h : Utf8.encode d.text = some bytes) :
    readCapsule env (fileName d.capsuleId) (some (.regular bytes)) =
      if bytes.length ≤ sizeLimit then readText env (fileName d.capsuleId) d.text
      else .error (.value (ofString "invalid capsule file")) := by
  have hread : readCapsule env (fileName d.capsuleId) (some (.regular bytes)) =
      require (bytes.length ≤ sizeLimit) "invalid capsule file" >>= fun _ =>
        readText env (fileName d.capsuleId) d.text := by
    simp only [readCapsule, Utf8.decode_of_encode h,
      universalNewlines_of_notMem (carriageReturn_notMem_text hd)]
  rw [hread, require, ensure]
  by_cases hsize : bytes.length ≤ sizeLimit
  · rw [if_pos hsize, if_pos hsize, ok_bind]
  · rw [if_neg hsize, if_neg hsize, error_bind]

/-! ## What is recorded -/

theorem line_eq_ok {field : String} {value t : Text} (h : line field value = .ok t) :
    t = squeeze value ∧ Line t := by
  unfold line at h
  dsimp only at h
  split_ifs at h with hbad
  obtain rfl := Except.ok.inj h
  exact ⟨rfl, line_join_split (not_or.mp hbad).1⟩

theorem mapM_line_eq_ok {field : String} {values ts : List Text}
    (h : values.mapM (line field) = .ok ts) : ts = values.map squeeze ∧ ∀ t ∈ ts, Line t := by
  induction values generalizing ts with
  | nil =>
    obtain rfl := Except.ok.inj h
    exact ⟨rfl, fun _ ht => by cases ht⟩
  | cons value values ih =>
    rw [List.mapM_cons] at h
    obtain ⟨t, ht, h⟩ := bind_eq_ok.mp h
    obtain ⟨us, hus, h⟩ := bind_eq_ok.mp h
    obtain rfl := Except.ok.inj h
    obtain ⟨rfl, hline⟩ := line_eq_ok ht
    obtain ⟨rfl, hlines⟩ := ih hus
    exact ⟨rfl, List.forall_mem_cons.mpr ⟨hline, hlines⟩⟩

theorem single_isoformat (d : Date) : Single d.isoformat := by
  have hdigit : ∀ n, isLineBreak (digit n) = false := fun n => by
    have hrange : 0x30 ≤ digit n ∧ digit n < 0x3a := by
      unfold digit
      omega
    generalize digit n = c at hrange
    cases h : isLineBreak c with
    | false => rfl
    | true =>
      simp only [isLineBreak, Bool.or_eq_true, Bool.and_eq_true, decide_eq_true_eq,
        beq_iff_eq] at h
      omega
  unfold Single Date.isoformat
  simp only [List.forall_mem_cons, hdigit, true_and]
  decide

/-- **What `prepare` makes** of the arguments and the capsule that is there. -/
structure Prepared (a : Arguments) (stored : Option Capsule) (today : Text) (d : Draft) :
    Prop where
  capsuleId : d.capsuleId = a.capsuleId
  scope : d.scope = a.scope
  title : d.title = squeeze a.title
  triggers : d.triggers = mergedTriggers stored (a.triggers.map squeeze)
  rule : d.rule = squeeze a.rule
  verification : d.verification = squeeze a.verification
  created : d.created = (stored.bind (·.metadata.get? "created")).getD today
  updated : d.updated = today

/-- The triggers that are kept are lines, and there are some. -/
theorem single_mergedTriggers {stored : Option Capsule} {ts : List Text}
    (hstored : ∀ c ∈ stored, c.metadata.Single) (hne : ts ≠ []) (hts : ∀ t ∈ ts, Single t) :
    mergedTriggers stored ts ≠ [] ∧ ∀ t ∈ mergedTriggers stored ts, Single t := by
  cases stored with
  | none => exact ⟨hne, hts⟩
  | some c =>
    unfold mergedTriggers
    constructor
    · obtain ⟨t, ht⟩ := List.exists_mem_of_ne_nil ts hne
      exact List.ne_nil_of_mem (List.mem_eraseDups.mpr (List.mem_append_right _ ht))
    · intro t ht
      rcases List.mem_append.mp (List.mem_eraseDups.mp ht) with ht | ht
      · exact (hstored c rfl).triggers t ht
      · exact hts t ht

/-- **The draft is valid**, and says what was asked for. -/
theorem prepare_eq_ok {env : Environment} {s : AdaptationStore} {a : Arguments} {d : Draft}
    (h : prepare env s a = .ok d) : d.Valid ∧ ∃ stored,
      existing env s (fileName a.capsuleId) = .ok stored ∧
        Prepared a stored env.today.isoformat d := by
  unfold prepare at h
  obtain ⟨_, hcheck, h⟩ := bind_eq_ok.mp h
  obtain ⟨hid, hscope, htriggers⟩ := require_eq_ok.mp hcheck
  obtain ⟨title, htitle, h⟩ := bind_eq_ok.mp h
  obtain ⟨rule, hrule, h⟩ := bind_eq_ok.mp h
  obtain ⟨verification, hverification, h⟩ := bind_eq_ok.mp h
  obtain ⟨triggers, hmap, h⟩ := bind_eq_ok.mp h
  obtain ⟨_, -, h⟩ := bind_eq_ok.mp h
  obtain ⟨_, -, h⟩ := bind_eq_ok.mp h
  obtain ⟨_, -, h⟩ := bind_eq_ok.mp h
  obtain ⟨_, -, h⟩ := bind_eq_ok.mp h
  obtain ⟨stored, hstored, h⟩ := bind_eq_ok.mp h
  obtain ⟨_, -, h⟩ := bind_eq_ok.mp h
  obtain ⟨_, -, h⟩ := bind_eq_ok.mp h
  obtain ⟨rfl, hline⟩ := line_eq_ok htitle
  obtain ⟨rfl, hline'⟩ := line_eq_ok hrule
  obtain ⟨rfl, hline''⟩ := line_eq_ok hverification
  obtain ⟨rfl, hlines⟩ := mapM_line_eq_ok hmap
  dsimp only at h
  split at h
  · cases h
  obtain rfl := Except.ok.inj h
  have hmetadata : ∀ c ∈ stored, c.metadata.Single := by
    rintro c rfl
    unfold existing at hstored
    split at hstored
    · cases hstored
    · cases hread : readCapsule env (fileName a.capsuleId) (some _) with
      | error e =>
        rw [hread] at hstored
        cases hstored
      | ok c' =>
        rw [hread] at hstored
        cases hstored
        exact single_of_readCapsule hread
  obtain ⟨hne, hsingle⟩ := single_mergedTriggers hmetadata (by simpa using htriggers)
    fun t ht => (hlines t ht).single
  refine ⟨⟨hid, hscope, hline, hline', hline'', hne, hsingle, ?_, single_isoformat _⟩, stored,
    hstored, ⟨rfl, rfl, rfl, rfl, rfl, rfl, rfl, rfl⟩⟩
  cases hcreated : stored.bind (·.metadata.get? "created") with
  | none => exact single_isoformat _
  | some created =>
    obtain ⟨c, hc, hget⟩ := Option.bind_eq_some_iff.mp hcreated
    obtain ⟨f, hf, rfl⟩ := Option.map_eq_some_iff.mp hget
    exact (hmetadata c hc).fields f (List.mem_of_find?_eq_some hf)

namespace AdaptationStore

variable (s : AdaptationStore) (name : Text) (bytes : List UInt8)

theorem stored?_replace : (s.replace name bytes).stored? name = some (.regular bytes) := by
  simp [stored?, replace]

end AdaptationStore

/-- **A call that comes to write** succeeds exactly if the file is not too long. -/
theorem record_of_prepare {env : Environment} {s : AdaptationStore} {a : Arguments} {d : Draft}
    {bytes : List UInt8} (hd : prepare env s a = .ok d) (hbytes : Utf8.encode d.text = some bytes) :
    (record env s a).2.stored? (fileName a.capsuleId) = some (.regular bytes) ∧
      if bytes.length ≤ sizeLimit then ∃ r, (record env s a).1 = .ok r
      else ∃ e, record env s a = (.error e, s.replace (fileName a.capsuleId) bytes) := by
  obtain ⟨hvalid, stored, -, hprepared⟩ := prepare_eq_ok hd
  obtain ⟨rule, verification, -, hread⟩ := readText_text hvalid env
  have hcapsule := readCapsule_bytes hvalid env hbytes
  rw [hprepared.capsuleId] at hcapsule hread
  have hentry := s.stored?_replace (fileName a.capsuleId) bytes
  unfold record
  by_cases hsize : bytes.length ≤ sizeLimit
  · rw [if_pos hsize, hread] at hcapsule
    simp only [hd, hbytes, hentry, hcapsule, if_pos hsize, ne_eq, not_true_eq_false, if_false]
    refine ⟨?_, _, rfl⟩
    cases given a.feedbackId with
    | none => exact hentry
    | some _ => exact hentry
  · rw [if_neg hsize] at hcapsule
    simp only [hd, hbytes, hentry, hcapsule, if_neg hsize]
    exact ⟨trivial, _, rfl⟩

/-- A call that succeeds has written a file. -/
theorem prepare_of_isOk {env : Environment} {s : AdaptationStore} {a : Arguments}
    (h : (record env s a).1.isOk = true) :
    ∃ d bytes, prepare env s a = .ok d ∧ Utf8.encode d.text = some bytes ∧
      bytes.length ≤ sizeLimit := by
  cases hd : prepare env s a with
  | error e =>
    simp only [record, hd] at h
    cases h
  | ok d =>
    cases hbytes : Utf8.encode d.text with
    | none =>
      simp only [record, hd, hbytes] at h
      cases h
    | some bytes =>
      refine ⟨d, bytes, rfl, hbytes, ?_⟩
      by_contra hsize
      obtain ⟨-, hrecord⟩ := record_of_prepare hd hbytes
      rw [if_neg hsize] at hrecord
      obtain ⟨e, hrecord⟩ := hrecord
      rw [hrecord] at h
      cases h

/-- **A capsule is read back as it was recorded**: its identifier, its scope, that it is active,
the texts without superfluous white space, and the triggers behind those that were there. -/
def ReadsBack (env : Environment) (s s' : AdaptationStore) (a : Arguments) : Prop :=
  ∃ c stored, readCapsule env (fileName a.capsuleId) (s'.stored? (fileName a.capsuleId)) = .ok c ∧
    c.metadata.get? "id" = some a.capsuleId ∧ c.metadata.get? "scope" = some a.scope ∧
    c.metadata.get? "status" = some (ofString "active") ∧ c.title = squeeze a.title ∧
    c.rule = squeeze a.rule ∧ c.verification = squeeze a.verification ∧
    existing env s (fileName a.capsuleId) = .ok stored ∧
    c.metadata.triggers = mergedTriggers stored (a.triggers.map squeeze)

/-- **What was recorded is read back exactly if the title does not end in the marker of the
rule.** -/
theorem record_readsBack_iff (env : Environment) (s : AdaptationStore) (a : Arguments)
    (h : (record env s a).1.isOk = true) :
    ReadsBack env s (record env s a).2 a ↔ ¬ ofString "## Rule" <:+ squeeze a.title := by
  obtain ⟨d, bytes, hd, hbytes, hsize⟩ := prepare_of_isOk h
  obtain ⟨hentry, -⟩ := record_of_prepare hd hbytes
  obtain ⟨hvalid, stored, hstored, hprepared⟩ := prepare_eq_ok hd
  obtain ⟨rule, verification, hrule, hread⟩ := readText_text hvalid env
  have hcapsule := readCapsule_bytes hvalid env hbytes
  rw [if_pos hsize, hread, hprepared.capsuleId, ← hentry] at hcapsule
  rw [← hprepared.title]
  constructor
  · rintro ⟨c, -, hc, -, -, -, -, hcrule, -⟩ hsuffix
    rw [hcapsule] at hc
    obtain rfl := Except.ok.inj hc
    obtain ⟨r, v, hr, hne⟩ := ruleOf_body_of_suffix hvalid hsuffix
    rw [hrule] at hr
    cases hr
    exact hne (hcrule.trans hprepared.rule.symm)
  · intro hsuffix
    rw [ruleOf_body hvalid hsuffix] at hrule
    cases hrule
    exact ⟨_, stored, hcapsule, by rw [hvalid.get_id, hprepared.capsuleId],
      by rw [hvalid.get_scope, hprepared.scope], d.get_status, hprepared.title, hprepared.rule,
      hprepared.verification, hstored, hprepared.triggers⟩

/-- A call in a new store. -/
def sampleEnvironment : Environment where
  digest t := t
  fold c := [c]
  today := ⟨2026, 1, 2⟩
  now := ofString "2026-01-02T00:00:00+00:00"

def sampleArguments (title : String) : Arguments where
  capsuleId := ofString "tests"
  scope := ofString "global"
  title := ofString title
  triggers := [ofString "test"]
  rule := ofString "Run  them."
  verification := ofString "Look."

theorem record_readsBack_sample :
    (record sampleEnvironment {} (sampleArguments "Tests")).1.isOk = true ∧
      ReadsBack sampleEnvironment {} (record sampleEnvironment {} (sampleArguments "Tests")).2
        (sampleArguments "Tests") := by
  have hok : (record sampleEnvironment {} (sampleArguments "Tests")).1.isOk = true := by
    decide +kernel
  exact ⟨hok, (record_readsBack_iff sampleEnvironment {} (sampleArguments "Tests") hok).mpr
    (by decide +kernel)⟩

/-- **A title that ends in the marker of the rule** is recorded, and the marker is read back as
the beginning of the rule. -/
theorem marker_in_title_misread :
    ¬ ∀ (env : Environment) (s : AdaptationStore) (a : Arguments),
      (record env s a).1.isOk = true → ReadsBack env s (record env s a).2 a := by
  intro h
  let a := sampleArguments "Prefer ## Rule"
  have hread : ((readCapsule sampleEnvironment (fileName a.capsuleId)
      ((record sampleEnvironment {} a).2.stored? (fileName a.capsuleId))).toOption.map (·.rule))
      = some (ofString "## Rule\n\nRun them.") := by
    decide +kernel
  obtain ⟨c, -, hc, -, -, -, -, hrule, -⟩ := h sampleEnvironment {} a (by decide +kernel)
  rw [hc] at hread
  have hsqueeze : squeeze a.rule = ofString "## Rule\n\nRun them." :=
    hrule.symm.trans (Option.some.inj hread)
  revert hsqueeze
  decide +kernel

end Capsules
