import OpenCAO.RegexPieces
import OpenCAO.TaskPayloads

/-!
# Scans of a text in two parts

The scanners of a text look at words and at the white space between them. At a white
space a text falls into two parts for most of what they look for; the exceptions are the
patterns that read white space themselves.
-/

/-- **What is known of white space**: it is no letter, no digit and no symbol. -/
structure Library.Spaced (lib : Library) : Prop where
  isAlnum : ∀ {c : ℕ}, Text.isSpace c = true → lib.isAlnum c = false
  isDigit : ∀ {c : ℕ}, Text.isSpace c = true → lib.isDigit c = false
  isLettered : ∀ {c : ℕ}, Text.isSpace c = true → lib.isLettered c = false

namespace Credentials

open Regex

variable {lib : Library} {s : ℕ}

/-! ## White space in patterns -/

theorem cases_of_isSpace (hs : Text.isSpace s = true) :
    (9 ≤ s ∧ s ≤ 13) ∨ (0x1c ≤ s ∧ s ≤ 0x20) ∨ s = 0x85 ∨ s = 0xa0 ∨ 0x1680 ≤ s := by
  simp only [Text.isSpace, Bool.or_eq_true, Bool.and_eq_true, decide_eq_true_eq, beq_iff_eq] at hs
  omega

/-- White space has no case. -/
theorem fold_of_isSpace (hs : Text.isSpace s = true) : fold s = s := by
  have := cases_of_isSpace hs
  have hk : s ≠ 0x212a := by rintro rfl; cases hs
  unfold fold
  split_ifs <;> omega

theorem isAlnumFolded_of_isSpace (hs : Text.isSpace s = true) : isAlnumFolded s = false := by
  have := cases_of_isSpace hs
  simp only [isAlnumFolded, Bool.or_eq_false_iff, Bool.and_eq_false_iff, decide_eq_false_iff_not]
  omega

theorem isAlnum_of_isSpace (hs : Text.isSpace s = true) : Secrets.isAlnum s = false := by
  have := cases_of_isSpace hs
  simp only [Secrets.isAlnum, Bool.or_eq_false_iff, Bool.and_eq_false_iff,
    decide_eq_false_iff_not]
  omega

/-- White space is not among the letters of a word. -/
theorem notMem_of_isSpace (hs : Text.isSpace s = true) {t : Text}
    (ht : t.all (fun c => !Text.isSpace c) = true) : s ∉ t := fun h => by
  have := List.all_eq_true.mp ht s h
  rw [hs] at this
  cases this

theorem isValueChar_of_isSpace (hs : Text.isSpace s = true) : isValueChar s = false := by
  unfold isValueChar
  rw [hs]
  rfl

theorem stopsAt_oneOf (hs : Text.isSpace s = true) {p : ℕ → Bool} (hp : p s = false) :
    (oneOf p).StopsAt s := by
  show p (fold s) = false
  rw [fold_of_isSpace hs, hp]

theorem stopsAt_word (hs : Text.isSpace s = true) {w : String}
    (hw : ((Text.ofString w).map fold).all (fun c => !Text.isSpace c) = true) :
    (word w).StopsAt s := by
  refine leaves_chain fun r hr => ?_
  obtain ⟨a, ha, rfl⟩ := List.mem_map.mp hr
  refine stopsAt_oneOf hs (decide_eq_false ?_)
  rintro rfl
  exact notMem_of_isSpace hs hw (List.mem_map_of_mem ha)

/-- A letter is a letter of a word, as `\b` has it. -/
theorem isWord_of_isSpace (law : lib.Spaced) (hs : Text.isSpace s = true) :
    (lib.isAlnum s || s == 0x5f) = false := by
  rw [law.isAlnum hs, Bool.false_or, beq_eq_false_iff_ne]
  rintro rfl
  cases hs

theorem stopsAt_boundary (law : lib.Spaced) (hs : Text.isSpace s = true) :
    (boundary lib).StopsAt s := fun x => by
  show (_ != (lib.isAlnum s || s == 0x5f)) = _
  rw [isWord_of_isSpace law hs]
  rfl

theorem startsAt_boundary (law : lib.Spaced) (hs : Text.isSpace s = true) :
    (boundary lib).StartsAt s := fun x => by
  show ((lib.isAlnum s || s == 0x5f) != _) = _
  rw [isWord_of_isSpace law hs]
  rfl

/-! ## Words without case -/

/-- **A word is read if the text goes on with it**, up to case. -/
theorem ends_letters (t : Text) (c : Cursor ℕ) :
    ends (.chain (t.map fun a => oneOf (· = fold a))) c =
      if t.map fold <+: c.after.map fold then
        [⟨(c.after.take t.length).reverse ++ c.before, c.after.drop t.length, c.groups⟩]
      else [] := by
  induction t generalizing c with
  | nil => exact (if_pos List.nil_prefix).symm
  | cons a t ih =>
    obtain ⟨before, after, groups⟩ := c
    rw [List.map_cons, ends_chain_cons]
    show (ends (oneOf (· = fold a)) ⟨before, after, groups⟩).flatMap _ = _
    cases after with
    | nil => simp [oneOf, ends]
    | cons b after =>
      show (if decide (fold b = fold a) = true then [_] else []).flatMap _ = _
      by_cases hb : fold b = fold a
      · rw [if_pos (decide_eq_true hb), List.flatMap_singleton, ih]
        simp [hb, List.cons_prefix_cons]
      · rw [if_neg (by simpa using hb)]
        simp [Ne.symm hb, List.cons_prefix_cons]

theorem plain_word (w : String) : (word w).plain = true := by
  unfold word
  induction Text.ofString w with
  | nil => rfl
  | cons a t ih =>
    cases t with
    | nil => rfl
    | cons b t => exact ih

theorem map_fold_of_mem_words {w : String} {v : Text} (hv : v ∈ (word w).words) :
    v.map fold = (Text.ofString w).map fold := by
  obtain ⟨d, hd, hafter⟩ := exists_mem_ends (plain_word w) ⟨[], v, []⟩ v hv [] (by simp)
  rw [word, ends_letters] at hd
  split at hd
  · rename_i hfront
    rw [List.mem_singleton] at hd
    subst hd
    exact (hfront.eq_of_length_le (by simpa using hafter)).symm
  · cases hd

/-- What is no letter has no case. -/
theorem fold_eq_iff {c d : ℕ} (hd : d < 0x41 ∨ 0x5a < d ∧ d < 0x61) : fold c = d ↔ c = d := by
  unfold fold
  split_ifs <;> omega

/-- A word has the letters that it is spelled with, if they have no case. -/
theorem mem_of_mem_words {w : String} {v : Text} (hv : v ∈ (word w).words) {d : ℕ}
    (hd : d < 0x41 ∨ 0x5a < d ∧ d < 0x61) (hmem : d ∈ Text.ofString w) : d ∈ v := by
  have hfold : fold d ∈ v.map fold := map_fold_of_mem_words hv ▸ List.mem_map_of_mem hmem
  obtain ⟨c, hc, hcd⟩ := List.mem_map.mp hfold
  rw [(fold_eq_iff hd).mpr rfl, fold_eq_iff hd] at hcd
  exact hcd ▸ hc

/-- The text ends with a word, up to case. -/
def EndsWith (k t : Text) : Prop := k.map fold <:+ t.map fold

instance (k t : Text) : Decidable (EndsWith k t) :=
  inferInstanceAs (Decidable (k.map fold <:+ t.map fold))

/-! ## The forms of credentials -/

/-- **The forms of credentials at a white space**: each of them ends before it, or asserts
nothing about what comes behind. -/
theorem exists_alternatives (law : lib.Spaced) (hs : Text.isSpace s = true) :
    ∃ rs, genericCredentialPattern lib = .anyOf rs ∧
      ∀ r ∈ rs, r.StartsAt s ∧ (r.StopsAt s ∨ r.forward = true) := by
  have hstart := startsAt_boundary law hs
  have hstop := stopsAt_boundary law hs
  have halnum := isAlnumFolded_of_isSpace hs
  have hmem : ∀ {t : Text}, t.all (fun c => !Text.isSpace c) = true → decide (s ∈ t) = false :=
    fun ht => decide_eq_false (notMem_of_isSpace hs ht)
  have hne : ∀ c, Text.isSpace c = false → (s == c) = false := fun c hc => by
    rw [beq_eq_false_iff_ne]
    rintro rfl
    rw [hs] at hc
    cases hc
  refine ⟨_, rfl, fun r hr => ?_⟩
  simp only [List.mem_cons, List.not_mem_nil, or_false] at hr
  rcases hr with rfl | rfl | rfl | rfl | rfl | rfl | rfl | rfl | rfl
  · refine ⟨⟨hstart, startsAt_of_plain (by decide), startsAt_of_plain (by decide), hstart⟩, .inl
      ⟨hstop, stopsAt_word hs (by decide), leaves_atLeast (stopsAt_oneOf hs ?_) 20, hstop⟩⟩
    rw [halnum, hne 0x5f rfl]
    rfl
  · exact ⟨⟨hstart, startsAt_of_plain (by decide), startsAt_of_plain (by decide),
      startsAt_of_plain (by decide), startsAt_of_plain (by decide), hstart⟩, .inl
      ⟨hstop, stopsAt_word hs (by decide), stopsAt_oneOf hs (hmem (by decide)),
        stopsAt_word hs (by decide), leaves_atLeast (stopsAt_oneOf hs halnum) 30, hstop⟩⟩
  · refine ⟨⟨hstart, startsAt_of_plain (by decide), startsAt_of_plain (by decide),
      startsAt_of_plain (by decide), startsAt_of_plain (by decide), hstart⟩, .inl
      ⟨hstop, stopsAt_word hs (by decide), stopsAt_oneOf hs (hmem (by decide)),
        stopsAt_word hs (by decide), leaves_atLeast (stopsAt_oneOf hs ?_) 10, hstop⟩⟩
    rw [halnum, hne 0x2d rfl]
    rfl
  · refine ⟨⟨hstart, startsAt_of_plain (by decide), startsAt_of_plain (by decide),
      startsAt_of_plain (by decide), hstart⟩, .inl
      ⟨hstop, stopsAt_word hs (by decide), leaves_opt (stopsAt_word hs (by decide)),
        leaves_atLeast (stopsAt_oneOf hs ?_) 16, hstop⟩⟩
    rw [halnum, hne 0x5f rfl, hne 0x2d rfl]
    rfl
  · exact ⟨startsAt_of_plain (by decide), .inr (forward_of_plain (by decide))⟩
  · exact ⟨⟨hstart, startsAt_of_plain (by decide)⟩,
      .inr (forward_check_seq (by decide) (by decide))⟩
  · exact ⟨⟨hstart, startsAt_of_plain (by decide)⟩,
      .inr (forward_check_seq (by decide) (by decide))⟩
  · exact ⟨⟨hstart, startsAt_of_plain (by decide), startsAt_of_plain (by decide), hstart⟩, .inl
      ⟨hstop, stopsAt_word hs (by decide), leaves_times (stopsAt_oneOf hs halnum) 16, hstop⟩⟩
  · exact ⟨⟨hstart, startsAt_of_plain (by decide)⟩,
      .inr (forward_check_seq (by decide) (by decide))⟩

/-! ## URLs -/

theorem nullable_httpUrlPattern : (httpUrlPattern lib).nullable = false := rfl

theorem startsAt_httpUrlPattern (law : lib.Spaced) (hs : Text.isSpace s = true) :
    (httpUrlPattern lib).StartsAt s :=
  ⟨startsAt_boundary law hs, startsAt_of_plain (by decide)⟩

theorem stopsAt_httpUrlPattern (law : lib.Spaced) (hs : Text.isSpace s = true) :
    (httpUrlPattern lib).StopsAt s := by
  refine ⟨stopsAt_boundary law hs, stopsAt_word hs (by decide),
    leaves_opt (stopsAt_word hs (by decide)), stopsAt_word hs (by decide), leaves_plus ?_⟩
  show (!Text.isSpace s && _) = false
  rw [hs]
  rfl

/-- **No URL goes across white space.** -/
theorem urls_append_cons (law : lib.Spaced) (hs : Text.isSpace s = true) (x y : Text) :
    (httpUrlPattern lib).pieces (x ++ s :: y)
      = (httpUrlPattern lib).pieces x ++ .letter s :: (httpUrlPattern lib).pieces y :=
  (stopsAt_httpUrlPattern law hs).pieces_append_cons nullable_httpUrlPattern
    (startsAt_httpUrlPattern law hs) x y

theorem candidates_append_cons (law : lib.Spaced) (hs : Text.isSpace s = true) (x y : Text) :
    candidates lib (x ++ s :: y) = candidates lib x ++ candidates lib y := by
  have heq : ∀ t, candidates lib t
      = (((httpUrlPattern lib).pieces t).filterMap Piece.text?).map stripPunctuation := by
    intro t
    rw [filterMap_pieces, List.map_map]
    rfl
  rw [heq, heq, heq, urls_append_cons law hs, List.filterMap_append, List.map_append]
  rfl

theorem anyUserinfo_append {front urls : List Text} :
    anyUserinfo lib (front ++ urls) = .ok false ↔
      anyUserinfo lib front = .ok false ∧ anyUserinfo lib urls = .ok false := by
  induction front with
  | nil => simp [anyUserinfo]
  | cons url front ih =>
    show (Url.urlsplit lib url >>= _) = _ ↔ (Url.urlsplit lib url >>= _) = _ ∧ _
    cases Url.urlsplit lib url with
    | error e => simp [bind, Except.bind]
    | ok parsed =>
      show (if _ then _ else _) = _ ↔ (if _ then _ else _) = _ ∧ _
      split
      · simp
      · exact ih

/-! ## The scan for credentials -/

/-- A text that is normalized already. -/
def Normal (lib : Library) (t : Text) : Prop := lib.nfkc t = t

theorem scan_eq_ok_false {t : Text} (ht : Normal lib t) :
    containsGenericCredentialText lib t = .ok false ↔
      ¬ Matches (genericCredentialPattern lib) t ∧
        anyUserinfo lib (candidates lib t) = .ok false := by
  unfold containsGenericCredentialText
  dsimp only
  rw [show lib.nfkc t = t from ht, search_isSome_iff.symm.not]
  by_cases hform : ((genericCredentialPattern lib).search t).isSome = true
  · simp [hform]
  · simp [hform]

/-- **A text without credentials, cut short**, has none exactly if there is none behind a white
space. -/
theorem scan_of_cut (law : lib.Spaced) (hs : Text.isSpace s = true) {x y z : Text}
    (hwhole : Normal lib (x ++ s :: (y ++ z))) (hcut : Normal lib (x ++ s :: y))
    (hy : Normal lib y) (h : containsGenericCredentialText lib (x ++ s :: (y ++ z)) = .ok false) :
    containsGenericCredentialText lib (x ++ s :: y) = .ok false ↔
      containsGenericCredentialText lib y = .ok false := by
  obtain ⟨rs, hrs, halternatives⟩ := exists_alternatives law hs
  obtain ⟨hnone, hurls⟩ := (scan_eq_ok_false hwhole).mp h
  rw [candidates_append_cons law hs, anyUserinfo_append] at hurls
  rw [scan_eq_ok_false hcut, scan_eq_ok_false hy, candidates_append_cons law hs,
    anyUserinfo_append, hrs]
  rw [hrs] at hnone
  rw [matches_of_cut (fun r hr => (halternatives r hr).2)
    (fun r hr => (halternatives r hr).1) hnone]
  exact and_congr_right fun _ => and_iff_right hurls.1

/-- What stands before a white space in a text without credentials has none. -/
theorem scan_of_front (law : lib.Spaced) (hs : Text.isSpace s = true) {x y : Text}
    (hwhole : Normal lib (x ++ s :: y)) (hx : Normal lib x)
    (h : containsGenericCredentialText lib (x ++ s :: y) = .ok false) :
    containsGenericCredentialText lib x = .ok false := by
  obtain ⟨rs, hrs, halternatives⟩ := exists_alternatives law hs
  obtain ⟨hnone, hurls⟩ := (scan_eq_ok_false hwhole).mp h
  rw [candidates_append_cons law hs, anyUserinfo_append] at hurls
  rw [hrs] at hnone
  rw [scan_eq_ok_false hx, hrs]
  exact ⟨mt (matches_of_front fun r hr => (halternatives r hr).2) hnone, hurls.1⟩

end Credentials
