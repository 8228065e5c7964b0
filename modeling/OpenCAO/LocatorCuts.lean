import OpenCAO.ScanCuts

/-!
# Private locators in a text in two parts

Before private locators are looked for, URLs are replaced and routes of a service are taken
out. A route is the one thing here that reads white space: a method, white space, and a
path. So a white space cuts a text in two for the whole search unless a method stands
before it and a slash behind it; and, for the one name of a directory that has a blank,
unless the two halves of that name stand on its sides.
-/

namespace TaskPayloads

open Credentials Regex

variable {lib : Library} {s : ℕ}

/-! ## URLs replaced -/

/-- The pieces of a text with the URLs replaced. -/
def replacePieces (lib : Library) : List (Piece ℕ) → Except ValueError Text
  | [] => .ok []
  | .letter c :: ps => do
    let rest ← replacePieces lib ps
    .ok (c :: rest)
  | .found url :: ps => do
    let url ← replaceUrl lib url
    let rest ← replacePieces lib ps
    .ok (url ++ rest)

/-- A text with the URLs replaced. -/
def withoutUrls (lib : Library) (t : Text) : Except ValueError Text :=
  replacePieces lib ((httpUrlPattern lib).pieces t)

/-- A text with the routes of a service taken out. -/
def withoutRoutes (lib : Library) (t : Text) : Text :=
  (httpRoutePattern lib).sub (fun m => replaceRoute m.text) t

theorem replacePieces_letters (lib : Library) (t : Text) (ps : List (Piece ℕ)) :
    replacePieces lib (t.map .letter ++ ps) = (replacePieces lib ps).map (t ++ ·) := by
  induction t with
  | nil =>
    show replacePieces lib ps = _
    cases replacePieces lib ps <;> rfl
  | cons c t ih =>
    show (replacePieces lib (t.map .letter ++ ps) >>= _) = _
    rw [ih]
    cases replacePieces lib ps <;> rfl

theorem replacePieces_append (ps qs : List (Piece ℕ)) :
    replacePieces lib (ps ++ qs) = (do
      let front ← replacePieces lib ps
      let rest ← replacePieces lib qs
      .ok (front ++ rest)) := by
  induction ps with
  | nil =>
    show replacePieces lib qs = (replacePieces lib qs >>= fun rest => .ok ([] ++ rest))
    cases replacePieces lib qs <;> rfl
  | cons p ps ih =>
    cases p with
    | letter c =>
      show (replacePieces lib (ps ++ qs) >>= _) = ((replacePieces lib ps >>= _) >>= _)
      rw [ih]
      cases replacePieces lib ps <;> cases replacePieces lib qs <;> rfl
    | found url =>
      show (replaceUrl lib url >>= fun url => replacePieces lib (ps ++ qs) >>= _)
        = ((replaceUrl lib url >>= fun url => replacePieces lib ps >>= _) >>= _)
      rw [ih]
      cases replaceUrl lib url with
      | error e => rfl
      | ok url =>
        cases replacePieces lib ps with
        | error e => rfl
        | ok front =>
          cases replacePieces lib qs with
          | error e => rfl
          | ok rest => exact congrArg Except.ok (List.append_assoc url front rest).symm

theorem replacePieces_glue (ms : List (Match ℕ)) (tail : Text) :
    replacePieces lib (glue (ms, tail)) = (replaceUrls lib ms).map (· ++ tail) := by
  induction ms with
  | nil =>
    have hletters := replacePieces_letters lib tail []
    rw [List.append_nil] at hletters
    show replacePieces lib (tail.map .letter) = _
    rw [hletters]
    exact congrArg Except.ok (List.append_nil tail)
  | cons m ms ih =>
    rw [glue_cons, replacePieces_letters]
    show (replaceUrl lib m.text >>= fun url => replacePieces lib (glue (ms, tail)) >>= _).map _
      = (replaceUrl lib m.text >>= fun url => replaceUrls lib ms >>= _).map _
    rw [ih]
    cases replaceUrl lib m.text with
    | error e => rfl
    | ok url =>
      cases replaceUrls lib ms with
      | error e => rfl
      | ok rest => exact congrArg Except.ok (by simp)

/-- **The URLs are replaced, and then the routes.** -/
theorem withoutPublicHttpUrls_eq (t : Text) :
    withoutPublicHttpUrls lib t = (withoutUrls lib t).map (withoutRoutes lib) := by
  unfold withoutUrls
  rw [show (httpUrlPattern lib).pieces t = glue (((httpUrlPattern lib).finditer t).1,
    ((httpUrlPattern lib).finditer t).2) from rfl, replacePieces_glue]
  show (replaceUrls lib ((httpUrlPattern lib).finditer t).1 >>= _) = _
  cases replaceUrls lib ((httpUrlPattern lib).finditer t).1 <;> rfl

theorem withoutUrls_append_cons (law : lib.Spaced) (hs : Text.isSpace s = true) (x y : Text) :
    withoutUrls lib (x ++ s :: y) = (do
      let front ← withoutUrls lib x
      let rest ← withoutUrls lib y
      .ok (front ++ s :: rest)) := by
  unfold withoutUrls
  rw [urls_append_cons law hs, replacePieces_append]
  cases replacePieces lib ((httpUrlPattern lib).pieces x) with
  | error e => rfl
  | ok front =>
    show (replacePieces lib (.letter s :: (httpUrlPattern lib).pieces y) >>= _) = _
    show ((replacePieces lib ((httpUrlPattern lib).pieces y) >>= _) >>= _) = _
    cases replacePieces lib ((httpUrlPattern lib).pieces y) <;> rfl

/-- Every URL has a slash. -/
theorem slash_mem_of_url {w : Text} (hw : w ∈ (httpUrlPattern lib).words) : 0x2f ∈ w := by
  obtain ⟨-, -, w, hw, rfl⟩ := Language.mem_mul.mp hw
  obtain ⟨-, -, w, hw, rfl⟩ := Language.mem_mul.mp hw
  obtain ⟨-, -, w, hw, rfl⟩ := Language.mem_mul.mp hw
  obtain ⟨v, hv, w, -, rfl⟩ := Language.mem_mul.mp hw
  have hslash : 0x2f ∈ v := mem_of_mem_words hv (by omega) (by decide)
  simp [hslash]

theorem withoutUrls_of_notMem {t : Text} (h : 0x2f ∉ t) : withoutUrls lib t = .ok t := by
  unfold withoutUrls
  rw [pieces_of_notMem nullable_httpUrlPattern (fun w hw => slash_mem_of_url hw) h]
  have hletters := replacePieces_letters lib t []
  rw [List.append_nil] at hletters
  rw [hletters]
  exact congrArg Except.ok (List.append_nil t)

/-! ## Routes -/

/-- The methods of a route. -/
def httpMethods : List Text :=
  ["GET", "HEAD", "POST", "PUT", "PATCH", "DELETE", "OPTIONS", "CONNECT", "TRACE"].map Text.ofString

/-- A method stands before a white space, and a slash behind it. -/
def RouteAcross (x y : Text) : Prop :=
  (∃ u v, x = u ++ v ∧ (∀ c ∈ v, Text.isSpace c = true) ∧ ∃ m ∈ httpMethods, EndsWith m u) ∧
    0x2f ∈ y

theorem nullable_httpRoutePattern : (httpRoutePattern lib).nullable = false := rfl

theorem startsAt_httpRoutePattern (law : lib.Spaced) (hs : Text.isSpace s = true) :
    (httpRoutePattern lib).StartsAt s :=
  ⟨startsAt_boundary law hs, startsAt_of_plain (by decide), startsAt_of_plain (by decide),
    startsAt_of_plain (by decide), fun _ => rfl, startsAt_of_plain (by decide)⟩

/-- What a route reads behind its method. -/
def targetPattern : Regex ℕ :=
  .chain [.plus (.one Text.isSpace), word "/", .check fun _ b => b != some 0x2f,
    .plus (.one fun c => !Text.isSpace c && c ∉ Text.ofString ",;\"')>]\x7d")]

theorem slash_mem_of_target {w : Text} (hw : w ∈ targetPattern.words) : 0x2f ∈ w := by
  obtain ⟨-, -, w, hw, rfl⟩ := Language.mem_mul.mp hw
  obtain ⟨v, hv, w, -, rfl⟩ := Language.mem_mul.mp hw
  have hslash : 0x2f ∈ v := mem_of_mem_words hv (by omega) (by decide)
  simp [hslash]

theorem stopsAt_target (hs : Text.isSpace s = true) :
    (chain [word "/", .check fun _ b => b != some 0x2f,
      .plus (.one fun c => !Text.isSpace c && c ∉ Text.ofString ",;\"')>]\x7d")]).StopsAt s := by
  refine ⟨stopsAt_word hs (by decide), fun _ => ?_, leaves_plus ?_⟩
  · have hslash : s ≠ 0x2f := by
      rintro rfl
      cases hs
    simp [bne, hslash]
  · show (!Text.isSpace s && _) = false
    rw [hs]
    rfl

/-- **A route goes across white space only behind its method**, and only if there is a slash
on the other side. -/
theorem ends_httpRoutePattern (law : lib.Spaced) (hs : Text.isSpace s = true) {x y : Text}
    (hcross : ¬ RouteAcross x y) (u v : Text) (hx : x = u ++ v) :
    (httpRoutePattern lib).ends ⟨u.reverse, v ++ s :: y, []⟩
      = ((httpRoutePattern lib).ends ⟨u.reverse, v, []⟩).map (·.extend (s :: y)) := by
  have hmethods : (anyOf (["GET", "HEAD", "POST", "PUT", "PATCH", "DELETE", "OPTIONS", "CONNECT",
      "TRACE"].map word)).StopsAt s := by
    refine leaves_anyOf (List.cons_ne_nil _ _) fun r hr => ?_
    obtain ⟨m, hm, rfl⟩ := List.mem_map.mp hr
    refine stopsAt_word hs ?_
    clear hr
    revert m
    decide
  refine ends_seq_moved (f := fun c => c.extend (s :: y)) (c := ⟨u.reverse, v, []⟩)
    ((stopsAt_boundary law hs).ends_extend _ _) fun c hc => ?_
  refine ends_seq_moved (f := fun c => c.extend (s :: y)) (hmethods.ends_extend c y) fun d hd => ?_
  by_cases hspaces : ∀ b ∈ d.after, Text.isSpace b = true
  · -- Nothing but white space is left: a route would have its slash on the other side.
    obtain ⟨e, he, hcd⟩ := mem_ends_anyOf.mp hd
    obtain ⟨m, hm, rfl⟩ := List.mem_map.mp he
    obtain ⟨w, hw, hreads⟩ := reads_of_mem_ends _ c d hcd
    obtain ⟨_, rfl, hfront⟩ := reads_of_mem_ends (boundary lib) _ c hc
    have hv : v = w ++ d.after := hfront.after.trans hreads.after
    have hslash : 0x2f ∉ y := by
      refine fun hy => hcross ⟨⟨u ++ w, d.after, by rw [hx, hv, List.append_assoc], hspaces,
        Text.ofString m, List.mem_map_of_mem hm, ?_⟩, hy⟩
      unfold EndsWith
      rw [List.map_append, map_fold_of_mem_words hw]
      exact List.suffix_append _ _
    have hbehind : 0x2f ∉ d.after ++ s :: y := by
      simp only [List.mem_append, List.mem_cons, not_or]
      refine ⟨fun h => ?_, ?_, hslash⟩
      · cases hspaces 0x2f h
      · rintro rfl
        cases hs
    have hnone : ∀ {e : Cursor ℕ}, 0x2f ∉ e.after → targetPattern.ends e = [] := fun h =>
      ends_of_notMem (fun w hw => slash_mem_of_target hw) h
    show targetPattern.ends (d.extend (s :: y)) = (targetPattern.ends d).map _
    rw [hnone hbehind, hnone fun h => hbehind (List.mem_append_left _ h)]
    rfl
  · obtain ⟨b, hb, hspace⟩ : ∃ b ∈ d.after, Text.isSpace b = false := by simpa using hspaces
    have hstop : (plus (.one Text.isSpace)).StopsAt b := leaves_plus hspace
    refine ends_seq_moved (f := fun c => c.extend (s :: y)) (hstop.ends_extend_of_mem hb _)
      fun e _ => ?_
    exact StopsAt.ends_extend (stopsAt_target hs) e y

theorem withoutRoutes_append_cons (law : lib.Spaced) (hs : Text.isSpace s = true) {x y : Text}
    (hcross : ¬ RouteAcross x y) :
    withoutRoutes lib (x ++ s :: y) = withoutRoutes lib x ++ s :: withoutRoutes lib y := by
  unfold withoutRoutes
  rw [sub_eq_flatMap, sub_eq_flatMap, sub_eq_flatMap,
    pieces_append_cons nullable_httpRoutePattern (startsAt_httpRoutePattern law hs)
      (ends_httpRoutePattern law hs hcross), List.flatMap_append]
  rfl

theorem withoutRoutes_of_notMem {t : Text} (h : 0x2f ∉ t) : withoutRoutes lib t = t := by
  unfold withoutRoutes
  rw [sub_eq_flatMap, pieces_of_notMem nullable_httpRoutePattern (fun w hw => ?_) h]
  · induction t with
    | nil => rfl
    | cons c t ih => exact congrArg (c :: ·) (ih fun hmem => h (List.mem_cons_of_mem c hmem))
  · obtain ⟨-, -, v, hv, rfl⟩ := Language.mem_mul.mp hw
    obtain ⟨-, -, v, hv, rfl⟩ := Language.mem_mul.mp hv
    exact List.mem_append_right _ (List.mem_append_right _ (slash_mem_of_target hv))

/-! ## Private locators -/

/-- A word with a blank is read across a white space only if its halves stand on the sides. -/
theorem prefix_append_cons_of_blank {p q : Text} (hs : Text.isSpace s = true)
    (hp : p.all (fun c => !Text.isSpace c) = true)
    (hq : q.all (fun c => !Text.isSpace c) = true) {t y : Text}
    (h : p ++ 0x20 :: q <+: t ++ s :: y) :
    p ++ 0x20 :: q <+: t ∨ t = p ∧ q <+: y := by
  rcases List.prefix_or_prefix_of_prefix h (List.prefix_append t (s :: y)) with h' | ⟨u, hu⟩
  · exact .inl h'
  · rw [← hu, List.prefix_append_right_inj] at h
    cases u with
    | nil => exact .inl ⟨[], by simpa using hu.symm⟩
    | cons c u =>
      obtain ⟨rfl, hu'⟩ := List.cons_prefix_cons.mp h
      -- The blank is the only white space of the word.
      rcases List.append_eq_append_iff.mp hu with ⟨v, rfl, hv⟩ | ⟨v, rfl, hv⟩
      · cases v with
        | nil => exact .inr ⟨(List.append_nil t).symm, (List.cons.inj hv).2 ▸ hu'⟩
        | cons d v =>
          obtain ⟨rfl, -⟩ := List.cons.inj hv
          exact absurd (List.mem_append_right t List.mem_cons_self) (notMem_of_isSpace hs hp)
      · cases v with
        | nil => exact .inr ⟨List.append_nil p, (List.cons.inj hv).2 ▸ hu'⟩
        | cons d v =>
          obtain ⟨-, rfl⟩ := List.cons.inj hv
          exact absurd (List.mem_append_right v List.mem_cons_self) (notMem_of_isSpace hs hq)

/-- The name of a directory that has a blank. -/
theorem ends_programFiles (hs : Text.isSpace s = true) {c : Cursor ℕ} {y : Text}
    (hcross : c.after.map fold = (Text.ofString "Program").map fold →
      ¬ (Text.ofString "Files").map fold <+: y.map fold) :
    (word "Program Files").ends (c.extend (s :: y))
      = ((word "Program Files").ends c).map (·.extend (s :: y)) := by
  unfold word
  rw [ends_letters, ends_letters]
  show (if _ <+: (c.after ++ s :: y).map fold then _ else _) = _
  by_cases hfront : (Text.ofString "Program Files").map fold <+: c.after.map fold
  · have hlength : (Text.ofString "Program Files").length ≤ c.after.length := by
      simpa using hfront.length_le
    have hwhole : (Text.ofString "Program Files").map fold <+: (c.after ++ s :: y).map fold := by
      rw [List.map_append]
      exact hfront.trans (List.prefix_append _ _)
    rw [if_pos hfront, if_pos hwhole]
    show [_] = [_]
    simp only [Cursor.extend]
    rw [List.take_append_of_le_length hlength, List.drop_append_of_le_length hlength]
  · rw [if_neg hfront, if_neg]
    · rfl
    · rw [List.map_append, List.map_cons, fold_of_isSpace hs]
      intro h
      rcases prefix_append_cons_of_blank (p := (Text.ofString "Program").map fold)
        (q := (Text.ofString "Files").map fold) hs (by decide) (by decide) h with h | ⟨h, h'⟩
      · exact hfront h
      · exact hcross h h'

/-- The name of a directory stands on both sides of a white space. -/
def DirectoryAcross (x y : Text) : Prop :=
  EndsWith (Text.ofString "\\Program") x ∧ (Text.ofString "Files").map fold <+: y.map fold

theorem stopsAt_pathTail (hs : Text.isSpace s = true) : pathTail.StopsAt s :=
  leaves_plus (isValueChar_of_isSpace hs)

/-- A directory of the system goes across white space only by the blank of its name. -/
theorem matches_directory_append_cons (hs : Text.isSpace s = true) {x y : Text}
    (hcross : ¬ DirectoryAcross x y) {r : Regex ℕ}
    (hr : r = .chain [.check fun a _ => !a.any (fun c => isAlnumFolded (fold c)), word "\\",
      .anyOf (["Windows", "Users", "ProgramData", "Program Files", "AppData", "System32",
        "Temp"].map word), .opt (.seq (word "\\") pathTail)]) :
    Matches r (x ++ s :: y) ↔ Matches r x ∨ Matches r y := by
  subst hr
  refine matches_append_cons_iff ?_ fun u v hx => ?_
  · refine ⟨fun _ => ?_, startsAt_of_plain (by decide), startsAt_of_plain (by decide),
      startsAt_of_plain (by decide)⟩
    show (!isAlnumFolded (fold s)) = _
    rw [fold_of_isSpace hs, isAlnumFolded_of_isSpace hs]
    rfl
  · refine ends_seq_moved (f := fun c => c.extend (s :: y)) (c := ⟨u.reverse, v, []⟩)
      (StopsAt.ends_extend (r := .check _) (fun _ => rfl) _ y) fun c hc => ?_
    refine ends_seq_moved (f := fun c => c.extend (s :: y))
      (StopsAt.ends_extend (stopsAt_word hs (by decide)) c y) fun d hd => ?_
    refine ends_seq_moved (f := fun c => c.extend (s :: y))
      (ends_anyOf_moved (f := fun c => c.extend (s :: y)) (List.cons_ne_nil _ _) fun r hr => ?_)
      fun e _ => ?_
    · obtain ⟨w, hw, rfl⟩ := List.mem_map.mp hr
      by_cases hblank : w = "Program Files"
      · subst hblank
        refine ends_programFiles hs fun hfront hrest => hcross ⟨?_, hrest⟩
        obtain ⟨_, rfl, hnone⟩ := reads_of_mem_ends (.check _) _ c hc
        obtain ⟨b, hb, hreads⟩ := reads_of_mem_ends (word "\\") c d hd
        have hv : v = b ++ d.after := hnone.after.trans hreads.after
        unfold EndsWith
        rw [hx, hv, List.map_append, List.map_append, map_fold_of_mem_words hb, hfront]
        exact List.suffix_append _ _
      · refine (stopsAt_word hs ?_).ends_extend d y
        clear hr
        revert w
        decide
    · have htail : (Regex.opt (.seq (word "\\") pathTail)).StopsAt s :=
        leaves_opt ⟨stopsAt_word hs (by decide), stopsAt_pathTail hs⟩
      exact htail.ends_extend e y

theorem matches_word_append_cons (law : lib.Spaced) (hs : Text.isSpace s = true) {w : String}
    (hw : ((Text.ofString w).map fold).all (fun c => !Text.isSpace c) = true) (x y : Text) :
    Matches (.chain [boundary lib, word w]) (x ++ s :: y) ↔
      Matches (.chain [boundary lib, word w]) x ∨ Matches (.chain [boundary lib, word w]) y := by
  refine StopsAt.matches_append_cons_iff ?_ ?_ x y
  · exact ⟨stopsAt_boundary law hs, stopsAt_word hs hw⟩
  · exact ⟨startsAt_boundary law hs, startsAt_of_plain (plain_word w)⟩

/-- What may stand before the name of a share. -/
def uncPattern (lib : Library) : Regex ℕ :=
  .chain [boundary lib, word "UNC", spaces, word ":", spaces]

/-- The name of a share. -/
def sharePattern : Regex ℕ :=
  .chain [word "\\\\", .plus (.one fun c => c != 0x5c && !Text.isSpace c), word "\\", pathTail]

theorem stopsAt_sharePattern (hs : Text.isSpace s = true) : sharePattern.StopsAt s := by
  refine ⟨stopsAt_word hs (by decide), leaves_plus ?_, stopsAt_word hs (by decide),
    stopsAt_pathTail hs⟩
  show (s != 0x5c && !Text.isSpace s) = false
  rw [hs, Bool.not_true, Bool.and_false]

/-- The name of a share is found without what may stand before it. -/
theorem matches_share_append_cons (lib : Library) (hs : Text.isSpace s = true) (x y : Text)
    {r : Regex ℕ}
    (hr : r = .seq (.opt (uncPattern lib)) sharePattern) :
    Matches r (x ++ s :: y) ↔ Matches r x ∨ Matches r y := by
  have hshort : ∀ t, Matches r t ↔ Matches sharePattern t := fun t => by
    rw [hr]
    exact matches_opt_seq rfl
  rw [hshort, hshort, hshort]
  exact (stopsAt_sharePattern hs).matches_append_cons_iff (startsAt_of_plain (by decide)) x y

/-- **Private locators at a white space**: they stand before it or behind it. -/
theorem matches_privateLocator_append_cons (law : lib.Spaced) (hs : Text.isSpace s = true)
    {x y : Text} (hcross : ¬ DirectoryAcross x y) :
    Matches (privateLocatorPattern lib) (x ++ s :: y) ↔
      Matches (privateLocatorPattern lib) x ∨ Matches (privateLocatorPattern lib) y := by
  have hstart := startsAt_boundary law hs
  have hstop := stopsAt_boundary law hs
  refine matches_anyOf_append_cons fun r hr => ?_
  simp only [List.mem_cons, List.not_mem_nil, or_false] at hr
  rcases hr with rfl | rfl | rfl | rfl | hr | rfl
  · exact matches_word_append_cons law hs (by decide) x y
  · exact matches_word_append_cons law hs (by decide) x y
  · exact matches_share_append_cons lib hs x y rfl
  · refine StopsAt.matches_append_cons_iff ?_ ?_ x y
    · refine ⟨hstop, stopsAt_oneOf hs ?_, stopsAt_word hs (by decide), stopsAt_pathTail hs⟩
      have := cases_of_isSpace hs
      simp only [isLower, Bool.and_eq_false_iff, decide_eq_false_iff_not]
      omega
    · exact ⟨hstart, startsAt_of_plain (by decide)⟩
  · exact matches_directory_append_cons hs hcross hr
  · refine StopsAt.matches_append_cons_iff ?_ (startsAt_of_plain (by decide)) x y
    refine ⟨leaves_anyOf (List.cons_ne_nil _ _) fun r hr => ?_,
      decide_eq_false (notMem_of_isSpace hs (by decide)), stopsAt_pathTail hs⟩
    obtain ⟨w, hw, rfl⟩ := List.mem_map.mp hr
    refine stopsAt_word hs ?_
    clear hr
    revert w
    decide

/-! ## Paths -/

theorem posixPrivateLocator_stopsAt (hs : Text.isSpace s = true) :
    posixPrivateLocatorPattern.StopsAt s := by
  have hne : ∀ c, Text.isSpace c = false → decide (s = c) = false := fun c hc => by
    refine decide_eq_false ?_
    rintro rfl
    rw [hs] at hc
    cases hc
  refine ⟨⟨⟨⟨hne 0x7e rfl, trivial⟩, leaves_opt (leaves_plus ?_), hne 0x2f rfl, trivial⟩,
    leaves_plus ⟨hne 0x2f rfl, trivial⟩⟩, leaves_plus ?_⟩
  · show (Secrets.isAlnum s || decide (s ∈ Text.ofString "._-")) = false
    rw [isAlnum_of_isSpace hs, decide_eq_false (notMem_of_isSpace hs (by decide))]
    rfl
  · show (!Text.isSpace s && _) = false
    rw [hs]
    rfl

/-- A path that begins at a position. -/
def posixLocatorAt (lib : Library) (before : Text) (c : ℕ) (after : Text) : Bool :=
  if (c ≠ 0x2f ∧ c ≠ 0x7e) ∨ (before.head?.any fun previous =>
      previous ∈ Text.ofString "_+.-/" || lib.isAlnum previous || lib.isLettered previous) = true
  then false
  else
    match (posixPrivateLocatorPattern.ends ⟨before, c :: after, []⟩).head? with
    | none => false
    | some d =>
      let candidate := (⟨before, c :: after, []⟩ : Regex.Cursor ℕ).between d
      !(before ≠ [] && c == 0x2f && 0x2f ∉ candidate.tail &&
        (isPercentage lib before candidate || isEnumeration lib before candidate))

theorem posixLocatorFrom_cons (before : Text) (c : ℕ) (after : Text) :
    posixLocatorFrom lib before (c :: after)
      = (posixLocatorAt lib before c after || posixLocatorFrom lib (c :: before) after) := rfl

/-- White space behind a path is not seen. -/
theorem posixLocatorAt_append (hs : Text.isSpace s = true) (before : Text) (c : ℕ)
    (after y : Text) :
    posixLocatorAt lib before c (after ++ s :: y) = posixLocatorAt lib before c after := by
  have hends : posixPrivateLocatorPattern.ends ⟨before, c :: (after ++ s :: y), []⟩
      = (posixPrivateLocatorPattern.ends ⟨before, c :: after, []⟩).map (·.extend (s :: y)) :=
    (posixPrivateLocator_stopsAt hs).ends_extend ⟨before, c :: after, []⟩ y
  unfold posixLocatorAt
  rw [hends, List.head?_map]
  cases hhead : (posixPrivateLocatorPattern.ends ⟨before, c :: after, []⟩).head? with
  | none => rfl
  | some d =>
    obtain ⟨w, -, hreads⟩ := reads_of_mem_ends _ _ d (List.mem_of_mem_head? hhead)
    have hreads' : Reads w (⟨before, c :: (after ++ s :: y), []⟩ : Cursor ℕ) (d.extend (s :: y)) :=
      ⟨by simpa [Cursor.extend] using congrArg (· ++ s :: y) hreads.after, hreads.before⟩
    simp only [Option.map_some, hreads.between, hreads'.between]

theorem isPercentage_behind (law : lib.Spaced) (hs : Text.isSpace s = true)
    (before front candidate : Text) :
    isPercentage lib (before ++ s :: front) candidate = isPercentage lib before candidate := by
  match before with
  | [] =>
    have hne : (some s == some 0x25) = false := by
      rw [beq_eq_false_iff_ne]
      rintro h
      cases Option.some.inj h ▸ hs
    show ((some s == some 0x25) && _ && _) = _
    rw [hne]
    rfl
  | [b] =>
    show (_ && lib.isDigit s && _) = _
    rw [law.isDigit hs]
    rfl
  | b :: b' :: _ => rfl

theorem isEnumeration_behind (hs : Text.isSpace s = true) (before front candidate : Text) :
    isEnumeration lib (before ++ s :: front) candidate = isEnumeration lib before candidate := by
  cases before with
  | nil =>
    show (decide (s ∈ Text.ofString ")]\x7d」』") && _ && _) = _
    rw [decide_eq_false (notMem_of_isSpace hs (by decide))]
    rfl
  | cons b before => rfl

/-- Behind white space a path begins as at the beginning of a text. -/
theorem posixLocatorAt_behind (law : lib.Spaced) (hs : Text.isSpace s = true)
    (before front : Text) (c : ℕ) (after : Text) :
    posixLocatorAt lib (before ++ s :: front) c after = posixLocatorAt lib before c after := by
  have hends : posixPrivateLocatorPattern.ends ⟨before ++ s :: front, c :: after, []⟩
      = (posixPrivateLocatorPattern.ends ⟨before, c :: after, []⟩).map (·.behind (s :: front)) :=
    (startsAt_of_plain (by decide)).ends_behind ⟨before, c :: after, []⟩ front
  have hbetween : ∀ d : Cursor ℕ, (⟨before ++ s :: front, c :: after, []⟩ : Cursor ℕ).between
      (d.behind (s :: front)) = (⟨before, c :: after, []⟩ : Cursor ℕ).between d := fun _ => rfl
  unfold posixLocatorAt
  rw [hends, List.head?_map]
  cases before with
  | nil =>
    have hnot : (decide (s ∈ Text.ofString "_+.-/") || lib.isAlnum s || lib.isLettered s)
        = false := by
      rw [decide_eq_false (notMem_of_isSpace hs (by decide)), law.isAlnum hs, law.isLettered hs]
      rfl
    have hcontinued : (([] ++ s :: front : Text).head?.any fun previous =>
        previous ∈ Text.ofString "_+.-/" || lib.isAlnum previous || lib.isLettered previous)
        = ([] : Text).head?.any fun previous =>
          previous ∈ Text.ofString "_+.-/" || lib.isAlnum previous || lib.isLettered previous :=
      hnot
    -- Neither a percentage nor an enumeration is before the slash.
    have hprose : ∀ candidate, (isPercentage lib ([] ++ s :: front) candidate ||
        isEnumeration lib ([] ++ s :: front) candidate) = false := fun candidate => by
      rw [isPercentage_behind law hs, isEnumeration_behind hs]
      rfl
    rw [hcontinued]
    cases (posixPrivateLocatorPattern.ends ⟨[], c :: after, []⟩).head? with
    | none => rfl
    | some d => simp only [Option.map_some, hbetween, hprose, Bool.and_false]; simp
  | cons b before =>
    cases (posixPrivateLocatorPattern.ends ⟨b :: before, c :: after, []⟩).head? with
    | none => rfl
    | some d =>
      simp only [Option.map_some, hbetween, isPercentage_behind law hs, isEnumeration_behind hs]
      rfl

/-- **Paths at a white space**: they stand before it or behind it. -/
theorem posixLocatorFrom_append_cons (law : lib.Spaced) (hs : Text.isSpace s = true)
    (x y : Text) : posixLocatorFrom lib [] (x ++ s :: y)
      = (posixLocatorFrom lib [] x || posixLocatorFrom lib [] y) := by
  have hbehind : ∀ before front t : Text, posixLocatorFrom lib (before ++ s :: front) t
      = posixLocatorFrom lib before t := by
    intro before front t
    induction t generalizing before with
    | nil => rfl
    | cons c t ih =>
      rw [posixLocatorFrom_cons, posixLocatorFrom_cons, posixLocatorAt_behind law hs]
      exact congrArg _ (ih (c :: before))
  have hspace : ∀ before, posixLocatorAt lib before s y = false := fun before => by
    refine if_pos (.inl ⟨?_, ?_⟩)
    · rintro rfl
      cases hs
    · rintro rfl
      cases hs
  suffices h : ∀ before, posixLocatorFrom lib before (x ++ s :: y)
      = (posixLocatorFrom lib before x || posixLocatorFrom lib [] y) from h []
  induction x with
  | nil =>
    intro before
    rw [List.nil_append, posixLocatorFrom_cons, hspace]
    exact hbehind [] before y
  | cons c x ih =>
    intro before
    rw [List.cons_append, posixLocatorFrom_cons, posixLocatorFrom_cons, posixLocatorAt_append hs,
      ih, Bool.or_assoc]

/-! ## The search for private locators -/

/-- A private locator stands in a text, once URLs and routes are out of it. -/
def locates (lib : Library) (t : Text) : Bool :=
  ((privateLocatorPattern lib).search t).isSome || posixLocatorFrom lib [] t

theorem textContainsPrivateLocator_eq {t : Text} (ht : Normal lib t) :
    textContainsPrivateLocator lib t
      = (withoutUrls lib t).map fun u => locates lib (withoutRoutes lib u) := by
  unfold textContainsPrivateLocator
  rw [show lib.nfkc t = t from ht, withoutPublicHttpUrls_eq]
  cases withoutUrls lib t with
  | error e => rfl
  | ok u =>
    dsimp only [Except.map, bind, Except.bind]
    unfold locates
    generalize ((privateLocatorPattern lib).search (withoutRoutes lib u)).isSome = found
    cases found <;> rfl

theorem locates_append_cons (law : lib.Spaced) (hs : Text.isSpace s = true) {x y : Text}
    (hcross : ¬ DirectoryAcross x y) :
    locates lib (x ++ s :: y) = (locates lib x || locates lib y) := by
  have hforms : ((privateLocatorPattern lib).search (x ++ s :: y)).isSome
      = (((privateLocatorPattern lib).search x).isSome ||
        ((privateLocatorPattern lib).search y).isSome) := by
    rw [Bool.eq_iff_iff, Bool.or_eq_true, search_isSome_iff, search_isSome_iff, search_isSome_iff]
    exact matches_privateLocator_append_cons law hs hcross
  unfold locates
  rw [hforms, posixLocatorFrom_append_cons law hs]
  ac_rfl

/-- **Where nothing goes across a white space**, private locators stand before it or behind
it. -/
theorem textContainsPrivateLocator_append_cons (law : lib.Spaced) (hs : Text.isSpace s = true)
    {x y u : Text} (hxy : Normal lib (x ++ s :: y)) (hy : Normal lib y)
    (hu : withoutUrls lib x = .ok u)
    (hcross : ∀ v, withoutUrls lib y = .ok v → ¬ RouteAcross u v ∧
      ¬ DirectoryAcross (withoutRoutes lib u) (withoutRoutes lib v)) :
    textContainsPrivateLocator lib (x ++ s :: y)
      = (textContainsPrivateLocator lib y).map (locates lib (withoutRoutes lib u) || ·) := by
  rw [textContainsPrivateLocator_eq hxy, textContainsPrivateLocator_eq hy,
    withoutUrls_append_cons law hs, hu]
  cases hv : withoutUrls lib y with
  | error e => rfl
  | ok v =>
    obtain ⟨hroute, hdirectory⟩ := hcross v hv
    show Except.ok (locates lib (withoutRoutes lib (u ++ s :: v))) = Except.ok _
    rw [withoutRoutes_append_cons law hs hroute, locates_append_cons law hs hdirectory]

/-- A search that returns has replaced the URLs before a white space. -/
theorem exists_withoutUrls (law : lib.Spaced) (hs : Text.isSpace s = true) {x y : Text} {b : Bool}
    (hxy : Normal lib (x ++ s :: y)) (h : textContainsPrivateLocator lib (x ++ s :: y) = .ok b) :
    ∃ u, withoutUrls lib x = .ok u := by
  rw [textContainsPrivateLocator_eq hxy, withoutUrls_append_cons law hs] at h
  cases hx : withoutUrls lib x with
  | ok u => exact ⟨u, rfl⟩
  | error e =>
    rw [hx] at h
    cases h

theorem locates_nil : locates lib [] = false := by
  unfold locates
  rw [search_nil (show (privateLocatorPattern lib).nullable = false from rfl)]
  rfl

/-- White space has no private locator, and nothing goes on in it. -/
theorem of_spaces (law : lib.Spaced) {y : Text} (hy : ∀ c ∈ y, Text.isSpace c = true) :
    0x2f ∉ y ∧ (∀ x, ¬ DirectoryAcross x y) ∧ locates lib y = false := by
  have hslash : 0x2f ∉ y := fun h => by cases hy _ h
  have hdirectory : ∀ {z : Text}, (∀ c ∈ z, Text.isSpace c = true) →
      ∀ x, ¬ DirectoryAcross x z := by
    rintro z hz x ⟨-, hfiles⟩
    obtain ⟨c, hc, hfold⟩ := List.mem_map.mp (hfiles.subset (show 0x66 ∈ _ by decide))
    rw [fold_of_isSpace (hz c hc)] at hfold
    cases hfold ▸ hz c hc
  refine ⟨hslash, hdirectory hy, ?_⟩
  clear hslash
  induction y with
  | nil => exact locates_nil
  | cons s y ih =>
    obtain ⟨hs, hy⟩ := List.forall_mem_cons.mp hy
    rw [← List.nil_append (s :: y), locates_append_cons law hs (hdirectory hy []), locates_nil,
      ih hy]
    rfl

/-- White space behind a text makes no difference to the search. -/
theorem textContainsPrivateLocator_append_spaces (law : lib.Spaced) (hs : Text.isSpace s = true)
    {x y : Text} (hy : ∀ c ∈ y, Text.isSpace c = true) (hxy : Normal lib (x ++ s :: y))
    (hx : Normal lib x) (hnormal : Normal lib y) :
    textContainsPrivateLocator lib (x ++ s :: y) = textContainsPrivateLocator lib x := by
  obtain ⟨hslash, hdirectory, hlocates⟩ := of_spaces law hy
  have hurls : withoutUrls lib y = .ok y := withoutUrls_of_notMem hslash
  rw [textContainsPrivateLocator_eq hx]
  cases hu : withoutUrls lib x with
  | error e =>
    rw [textContainsPrivateLocator_eq hxy, withoutUrls_append_cons law hs, hu]
    rfl
  | ok u =>
    rw [textContainsPrivateLocator_append_cons law hs hxy hnormal hu fun v hv => ?_,
      textContainsPrivateLocator_eq hnormal, hurls]
    · show Except.ok (_ || locates lib (withoutRoutes lib y)) = Except.ok _
      rw [withoutRoutes_of_notMem hslash, hlocates, Bool.or_false]
    · obtain rfl : y = v := Except.ok.inj (hurls.symm.trans hv)
      rw [withoutRoutes_of_notMem hslash]
      exact ⟨fun h => hslash h.2, hdirectory _⟩

/-! ## Ordinary words -/

/-- **A word that nothing goes on from**: it has neither slash nor backslash, and does not
end with a method. -/
def isOrdinary (w : Text) : Bool :=
  decide (w ≠ []) && 0x2f ∉ w && 0x5c ∉ w && !httpMethods.any fun m => EndsWith m w

/-- **The text ends with an ordinary word.** -/
structure Closes (w x : Text) : Prop where
  ordinary : isOrdinary w = true
  spaceless : ∀ c ∈ w, Text.isSpace c = false
  last : x = w ∨ ∃ y s, Text.isSpace s = true ∧ x = y ++ s :: w

namespace Closes

variable {w x : Text}

theorem ne_nil (h : Closes w x) : w ≠ [] := by
  have := h.ordinary
  simp only [isOrdinary, Bool.and_eq_true, decide_eq_true_eq] at this
  exact this.1.1.1

theorem slash_notMem (h : Closes w x) : 0x2f ∉ w := by
  have := h.ordinary
  simp only [isOrdinary, Bool.and_eq_true, decide_eq_true_eq] at this
  exact this.1.1.2

theorem backslash_notMem (h : Closes w x) : 0x5c ∉ w := by
  have := h.ordinary
  simp only [isOrdinary, Bool.and_eq_true, decide_eq_true_eq] at this
  exact this.1.2

theorem not_endsWith (h : Closes w x) {m : Text} (hm : m ∈ httpMethods) : ¬ EndsWith m w := by
  have := h.ordinary
  simp only [isOrdinary, Bool.and_eq_true, Bool.not_eq_true', List.any_eq_false,
    decide_eq_true_eq] at this
  exact this.2 m hm

/-- What the text ends with, the word ends with. -/
theorem endsWith (h : Closes w x) {k : Text}
    (hk : (k.map fold).all (fun c => !Text.isSpace c) = true) (hx : EndsWith k x) :
    EndsWith k w := by
  rcases h.last with rfl | ⟨y, s, hs, rfl⟩
  · exact hx
  · unfold EndsWith at hx
    rw [List.map_append, List.map_cons, fold_of_isSpace hs] at hx
    have hnot : ¬ s :: w.map fold <:+ k.map fold := fun h =>
      notMem_of_isSpace hs hk (h.subset List.mem_cons_self)
    rcases List.suffix_or_suffix_of_suffix hx (List.suffix_append (y.map fold) _) with h | h
    · rcases List.suffix_cons_iff.mp h with h | h
      · exact absurd (h ▸ List.suffix_rfl) hnot
      · exact h
    · exact absurd h hnot

/-- **Nothing goes on from an ordinary word** across white space. -/
theorem not_routeAcross (h : Closes w x) (y : Text) : ¬ RouteAcross x y := by
  rintro ⟨⟨u, v, hx, hv, m, hm, hends⟩, -⟩
  have hnil : v = [] := by
    by_contra hne
    have hlast : x.getLast? = w.getLast? := by
      rcases h.last with hxw | ⟨z, s, -, hxw⟩
      · rw [hxw]
      · rw [hxw, List.getLast?_append_cons, List.getLast?_cons_of_ne_nil h.ne_nil]
    rw [hx, List.getLast?_append_of_ne_nil _ hne] at hlast
    have hspace := hv _ (List.getLast_mem hne)
    rw [h.spaceless _ (List.mem_of_mem_getLast?
      (hlast ▸ List.getLast?_eq_getLast_of_ne_nil hne))] at hspace
    cases hspace
  rw [hnil, List.append_nil] at hx
  have hspaceless : ∀ m ∈ httpMethods, ((m.map fold).all fun c => !Text.isSpace c) = true := by
    decide
  exact h.not_endsWith hm (h.endsWith (hspaceless m hm) (hx ▸ hends))

theorem not_directoryAcross (h : Closes w x) (y : Text) : ¬ DirectoryAcross x y := by
  rintro ⟨hends, -⟩
  have hword := h.endsWith (by decide) hends
  obtain ⟨c, hc, hfold⟩ := List.mem_map.mp (hword.subset (show 0x5c ∈ _ by decide))
  rw [fold_eq_iff (by omega)] at hfold
  exact h.backslash_notMem (hfold ▸ hc)

/-- The URLs replaced, the ordinary word is still at the end. -/
theorem withoutUrls (law : lib.Spaced) (h : Closes w x) {u : Text}
    (hu : TaskPayloads.withoutUrls lib x = .ok u) : Closes w u := by
  refine ⟨h.ordinary, h.spaceless, ?_⟩
  rcases h.last with rfl | ⟨y, s, hs, rfl⟩
  · rw [withoutUrls_of_notMem h.slash_notMem] at hu
    exact .inl (Except.ok.inj hu).symm
  · rw [withoutUrls_append_cons law hs, withoutUrls_of_notMem h.slash_notMem] at hu
    cases hy : TaskPayloads.withoutUrls lib y with
    | error e =>
      rw [hy] at hu
      cases hu
    | ok v =>
      rw [hy] at hu
      exact .inr ⟨v, s, hs, (Except.ok.inj hu).symm⟩

/-- The routes taken out, the ordinary word is still at the end. -/
theorem withoutRoutes (law : lib.Spaced) (h : Closes w x) :
    Closes w (TaskPayloads.withoutRoutes lib x) := by
  refine ⟨h.ordinary, h.spaceless, ?_⟩
  rcases h.last with rfl | ⟨y, s, hs, rfl⟩
  · exact .inl (withoutRoutes_of_notMem h.slash_notMem)
  · refine .inr ⟨TaskPayloads.withoutRoutes lib y, s, hs, ?_⟩
    rw [withoutRoutes_append_cons law hs fun hcross => h.slash_notMem hcross.2,
      withoutRoutes_of_notMem h.slash_notMem]

/-- **Private locators behind an ordinary word** are found there. -/
theorem textContainsPrivateLocator (law : lib.Spaced) (hs : Text.isSpace s = true) (h : Closes w x)
    {y u : Text} (hxy : Normal lib (x ++ s :: y)) (hy : Normal lib y)
    (hu : TaskPayloads.withoutUrls lib x = .ok u) :
    TaskPayloads.textContainsPrivateLocator lib (x ++ s :: y)
      = (TaskPayloads.textContainsPrivateLocator lib y).map
        (locates lib (TaskPayloads.withoutRoutes lib u) || ·) :=
  textContainsPrivateLocator_append_cons law hs hxy hy hu fun v _ =>
    ⟨(h.withoutUrls law hu).not_routeAcross v,
      ((h.withoutUrls law hu).withoutRoutes law).not_directoryAcross _⟩

end Closes

end TaskPayloads
