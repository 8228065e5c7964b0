import OpenCAO.CredentialScans
import OpenCAO.LocatorCuts

/-!
# Report texts cut to a bound

What a Worker reports of its work is shown as a phrase, and only if the phrase has no
secret, no credential and no private locator. The three scanners look at the whole text,
and what is kept is the beginning of it, up to a bound. Whether the beginning of an
accepted text is accepted is not asked again; and it need not be, since a token that was
too long to be one of a known form may have that form when it is cut, and a URL of a public
host may lose the part that made it one.

The damage is done at the end of the phrase, and only there. An ordinary word that is
followed by white space separates what comes behind it from what stands before, which was
scanned and is not changed by the cut. So the phrase is clean exactly if its last piece is
(`closed_iff`), where the last piece begins behind the last ordinary word.
-/

/-- **What is known of characters**: white space is no letter, and a part of a normalized
text is normalized. -/
structure Library.Unicode (lib : Library) : Prop extends lib.Spaced where
  nfkc_part : ∀ {t u : Text}, u <:+: lib.nfkc t → lib.nfkc u = u

namespace Text

/-- `t[:limit]`, where a negative index counts from the end. -/
def sliceTo (t : Text) (limit : ℤ) : Text :=
  t.take (if 0 ≤ limit then limit else t.length + limit).toNat

end Text

namespace TaskPayloads

open Credentials

variable {lib : Library}

/-- **`_worker_safe_report_text`**. -/
def workerSafeReportText (lib : Library) (value : PyValue) (limit : ℤ) :
    Except ValueError Text :=
  match value with
  | .str value =>
    let normalized := Text.strip (lib.nfkc value)
    if normalized = [] ∨ Secrets.containsControlPlaneSecret (.str normalized) = true then .ok []
    else do
      if ← containsGenericCredential lib (.str normalized) then .ok []
      else if ← containsPrivateLocator lib (.str normalized) then .ok []
      else .ok (normalized.sliceTo limit)
  | _ => .ok []

/-- **The three scanners return, and find nothing.** -/
def Sanitary (lib : Library) (t : Text) : Prop :=
  Secrets.containsControlPlaneSecret (.str t) = false ∧
    containsGenericCredential lib (.str t) = .ok false ∧
    containsPrivateLocator lib (.str t) = .ok false

instance (t : Text) : Decidable (Sanitary lib t) := by
  unfold Sanitary
  infer_instance

theorem sanitary_nil (law : lib.Unicode) : Sanitary lib [] := by
  have hnil : lib.nfkc [] = [] := law.nfkc_part (t := []) List.nil_infix
  refine ⟨rfl, (scan_eq_ok_false hnil).mpr ⟨?_, rfl⟩, ?_⟩
  · rw [← Regex.search_isSome_iff, Regex.search_nil rfl]
    exact Bool.false_ne_true
  · show textContainsPrivateLocator lib [] = _
    rw [textContainsPrivateLocator_eq hnil, withoutUrls_of_notMem List.not_mem_nil]
    show Except.ok (locates lib (withoutRoutes lib [])) = _
    rw [withoutRoutes_of_notMem List.not_mem_nil, locates_nil]

/-! ## The last piece of a text -/

/-- The last piece of a text, behind what was read of the piece and of a word. -/
def lastPieceFrom (piece word : Text) : Text → Text
  | [] => piece ++ word
  | c :: t =>
    if Text.isSpace c = false then lastPieceFrom piece (word ++ [c]) t
    else if isOrdinary word then lastPieceFrom [] [] t
    else lastPieceFrom (piece ++ word ++ [c]) [] t

/-- **The last piece of a text**: what stands behind the last ordinary word that is followed by
white space, all of it if there is none. -/
def lastPiece (t : Text) : Text := lastPieceFrom [] [] t

/-- A text cut behind an ordinary word. -/
def CutBefore (t piece : Text) : Prop :=
  ∃ w x s, Closes w x ∧ Text.isSpace s = true ∧ t = x ++ s :: piece

theorem Closes.behind {w x : Text} (h : Closes w x) {s : ℕ} (hs : Text.isSpace s = true)
    (y : Text) : Closes w (y ++ s :: x) := by
  refine ⟨h.ordinary, h.spaceless, .inr ?_⟩
  rcases h.last with rfl | ⟨z, s', hs', rfl⟩
  · exact ⟨y, s, hs, rfl⟩
  · exact ⟨y ++ s :: z, s', hs', by simp⟩

theorem lastPieceFrom_cases (t : Text) : ∀ piece word : Text,
    (∀ c ∈ word, Text.isSpace c = false) →
    (piece = [] ∨ ∃ y s, Text.isSpace s = true ∧ piece = y ++ [s]) →
    lastPieceFrom piece word t = piece ++ word ++ t ∨
      CutBefore (piece ++ word ++ t) (lastPieceFrom piece word t) := by
  induction t with
  | nil => exact fun piece word _ _ => .inl (List.append_nil _).symm
  | cons c t ih =>
    intro piece word hword hpiece
    unfold lastPieceFrom
    by_cases hc : Text.isSpace c = false
    · have hnext := ih piece (word ++ [c]) (fun d hd => by
        rcases List.mem_append.mp hd with hd | hd
        · exact hword d hd
        · rw [List.mem_singleton.mp hd, hc]) hpiece
      rw [if_pos hc]
      simpa using hnext
    · have hspace : Text.isSpace c = true := by simpa using hc
      rw [if_neg hc]
      by_cases hordinary : isOrdinary word = true
      · rw [if_pos hordinary]
        have hcloses : Closes word (piece ++ word) := by
          refine ⟨hordinary, hword, ?_⟩
          rcases hpiece with rfl | ⟨y, s, hs, rfl⟩
          · exact .inl rfl
          · exact .inr ⟨y, s, hs, by simp⟩
        rcases ih [] [] (by simp) (.inl rfl) with h | ⟨w, x, s, hx, hs, h⟩
        · refine .inr ⟨word, piece ++ word, c, hcloses, hspace, ?_⟩
          rw [h]
          rfl
        · refine .inr ⟨w, piece ++ word ++ c :: x, s, hx.behind hspace _, hs, ?_⟩
          have ht : t = x ++ s :: lastPieceFrom [] [] t := h
          calc piece ++ word ++ c :: t
              = piece ++ word ++ c :: (x ++ s :: lastPieceFrom [] [] t) := by rw [← ht]
            _ = _ := by simp
      · rw [if_neg hordinary]
        have hnext := ih (piece ++ word ++ [c]) [] (by simp) (.inr ⟨_, c, hspace, rfl⟩)
        simpa using hnext

theorem lastPiece_cases (t : Text) : lastPiece t = t ∨ CutBefore t (lastPiece t) :=
  lastPieceFrom_cases t [] [] (by simp) (.inl rfl)

/-! ## A clean text cut short -/

section Cut

variable (law : lib.Unicode) {t : Text} (hparts : ∀ u, u <:+: t → Normal lib u)

include law hparts

/-- **Behind an ordinary word** the beginning of a clean text is clean exactly if what is left
of it is. -/
theorem sanitary_of_cut {w x y z : Text} {s : ℕ} (hx : Closes w x) (hs : Text.isSpace s = true)
    (ht : t = x ++ s :: (y ++ z)) (hclean : Sanitary lib t) :
    Sanitary lib (x ++ s :: y) ↔ Sanitary lib y := by
  subst ht
  have hwhole : x ++ s :: y <:+: x ++ s :: (y ++ z) := ⟨[], z, by simp⟩
  have hback : y <:+: x ++ s :: (y ++ z) := ⟨x ++ [s], z, by simp⟩
  have hsecret : ∀ u, u <:+: x ++ s :: (y ++ z) →
      Secrets.containsControlPlaneSecret (.str u) = false := fun u hu =>
    Secrets.textContainsSecret_eq_false.mpr <|
      Regex.Clean.of_infix (Secrets.textContainsSecret_eq_false.mp hclean.1) hu
  have hcredential := scan_of_cut law.toSpaced hs (hparts _ List.infix_rfl) (hparts _ hwhole)
    (hparts _ hback) hclean.2.1
  have hlocator : textContainsPrivateLocator lib (x ++ s :: y)
      = textContainsPrivateLocator lib y := by
    have hnone : textContainsPrivateLocator lib (x ++ s :: (y ++ z)) = .ok false := hclean.2.2
    obtain ⟨u, hu⟩ := exists_withoutUrls law.toSpaced hs (hparts _ List.infix_rfl) hnone
    rw [hx.textContainsPrivateLocator law.toSpaced hs (hparts _ List.infix_rfl)
      (hparts _ ⟨x ++ [s], [], by simp⟩) hu] at hnone
    have hfront : locates lib (withoutRoutes lib u) = false := by
      cases hrest : textContainsPrivateLocator lib (y ++ z) with
      | error e =>
        rw [hrest] at hnone
        cases hnone
      | ok b =>
        rw [hrest] at hnone
        exact (Bool.or_eq_false_iff.mp (Except.ok.inj hnone)).1
    rw [hx.textContainsPrivateLocator law.toSpaced hs (hparts _ hwhole) (hparts _ hback) hu, hfront]
    cases textContainsPrivateLocator lib y <;> rfl
  unfold Sanitary
  show (_ ∧ containsGenericCredentialText lib _ = _ ∧ textContainsPrivateLocator lib _ = _) ↔
    (_ ∧ containsGenericCredentialText lib _ = _ ∧ textContainsPrivateLocator lib _ = _)
  rw [hcredential, hlocator, hsecret _ hwhole, hsecret _ hback]

theorem sanitary_lastPiece {r z : Text} (ht : t = r ++ z) (hclean : Sanitary lib t) :
    Sanitary lib r ↔ Sanitary lib (lastPiece r) := by
  rcases lastPiece_cases r with h | ⟨w, x, s, hx, hs, h⟩
  · rw [h]
  · have hcut : t = x ++ s :: (lastPiece r ++ z) := by
      calc t = x ++ s :: lastPiece r ++ z := by rw [← h, ht]
        _ = _ := by simp
    have hiff := sanitary_of_cut law hparts hx hs hcut hclean
    rwa [← h] at hiff

/-- White space behind the beginning of a clean text makes no difference. -/
theorem sanitary_append_spaces {x y z : Text} {s : ℕ} (hs : Text.isSpace s = true)
    (hy : ∀ c ∈ y, Text.isSpace c = true) (ht : t = x ++ s :: (y ++ z))
    (hclean : Sanitary lib t) : Sanitary lib (x ++ s :: y) ↔ Sanitary lib x := by
  subst ht
  have hwhole : x ++ s :: y <:+: x ++ s :: (y ++ z) := ⟨[], z, by simp⟩
  have hfront : x <:+: x ++ s :: (y ++ z) := ⟨[], s :: (y ++ z), by simp⟩
  have hback : y <:+: x ++ s :: (y ++ z) := ⟨x ++ [s], z, by simp⟩
  have hsecret : ∀ u, u <:+: x ++ s :: (y ++ z) →
      Secrets.containsControlPlaneSecret (.str u) = false := fun u hu =>
    Secrets.textContainsSecret_eq_false.mpr <|
      Regex.Clean.of_infix (Secrets.textContainsSecret_eq_false.mp hclean.1) hu
  have hx := scan_of_front law.toSpaced hs (hparts _ List.infix_rfl) (hparts _ hfront) hclean.2.1
  have hxy : containsGenericCredentialText lib (x ++ s :: y) = .ok false := by
    -- Behind the last white space nothing is left.
    obtain ⟨u, s', hu⟩ := (List.eq_nil_or_concat (s :: y)).resolve_left (List.cons_ne_nil s y)
    rw [List.concat_eq_append] at hu
    have hs' : Text.isSpace s' = true := by
      rcases List.mem_cons.mp (show s' ∈ s :: y by simp [hu]) with rfl | h
      · exact hs
      · exact hy s' h
    have hsplit : x ++ s :: y = (x ++ u) ++ s' :: [] := by rw [hu, List.append_assoc]
    have hwhole' : x ++ s :: (y ++ z) = (x ++ u) ++ s' :: ([] ++ z) := by
      rw [← List.cons_append, hu]
      simp
    rw [hsplit]
    refine (scan_of_cut law.toSpaced hs' (z := z) ?_ ?_ ?_ ?_).mpr (sanitary_nil law).2.1
    · exact hwhole' ▸ hparts _ List.infix_rfl
    · exact hsplit ▸ hparts _ hwhole
    · exact hparts _ List.nil_infix
    · exact hwhole' ▸ hclean.2.1
  have hlocator := textContainsPrivateLocator_append_spaces law.toSpaced hs hy (hparts _ hwhole)
    (hparts _ hfront) (hparts _ hback)
  unfold Sanitary
  show (_ ∧ containsGenericCredentialText lib _ = _ ∧ textContainsPrivateLocator lib _ = _) ↔
    (_ ∧ containsGenericCredentialText lib _ = _ ∧ textContainsPrivateLocator lib _ = _)
  rw [hx, hxy, hlocator, hsecret _ hwhole, hsecret _ hfront]

end Cut

/-! ## The text that is kept -/

theorem strip_isInfix (t : Text) : Text.strip t <:+: t :=
  (List.rdropWhile_prefix Text.isSpace _).isInfix.trans (List.dropWhile_suffix _).isInfix

theorem normal_of_part (law : lib.Unicode) {t u : Text} (hu : u <:+: Text.strip (lib.nfkc t)) :
    Normal lib u := law.nfkc_part (hu.trans (strip_isInfix _))

theorem sliceTo_append (t : Text) (limit : ℤ) : ∃ z, t = t.sliceTo limit ++ z :=
  ⟨_, (List.take_append_drop _ t).symm⟩

theorem workerSafeReportText_of_sanitary {value : Text} (limit : ℤ)
    (h : Sanitary lib (Text.strip (lib.nfkc value))) :
    workerSafeReportText lib (.str value) limit
      = .ok ((Text.strip (lib.nfkc value)).sliceTo limit) := by
  obtain ⟨hsecret, hcredential, hlocator⟩ := h
  unfold workerSafeReportText
  dsimp only
  by_cases hnil : Text.strip (lib.nfkc value) = []
  · rw [if_pos (.inl hnil), hnil]
    exact congrArg Except.ok List.take_nil.symm
  · rw [if_neg (by simp [hnil, hsecret]), hcredential, hlocator]
    rfl

theorem workerSafeReportText_of_not {value r : Text} {limit : ℤ}
    (h : ¬ Sanitary lib (Text.strip (lib.nfkc value)))
    (hr : workerSafeReportText lib (.str value) limit = .ok r) : r = [] := by
  unfold workerSafeReportText at hr
  dsimp only at hr
  by_cases hrefused : Text.strip (lib.nfkc value) = [] ∨
      Secrets.containsControlPlaneSecret (.str (Text.strip (lib.nfkc value))) = true
  · rw [if_pos hrefused] at hr
    exact (Except.ok.inj hr).symm
  · rw [if_neg hrefused] at hr
    have hsecret := (not_or.mp hrefused).2
    cases hcredential : containsGenericCredential lib (.str (Text.strip (lib.nfkc value))) with
    | error e =>
      rw [hcredential] at hr
      cases hr
    | ok b =>
      rw [hcredential] at hr
      cases b with
      | true => exact (Except.ok.inj hr).symm
      | false =>
        cases hlocator : containsPrivateLocator lib (.str (Text.strip (lib.nfkc value))) with
        | error e =>
          rw [hlocator] at hr
          cases hr
        | ok b =>
          rw [hlocator] at hr
          cases b with
          | true => exact (Except.ok.inj hr).symm
          | false => exact absurd ⟨by simpa using hsecret, hcredential, hlocator⟩ h

/-- **The policy is kept by what is returned**: the scanners find nothing in it. -/
def Closed (lib : Library) (value : PyValue) (limit : ℤ) : Prop :=
  ∀ r, workerSafeReportText lib value limit = .ok r → Sanitary lib r

/-- **What is returned is returned again**, but for white space at its end. -/
def Settled (lib : Library) (value : PyValue) (limit : ℤ) : Prop :=
  ∀ r, workerSafeReportText lib value limit = .ok r →
    workerSafeReportText lib (.str r) limit = .ok (Text.strip r)

/-- **The cut leaves a clean end**: a text that is accepted has, once cut, a last piece that is
clean by itself. -/
def CutClean (lib : Library) : PyValue → ℤ → Prop
  | .str t, limit => Sanitary lib (Text.strip (lib.nfkc t)) →
    Sanitary lib (lastPiece ((Text.strip (lib.nfkc t)).sliceTo limit))
  | _, _ => True

theorem closed_of_nil (law : lib.Unicode) {value : PyValue} {limit : ℤ}
    (h : ∀ r, workerSafeReportText lib value limit = .ok r → r = []) : Closed lib value limit :=
  fun r hr => h r hr ▸ sanitary_nil law

/-- **What is returned is clean exactly if the cut leaves a clean end.** -/
theorem closed_iff_cutClean (law : lib.Unicode) (value : PyValue) (limit : ℤ) :
    Closed lib value limit ↔ CutClean lib value limit := by
  cases value with
  | str t =>
    by_cases hclean : Sanitary lib (Text.strip (lib.nfkc t))
    · obtain ⟨z, hz⟩ := sliceTo_append (Text.strip (lib.nfkc t)) limit
      have hpiece := sanitary_lastPiece law (fun u hu => normal_of_part law hu) hz hclean
      have hreturned := workerSafeReportText_of_sanitary limit hclean
      constructor
      · exact fun h _ => hpiece.mp (h _ hreturned)
      · intro h r hr
        obtain rfl := Except.ok.inj (hreturned.symm.trans hr)
        exact hpiece.mpr (h hclean)
    · exact iff_of_true (closed_of_nil law fun r hr => workerSafeReportText_of_not hclean hr)
        fun h => absurd h hclean
  | _ => exact iff_of_true (closed_of_nil law fun r hr => (Except.ok.inj hr).symm) trivial

/-- What is kept of a stripped text has white space at its end only. -/
theorem exists_spaces {t r : Text} (hr : r <+: Text.strip t) :
    ∃ tail, (∀ c ∈ tail, Text.isSpace c = true) ∧ r = Text.strip r ++ tail := by
  have hfront : r.dropWhile Text.isSpace = r := by
    cases r with
    | nil => rfl
    | cons c r =>
      obtain ⟨v, hv⟩ := hr.trans (List.rdropWhile_prefix Text.isSpace _)
      have hhead := List.head?_dropWhile_not Text.isSpace t
      rw [← hv] at hhead
      rw [List.dropWhile_cons_of_neg (by simpa using hhead)]
  refine ⟨r.rtakeWhile Text.isSpace, fun c hc => List.mem_rtakeWhile_imp hc, ?_⟩
  unfold Text.strip
  rw [hfront, List.rdropWhile_append_rtakeWhile]

theorem sanitary_strip (law : lib.Unicode) {t r z : Text}
    (hclean : Sanitary lib (Text.strip (lib.nfkc t))) (hz : Text.strip (lib.nfkc t) = r ++ z) :
    Sanitary lib (Text.strip r) ↔ Sanitary lib r := by
  obtain ⟨tail, htail, hr⟩ := exists_spaces ⟨z, hz.symm⟩
  cases tail with
  | nil => rw [List.append_nil] at hr; rw [← hr]
  | cons s y =>
    obtain ⟨hs, hy⟩ := List.forall_mem_cons.mp htail
    have hwhole : Text.strip (lib.nfkc t) = Text.strip r ++ s :: (y ++ z) := by
      calc Text.strip (lib.nfkc t) = Text.strip r ++ s :: y ++ z := by rw [← hr, hz]
        _ = _ := by simp
    have hiff := sanitary_append_spaces law (fun u hu => normal_of_part law hu) hs hy hwhole hclean
    rw [← hr] at hiff
    exact hiff.symm

theorem settled_of_nil (law : lib.Unicode) {value : PyValue} {limit : ℤ}
    (h : ∀ r, workerSafeReportText lib value limit = .ok r → r = []) : Settled lib value limit := by
  intro r hr
  obtain rfl := h r hr
  have hnil : lib.nfkc [] = [] := law.nfkc_part (t := []) List.nil_infix
  have hclean : Sanitary lib (Text.strip (lib.nfkc [])) := by
    rw [hnil]
    exact sanitary_nil law
  rw [workerSafeReportText_of_sanitary limit hclean, hnil]
  exact congrArg Except.ok List.take_nil

/-- **Both ways to say that the text is safe agree**, for a bound that counts from the
beginning. -/
theorem settled_iff_closed (law : lib.Unicode) (value : PyValue) {limit : ℤ} (hlimit : 0 ≤ limit) :
    Settled lib value limit ↔ Closed lib value limit := by
  cases value with
  | str t =>
    by_cases hclean : Sanitary lib (Text.strip (lib.nfkc t))
    · obtain ⟨z, hz⟩ := sliceTo_append (Text.strip (lib.nfkc t)) limit
      have hreturned := workerSafeReportText_of_sanitary limit hclean
      have hstrip := sanitary_strip law hclean hz
      have hnormal : lib.nfkc ((Text.strip (lib.nfkc t)).sliceTo limit)
          = (Text.strip (lib.nfkc t)).sliceTo limit :=
        normal_of_part law ⟨[], z, by rw [List.nil_append, ← hz]⟩
      have hlength : ((Text.strip (lib.nfkc t)).sliceTo limit).length ≤ limit.toNat := by
        unfold Text.sliceTo
        rw [if_pos hlimit, List.length_take]
        exact Nat.min_le_left _ _
      generalize (Text.strip (lib.nfkc t)).sliceTo limit = r at *
      have hsettled : Settled lib (.str t) limit ↔
          workerSafeReportText lib (.str r) limit = .ok (Text.strip r) :=
        ⟨fun h => h r hreturned, fun h q hq => Except.ok.inj (hreturned.symm.trans hq) ▸ h⟩
      have hclosed : Closed lib (.str t) limit ↔ Sanitary lib r :=
        ⟨fun h => h r hreturned, fun h q hq => Except.ok.inj (hreturned.symm.trans hq) ▸ h⟩
      rw [hsettled, hclosed, ← hstrip]
      constructor
      · intro h
        by_contra hnot
        have hnil := workerSafeReportText_of_not (by rw [hnormal]; exact hnot) h
        rw [hnil] at hnot
        exact hnot (sanitary_nil law)
      · intro h
        rw [workerSafeReportText_of_sanitary limit (by rw [hnormal]; exact h), hnormal]
        refine congrArg Except.ok (List.take_of_length_le ?_)
        rw [if_pos hlimit]
        exact (strip_isInfix r).length_le.trans hlength
    · have hnil : ∀ r, workerSafeReportText lib (.str t) limit = .ok r → r = [] := fun r hr =>
        workerSafeReportText_of_not hclean hr
      exact iff_of_true (settled_of_nil law hnil) (closed_of_nil law hnil)
  | _ =>
    exact iff_of_true (settled_of_nil law fun r hr => (Except.ok.inj hr).symm)
      (closed_of_nil law fun r hr => (Except.ok.inj hr).symm)

/-- A bound that cuts nothing off does no harm. -/
theorem cutClean_of_length_le (law : lib.Unicode) {t : Text} {limit : ℤ}
    (h : (Text.strip (lib.nfkc t)).length ≤ limit) : CutClean lib (.str t) limit := by
  intro hclean
  have huncut : (Text.strip (lib.nfkc t)).sliceTo limit = Text.strip (lib.nfkc t) := by
    unfold Text.sliceTo
    rw [if_pos (by omega)]
    exact List.take_of_length_le (by omega)
  rw [huncut]
  exact (sanitary_lastPiece law (fun u hu => normal_of_part law hu) (List.append_nil _).symm
    hclean).mp hclean

/-! ### Two phrases -/

theorem unicode_asciiLibrary : asciiLibrary.Unicode where
  isAlnum hc := isAlnum_of_isSpace hc
  isDigit {c} hc := by
    have := cases_of_isSpace hc
    show isDecimal c = false
    simp only [isDecimal, Bool.and_eq_false_iff, decide_eq_false_iff_not]
    omega
  isLettered {c} hc := by
    show (Secrets.isAlnum c || decide (c ∈ Text.ofString "$+<=>^|~")) = false
    rw [isAlnum_of_isSpace hc, decide_eq_false (notMem_of_isSpace hc (by decide))]
    rfl
  nfkc_part _ := rfl

/-- A note with the address of a public page. -/
def pageNote : Text := Text.ofString "deployed https://example.com/docs/start"

/-- A word that has one letter too many to be an access key. -/
def longKey : Text := Text.ofString "AKIAABCDEFGHIJKLMNOPQ"

end TaskPayloads
