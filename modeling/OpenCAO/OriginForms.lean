import OpenCAO.Origins
import Mathlib.Data.Nat.Digits.Defs

/-!
# The canonical form of a canonical form

What `canonical_origin` puts together is taken apart again into the same parts: the host is
in lower case and has no dot at its end, and the port is either not there or not the one
of the scheme. So the canonical form is the canonical form of itself, if it has one
(`canonicalOrigin_render`). It has none if the host was nothing but dots. A host that was
in brackets is put in brackets again only if it has a colon, and then it must still be
an address: the zone of one may have been nothing but dots.
-/

namespace Origins

open LowerCase

/-! ## Putting together and taking apart -/

/-- The host and the port. -/
def authority (scheme host : Text) (port : ℕ) : Text :=
  (if 0x3a ∈ host then 0x5b :: (host ++ [0x5d]) else host) ++
    if port = defaultPort scheme then [] else 0x3a :: PyJson.printNat port

theorem render_eq (scheme host : Text) (port : ℕ) :
    render scheme host port = scheme ++ (Text.ofString "://" ++ authority scheme host port) := by
  unfold render authority
  rw [List.append_assoc, List.append_assoc]

/-- What ends a network location, or is left out of every URL. -/
def terminators : Text := Text.ofString "/?#" ++ [9, 10, 13]

/-- **An origin is taken apart.** -/
theorem parts_origin {scheme netloc : Text}
    (hscheme : scheme ∈ [Text.ofString "http", Text.ofString "https"])
    (hnetloc : ∀ c ∈ netloc, c ∉ terminators) :
    parts (scheme ++ (Text.ofString "://" ++ netloc)) = ⟨⟨scheme, netloc, [], [], []⟩, []⟩ := by
  have hkept : netloc.filter (· ∉ [9, 10, 13]) = netloc := by
    refine List.filter_eq_self.mpr fun c hc => decide_eq_true fun hmem => ?_
    exact hnetloc c hc (List.mem_append_right _ hmem)
  have htake : netloc.takeWhile (· ∉ Text.ofString "/?#") = netloc := by
    refine List.takeWhile_eq_self_iff.mpr fun c hc => decide_eq_true fun hmem => ?_
    exact hnetloc c hc (List.mem_append_left _ hmem)
  have hdrop : netloc.dropWhile (· ∉ Text.ofString "/?#") = [] := by
    refine List.dropWhile_eq_nil_iff.mpr fun c hc => decide_eq_true fun hmem => ?_
    exact hnetloc c hc (List.mem_append_left _ hmem)
  have hclean : ((scheme ++ (Text.ofString "://" ++ netloc)).dropWhile (· ≤ 0x20)).filter
      (· ∉ [9, 10, 13]) = scheme ++ (Text.ofString "://" ++ netloc) := by
    rcases List.mem_pair.mp hscheme with rfl | rfl
    · exact congrArg (Text.ofString "http://" ++ ·) hkept
    · exact congrArg (Text.ofString "https://" ++ ·) hkept
  have hsplit : Url.splitScheme (scheme ++ (Text.ofString "://" ++ netloc))
      = (scheme, Text.ofString "//" ++ netloc) := by
    rcases List.mem_pair.mp hscheme with rfl | rfl <;> rfl
  have hlocation : Url.splitNetloc (Text.ofString "//" ++ netloc) = (netloc, []) := by
    unfold Url.splitNetloc
    rw [if_pos (List.prefix_append _ _)]
    exact Prod.ext htake hdrop
  have hparts : Url.partsOf (scheme ++ (Text.ofString "://" ++ netloc))
      = ⟨scheme, netloc, [], [], []⟩ := by
    unfold Url.partsOf
    rw [hclean, hsplit]
    dsimp only
    rw [hlocation]
    rfl
  have huses : scheme ∈ usesParams := by
    rcases List.mem_pair.mp hscheme with rfl | rfl <;> decide
  unfold parts
  rw [hparts]
  dsimp only
  rw [if_pos huses]
  rfl

/-- **A host in its canonical form.** -/
structure Settled (lib : Library) (host : Text) : Prop where
  fixed : ∀ u, u <:+: host → lib.lower u = u
  unterminated : ∀ c ∈ host, c ∉ terminators
  unescorted : 0x40 ∉ host
  unclosed : 0x5d ∉ host
  undotted : rstripDots host = host
  plain : ∀ c ∈ host, 0x80 ≤ c → Plain lib c

variable {lib : Library} {address : Text → Bool} {scheme host : Text} {port : ℕ}

/-- The characters of the host and the port. -/
theorem mem_authority {c : ℕ} (h : c ∈ authority scheme host port) :
    c ∈ host ∨ c ∈ [0x5b, 0x5d, 0x3a] ∨ PyJson.isDigit c = true := by
  unfold authority at h
  rcases List.mem_append.mp h with h | h
  · split_ifs at h
    · simp only [List.mem_cons, List.mem_append, List.not_mem_nil, or_false] at h
      rcases h with rfl | h | rfl
      · exact .inr (.inl (by decide))
      · exact .inl h
      · exact .inr (.inl (by decide))
    · exact .inl h
  · split_ifs at h
    · exact absurd h List.not_mem_nil
    · rcases List.mem_cons.mp h with rfl | h
      · exact .inr (.inl (by decide))
      · exact .inr (.inr (PyJson.isDigit_of_mem_printNat h))

/-- A character that is no digit, bracket or colon stands in the host. -/
theorem mem_host {c : ℕ} (hc : c ∉ [0x5b, 0x5d, 0x3a] ∧ PyJson.isDigit c = false)
    (h : c ∈ authority scheme host port) : c ∈ host := by
  rcases mem_authority h with h | h | h
  · exact h
  · exact absurd h hc.1
  · exact Bool.noConfusion (hc.2.symm.trans h)

theorem authority_unterminated (hhost : Settled lib host) :
    ∀ c ∈ authority scheme host port, c ∉ terminators := by
  intro c hc hmem
  have hother : c ∉ [0x5b, 0x5d, 0x3a] ∧ PyJson.isDigit c = false :=
    (by decide : ∀ c ∈ terminators, c ∉ [0x5b, 0x5d, 0x3a] ∧ PyJson.isDigit c = false) c hmem
  exact hhost.unterminated c (mem_host hother hc) hmem

theorem parts_render (hscheme : scheme ∈ [Text.ofString "http", Text.ofString "https"])
    (hhost : Settled lib host) :
    parts (render scheme host port) = ⟨⟨scheme, authority scheme host port, [], [], []⟩, []⟩ := by
  rw [render_eq, parts_origin hscheme (authority_unterminated hhost)]

/-! ### The host and the port -/

/-- What is written behind the host. -/
def portSuffix (scheme : Text) (port : ℕ) : Text :=
  if port = defaultPort scheme then [] else 0x3a :: PyJson.printNat port

/-- What is written of the port. -/
def portDigits (scheme : Text) (port : ℕ) : Text :=
  if port = defaultPort scheme then [] else PyJson.printNat port

theorem past_portSuffix (scheme : Text) (port : ℕ) :
    (portSuffix scheme port).past 0x3a = portDigits scheme port := by
  unfold portSuffix portDigits
  split_ifs
  · rfl
  · rfl

theorem pastLast_authority (hhost : Settled lib host) :
    (authority scheme host port).pastLast 0x40 = authority scheme host port :=
  Text.pastLast_of_notMem fun h => hhost.unescorted (mem_host (by decide) h)

/-- A host with a colon stands in brackets. -/
theorem authority_of_colon (h : 0x3a ∈ host) :
    authority scheme host port = 0x5b :: (host ++ 0x5d :: portSuffix scheme port) := by
  unfold authority
  rw [if_pos h, List.cons_append, List.append_assoc, List.singleton_append]
  rfl

theorem authority_of_no_colon (h : 0x3a ∉ host) :
    authority scheme host port = host ++ portSuffix scheme port := by
  unfold authority
  rw [if_neg h]
  rfl

/-- What is before the opening bracket, and what is behind it. -/
theorem cut_authority (scheme : Text) (port : ℕ) (h : 0x3a ∈ host) :
    (authority scheme host port).upTo 0x5b = [] ∧
      (authority scheme host port).past 0x5b = host ++ 0x5d :: portSuffix scheme port := by
  rw [authority_of_colon h]
  exact ⟨Text.upTo_append (t := []) List.not_mem_nil _,
    Text.past_append (t := []) List.not_mem_nil _⟩

theorem bracket_notMem_portSuffix {c : ℕ} (hc : c ∈ [0x5b, 0x5d]) : c ∉ portSuffix scheme port := by
  unfold portSuffix
  split_ifs
  · exact List.not_mem_nil
  · intro h
    rcases List.mem_cons.mp h with rfl | h
    · exact absurd hc (by decide)
    · have hdigit := PyJson.isDigit_of_mem_printNat h
      rcases List.mem_pair.mp hc with rfl | rfl <;> exact absurd hdigit (by decide)

/-- **The host and the port are read back.** -/
theorem host_portText (hhost : Settled lib host) {r : SplitResult}
    (hr : r.netloc = authority scheme host port) (h : 0x3a ∈ host ∨ 0x5b ∉ host) :
    r.host = host ∧ portText r.netloc = portDigits scheme port := by
  unfold SplitResult.host portText
  dsimp only
  rw [hr, pastLast_authority hhost]
  by_cases hcolon : 0x3a ∈ host
  · obtain ⟨-, hpast⟩ := cut_authority scheme port hcolon
    have hmem : 0x5b ∈ authority scheme host port := by
      rw [authority_of_colon hcolon]
      exact List.mem_cons_self
    rw [if_pos hmem, if_pos hmem, hpast, Text.upTo_append hhost.unclosed,
      Text.past_append hhost.unclosed, past_portSuffix]
    exact ⟨rfl, rfl⟩
  · have hopen : 0x5b ∉ host := h.resolve_left hcolon
    have hnotMem : 0x5b ∉ authority scheme host port := by
      rw [authority_of_no_colon hcolon, List.mem_append, not_or]
      exact ⟨hopen, bracket_notMem_portSuffix (by decide)⟩
    rw [if_neg hnotMem, if_neg hnotMem, authority_of_no_colon hcolon]
    unfold portSuffix portDigits
    split_ifs
    · rw [List.append_nil]
      exact ⟨Text.upTo_of_notMem hcolon, Text.past_of_notMem hcolon⟩
    · exact ⟨Text.upTo_append hcolon _, Text.past_append hcolon _⟩

/-- **The brackets are in order** exactly if there are none, or an address between them. -/
theorem bracketed_authority (law : Lawful lib address) (hhost : Settled lib host) :
    Url.Bracketed lib (authority scheme host port) ↔
      if 0x3a ∈ host then checkBracketedHost address host = true else 0x5b ∉ host := by
  unfold Url.Bracketed
  by_cases hcolon : 0x3a ∈ host
  · have hopen : 0x5b ∈ authority scheme host port := by
      rw [authority_of_colon hcolon]
      exact List.mem_cons_self
    have hclosed : 0x5d ∈ authority scheme host port := by
      rw [authority_of_colon hcolon]
      simp
    obtain ⟨hupTo, hpast⟩ := cut_authority scheme port hcolon
    have hport : portSuffix scheme port = [] ∨ (portSuffix scheme port).head? = some 0x3a := by
      unfold portSuffix
      split_ifs
      · exact .inl rfl
      · exact .inr rfl
    rw [if_pos hcolon, and_iff_right (iff_of_true hopen hclosed), law.isBracketed,
      checkBracketedNetloc]
    dsimp only
    rw [pastLast_authority hhost, if_pos hopen, hpast, hupTo, Text.past_append hhost.unclosed,
      Text.upTo_append hhost.unclosed, decide_eq_true (And.intro rfl hport), Bool.true_and]
    exact ⟨fun h => h hopen, fun h _ => h⟩
  · have hsuffix : ∀ c ∈ [0x5b, 0x5d], (c ∈ authority scheme host port ↔ c ∈ host) := by
      intro c hc
      rw [authority_of_no_colon hcolon, List.mem_append, or_iff_left (bracket_notMem_portSuffix hc)]
    rw [if_neg hcolon, hsuffix 0x5b (by decide), hsuffix 0x5d (by decide)]
    constructor
    · exact fun h hmem => hhost.unclosed (h.1.mp hmem)
    · exact fun h => ⟨iff_of_false h hhost.unclosed, fun hmem => absurd hmem h⟩

/-! ### Compatibility forms -/

/-- A network location without a slash passes if nothing beyond ASCII becomes a delimiter. -/
theorem checkNetloc_of_plain (law : Lawful lib address) {netloc : Text} (hslash : 0x2f ∉ netloc)
    (hplain : ∀ c ∈ netloc, 0x80 ≤ c → Plain lib c) : checkNetloc lib netloc = true := by
  have hall : delimiters.all (· ∉ lib.nfkc (netloc.filter (· ∉ Text.ofString "@:#?"))) = true := by
    refine List.all_eq_true.mpr fun d hd => decide_eq_true fun hmem => ?_
    obtain ⟨c, hc, hcd⟩ := (law.nfkc_mem d hd _).mp hmem
    obtain ⟨hc, hkept⟩ := List.mem_filter.mp hc
    by_cases hascii : c < 0x80
    · rw [law.nfkc_ascii c hascii, List.mem_singleton] at hcd
      subst hcd
      have hcase : ∀ d ∈ delimiters, d ∉ Text.ofString "@:#?" → d = 0x2f := by decide
      rw [hcase d hd (of_decide_eq_true hkept)] at hc
      exact hslash hc
    · exact hplain c hc (by omega) d hd hcd
  unfold checkNetloc
  dsimp only
  rw [hall, Bool.or_true, Bool.or_true]

/-- Nothing beyond ASCII becomes a delimiter in one that passes. -/
theorem plain_of_checkNetloc (law : Lawful lib address) {netloc : Text} (hslash : 0x2f ∉ netloc)
    (h : checkNetloc lib netloc = true) : ∀ c ∈ netloc, 0x80 ≤ c → Plain lib c := by
  intro c hc hle d hd hmem
  have hbeyond : c ∈ netloc.filter (· ∉ Text.ofString "@:#?") := by
    refine List.mem_filter.mpr ⟨hc, decide_eq_true fun hmem => ?_⟩
    have hlt : ∀ d ∈ Text.ofString "@:#?", d < 0x80 := by decide
    have hascii := hlt c hmem
    omega
  have hform := (law.nfkc_mem d hd _).mpr ⟨c, hbeyond, hmem⟩
  unfold checkNetloc at h
  dsimp only at h
  rw [Bool.or_eq_true, Bool.or_eq_true, decide_eq_true_eq] at h
  rcases h with h | h | h
  · have hascii := of_decide_eq_true (List.all_eq_true.mp h c hc)
    omega
  · rw [h] at hform
    obtain ⟨hnetloc, hkept⟩ := List.mem_filter.mp hform
    have hcase : ∀ d ∈ delimiters, d ∉ Text.ofString "@:#?" → d = 0x2f := by decide
    rw [hcase d hd (of_decide_eq_true hkept)] at hnetloc
    exact hslash hnetloc
  · exact of_decide_eq_true (List.all_eq_true.mp h d hd) hform

/-- **The network location of a canonical form is one** exactly if its brackets are in order. -/
theorem readable_authority (law : Lawful lib address) (hhost : Settled lib host) :
    Readable lib (authority scheme host port) ↔ Url.Bracketed lib (authority scheme host port) := by
  refine and_iff_left (checkNetloc_of_plain law ?_ ?_)
  · exact fun h => authority_unterminated hhost _ h (by decide)
  · intro c hc hle
    rcases mem_authority hc with hc | hc | hc
    · exact hhost.plain c hc hle
    · have hlt : ∀ c ∈ [0x5b, 0x5d, 0x3a], c < 0x80 := by decide
      have hascii := hlt c hc
      omega
    · simp only [PyJson.isDigit, Bool.and_eq_true, decide_eq_true_eq] at hc
      omega

/-! ### The form of a form -/

/-- A host in its canonical form is its own name. -/
theorem hostname_of_host (hhost : Settled lib host) {r : SplitResult} (hr : r.host = host) :
    (r.hostname lib).getD [] = host := by
  unfold SplitResult.hostname
  rw [hr]
  split_ifs with hnil
  · exact hnil.symm
  · have hfixed : lib.lower (host.upTo 0x25) = host.upTo 0x25 :=
      hhost.fixed _ (List.takeWhile_prefix _).isInfix
    rw [hfixed]
    exact List.takeWhile_append_dropWhile

theorem portReadable_digits (hport : port ≤ 65535) : PortReadable (portDigits scheme port) := by
  unfold portDigits
  split_ifs
  · decide
  · refine ⟨List.all_eq_true.mpr fun c hc => PyJson.isDigit_of_mem_printNat hc, ?_, ?_⟩
    · have hlength : (Nat.toDigits 10 port).length ≤ 5 :=
        Nat.toDigits_length 10 port 5 (by decide) (by omega)
      rw [PyJson.printNat, List.length_map]
      exact hlength.trans (by decide)
    · rw [PyJson.digitsValue_printNat]
      exact hport

/-- **When a canonical form is its own**: there is a host, and if it has a colon then it is an
address for brackets, and else it has no bracket. -/
theorem canonicalOrigin_render (law : Lawful lib address)
    (hscheme : scheme ∈ [Text.ofString "http", Text.ofString "https"]) (hhost : Settled lib host)
    (hport : port ≠ 0 ∧ port ≤ 65535) :
    canonicalOrigin lib (render scheme host port) = .ok (render scheme host port) ↔
      host ≠ [] ∧ if 0x3a ∈ host then checkBracketedHost address host = true else 0x5b ∉ host := by
  rw [canonicalOrigin_eq_ok]
  have hparts : parts (render scheme host port)
      = ⟨⟨scheme, authority scheme host port, [], [], []⟩, []⟩ := parts_render hscheme hhost
  have hnetloc : (parts (render scheme host port)).netloc = authority scheme host port := by
    rw [hparts]
  have hreadable : Readable lib (authority scheme host port) ↔
      if 0x3a ∈ host then checkBracketedHost address host = true else 0x5b ∉ host :=
    (readable_authority law hhost).trans (bracketed_authority law hhost)
  have hread : (if 0x3a ∈ host then checkBracketedHost address host = true else 0x5b ∉ host) →
      (parts (render scheme host port)).host = host ∧
        portText (parts (render scheme host port)).netloc = portDigits scheme port := by
    intro h
    refine host_portText hhost hnetloc ?_
    by_cases hcolon : 0x3a ∈ host
    · exact .inl hcolon
    · exact .inr ((if_neg hcolon).mp h)
  constructor
  · rintro ⟨⟨hread', hshape, -⟩, -⟩
    rw [hnetloc, hreadable] at hread'
    refine ⟨?_, hread'⟩
    have hname := hshape.hostname
    rwa [hostname_of_host hhost (hread hread').1] at hname
  · rintro ⟨hne, hcheck⟩
    obtain ⟨hhost', hport'⟩ := hread hcheck
    have hname := hostname_of_host hhost hhost'
    have hescort : 0x40 ∉ (parts (render scheme host port)).netloc := by
      rw [hnetloc]
      exact fun h => hhost.unescorted (mem_host (by decide) h)
    refine ⟨⟨?_, ?_, ?_⟩, ?_⟩
    · rw [hnetloc, hreadable]
      exact hcheck
    · have hscheme' : (parts (render scheme host port)).scheme = scheme := by rw [hparts]
      have hpath : (parts (render scheme host port)).path = [] := by rw [hparts]
      refine ⟨?_, ?_, ?_, ?_, ?_, by rw [hparts], by rw [hparts], by rw [hparts]⟩
      · rw [hscheme']
        exact hscheme
      · rw [hname]
        exact hne
      · rw [SplitResult.username, if_neg hescort]
        rfl
      · rw [SplitResult.password, if_neg fun h => hescort h.1]
        rfl
      · rw [hpath]
        exact List.mem_cons_self
    · rw [hport']
      exact portReadable_digits hport.2
    · have hnumber : portNumber (parts (render scheme host port)) = port := by
        unfold portNumber
        rw [hport', hparts]
        unfold portDigits
        by_cases hdefault : port = defaultPort scheme
        · rw [if_pos hdefault, hdefault]
          rfl
        · rw [if_neg hdefault, PyJson.digitsValue_printNat, if_neg hport.1]
      have hlower : lib.lower host = host := hhost.fixed host (List.infix_refl _)
      unfold form
      rw [hname, hnumber, hlower, hhost.undotted, hparts]

/-! ## What was written -/

/-- **When the canonical form of what was written is its own.** A host without brackets must have
something else than dots. In brackets, a host with a colon must be one of a future version,
or have no zone, or have something else than dots in it; one without a colon must have no
bracket. -/
def Stable (r : SplitResult) : Prop :=
  if 0x5b ∈ r.netloc.pastLast 0x40 then
    if 0x3a ∈ r.host then
      r.host.head? = some 0x76 ∨ 0x25 ∉ r.host ∨ ∃ c ∈ r.host.past 0x25, c ≠ 0x2e
    else 0x5b ∉ r.host
  else ∃ c ∈ r.host, c ≠ 0x2e

instance (r : SplitResult) : Decidable (Stable r) := by
  unfold Stable
  infer_instance

theorem mem_of_mem_splitScheme {url : Text} {c : ℕ} (h : c ∈ (Url.splitScheme url).2) :
    c ∈ url := by
  unfold Url.splitScheme at h
  dsimp only at h
  split_ifs at h
  · exact (List.dropWhile_sublist _).subset (List.mem_of_mem_tail h)
  · exact h

theorem netloc_unterminated (raw : Text) : ∀ c ∈ (parts raw).netloc, c ∉ terminators := by
  rw [parts_netloc, Url.netloc, Url.splitNetloc]
  split_ifs
  · intro c hc hmem
    replace hc : c ∈ List.takeWhile (· ∉ Text.ofString "/?#") _ := hc
    rcases List.mem_append.mp hmem with hmem | hmem
    · have hkept := List.mem_takeWhile_imp hc
      exact absurd hmem (by simpa using hkept)
    · have hclean := mem_of_mem_splitScheme
        (List.mem_of_mem_drop ((List.takeWhile_sublist _).subset hc))
      exact of_decide_eq_true (List.mem_filter.mp hclean).2 hmem
  · exact fun c hc => absurd hc List.not_mem_nil

theorem mem_netloc_of_mem_host {r : SplitResult} {c : ℕ} (h : c ∈ r.host) :
    c ∈ r.netloc.pastLast 0x40 := by
  unfold SplitResult.host at h
  dsimp only at h
  split_ifs at h
  · have hpast := (List.takeWhile_sublist _).subset h
    exact (List.dropWhile_sublist _).subset (List.mem_of_mem_tail hpast)
  · exact (List.takeWhile_sublist _).subset h

theorem mem_of_mem_pastLast {t : Text} {c d : ℕ} (h : c ∈ t.pastLast d) : c ∈ t :=
  (List.rtakeWhile_suffix _ t).subset h

/-- **The host of a canonical form is one in lower case.** -/
theorem lowered_hostname (law : Lawful lib address) {r : SplitResult}
    (h : (r.hostname lib).getD [] ≠ []) :
    Lowered (Plain lib) r.host (lib.lower ((r.hostname lib).getD [])) := by
  unfold SplitResult.hostname at h ⊢
  split_ifs at h ⊢ with hnil
  · exact absurd rfl h
  · show Lowered (Plain lib) r.host (lib.lower (lib.lower (r.host.upTo 0x25) ++ _))
    obtain ⟨v, v', hv, hfront, hback⟩ := (law.lower (lib.lower (r.host.upTo 0x25) ++
      r.host.dropWhile (· ≠ 0x25))).exists_of_append
    rw [hv]
    have hall := ((law.lower (r.host.upTo 0x25)).trans hfront).append hback
    rwa [Text.upTo, List.takeWhile_append_dropWhile] at hall

/-- An origin has nothing before its host but perhaps an `@` or a `:@`. -/
theorem mem_pastLast {r : ParseResult} (h : Shaped lib r) {c : ℕ} (hc : c ∈ r.netloc)
    (hother : c ≠ 0x40 ∧ c ≠ 0x3a) : c ∈ r.netloc.pastLast 0x40 := by
  by_cases hescort : 0x40 ∈ r.netloc
  · have hcut := Text.upToLast_append_pastLast hescort
    rw [← hcut, List.mem_append, List.mem_cons, or_iff_right hother.1] at hc
    refine hc.resolve_left fun hmem => ?_
    have hname : (r.netloc.upToLast 0x40).upTo 0x3a = [] := by
      have hempty := h.username
      rwa [SplitResult.username, if_pos hescort] at hempty
    by_cases hcolon : 0x3a ∈ r.netloc.upToLast 0x40
    · have hpassword : (r.netloc.upToLast 0x40).past 0x3a = [] := by
        have hempty := h.password
        rwa [SplitResult.password, if_pos ⟨hescort, hcolon⟩] at hempty
      rw [← Text.upTo_append_past hcolon, hname, hpassword] at hmem
      exact hother.2 (List.mem_singleton.mp hmem)
    · rw [Text.upTo_of_notMem hcolon] at hname
      rw [hname] at hmem
      exact absurd hmem List.not_mem_nil
  · rwa [Text.pastLast_of_notMem hescort]

/-- No host has a closing bracket. -/
theorem unclosed_host {r : ParseResult} (hbrackets : 0x5b ∈ r.netloc ↔ 0x5d ∈ r.netloc)
    (h : Shaped lib r) : 0x5d ∉ r.host := by
  unfold SplitResult.host
  dsimp only
  by_cases hopen : 0x5b ∈ r.netloc.pastLast 0x40
  · rw [if_pos hopen]
    exact Text.notMem_upTo _ _
  · rw [if_neg hopen]
    intro hmem
    have hclosed := mem_of_mem_pastLast ((List.takeWhile_sublist _).subset hmem)
    exact hopen (mem_pastLast h (hbrackets.mpr hclosed) (by decide))

theorem mem_of_mem_rstripDots {t : Text} {c : ℕ} (h : c ∈ rstripDots t) : c ∈ t :=
  (List.rdropWhile_prefix _ _).subset h

/-- What is no dot is not stripped. -/
theorem mem_rstripDots {t : Text} {c : ℕ} (hc : c ≠ 0x2e) (h : c ∈ t) : c ∈ rstripDots t := by
  rw [← List.rdropWhile_append_rtakeWhile (p := (· = 0x2e)) (l := t), List.mem_append] at h
  refine h.resolve_right fun htake => hc ?_
  have hdot := List.mem_rtakeWhile_imp htake
  simpa using hdot

/-- **The host of a canonical form is in its canonical form.** -/
theorem settled_host (law : Lawful lib address) {raw : Text} (h : WellFormed lib raw) :
    Settled lib (rstripDots (lib.lower (((parts raw).hostname lib).getD []))) := by
  have hlowered := lowered_hostname law h.shaped.hostname
  have hwritten : ∀ c, isDelimiter c = true →
      c ∈ rstripDots (lib.lower (((parts raw).hostname lib).getD [])) → c ∈ (parts raw).host :=
    fun c hc hmem => (hlowered.mem_iff hc).mp (mem_of_mem_rstripDots hmem)
  constructor
  · intro u hu
    exact law.lower_fixed _ u (hu.trans (List.rdropWhile_prefix _ _).isInfix)
  · intro c hc hmem
    have hdelimiter : ∀ c ∈ terminators, isDelimiter c = true := by decide
    exact netloc_unterminated raw c (mem_of_mem_pastLast
      (mem_netloc_of_mem_host (hwritten c (hdelimiter c hmem) hc))) hmem
  · intro hmem
    exact Text.notMem_pastLast _ _ (mem_netloc_of_mem_host (hwritten _ (by decide) hmem))
  · exact fun hmem => unclosed_host h.readable.1.1 h.shaped (hwritten _ (by decide) hmem)
  · exact List.rdropWhile_idempotent _ _
  · intro c hc hle
    rcases hlowered.mem_or_plain (mem_of_mem_rstripDots hc) hle with hmem | hplain
    · have hslash : 0x2f ∉ (parts raw).netloc := fun h =>
        netloc_unterminated raw _ h (by decide)
      exact plain_of_checkNetloc law hslash h.readable.2 c
        (mem_of_mem_pastLast (mem_netloc_of_mem_host hmem)) hle
    · exact hplain

/-! ### Dots at the end -/

theorem rstripDots_eq_nil {t : Text} : rstripDots t = [] ↔ ∀ c ∈ t, c = 0x2e := by
  simp [rstripDots, List.rdropWhile_eq_nil_iff]

theorem rstripDots_concat_dot (t : Text) : rstripDots (t ++ [0x2e]) = rstripDots t :=
  List.rdropWhile_concat_pos _ _ _ rfl

theorem rstripDots_concat {t : Text} {c : ℕ} (hc : c ≠ 0x2e) : rstripDots (t ++ [c]) = t ++ [c] :=
  List.rdropWhile_concat_neg _ _ _ (by simpa using hc)

theorem rstripDots_append {t u : Text} (h : rstripDots u ≠ []) :
    rstripDots (t ++ u) = t ++ rstripDots u := by
  induction u using List.reverseRecOn with
  | nil => exact absurd rfl h
  | append_singleton u c ih =>
    rw [← List.append_assoc]
    by_cases hc : c = 0x2e
    · subst hc
      rw [rstripDots_concat_dot] at h ⊢
      rw [rstripDots_concat_dot, ih h]
    · rw [rstripDots_concat hc, rstripDots_concat hc, List.append_assoc]

theorem rstripDots_append_dots {t u : Text} (h : ∀ c ∈ u, c = 0x2e) :
    rstripDots (t ++ u) = rstripDots t := by
  induction u using List.reverseRecOn with
  | nil => rw [List.append_nil]
  | append_singleton u c ih =>
    obtain rfl := h c (by simp)
    rw [← List.append_assoc, rstripDots_concat_dot,
      ih fun d hd => h d (List.mem_append_left _ hd)]

theorem rstripDots_eq_self {t : Text} (h : t.getLast? ≠ some 0x2e) : rstripDots t = t := by
  rw [rstripDots, List.rdropWhile_eq_self_iff]
  intro hne hdot
  rw [List.getLast?_eq_some_getLast hne, of_decide_eq_true hdot] at h
  exact h rfl

/-! ### Addresses in brackets -/

theorem isHexDigit_lt {c : ℕ} (h : isHexDigit c = true) : c < 0x80 := by
  simp only [isHexDigit, Bool.or_eq_true, Bool.and_eq_true, decide_eq_true_eq] at h
  omega

theorem isHexDigit_asciiLower {c : ℕ} (h : isHexDigit c = true) :
    isHexDigit (asciiLower c) = true :=
  (by decide : ∀ c < 0x80, isHexDigit c = true → isHexDigit (asciiLower c) = true) c
    (isHexDigit_lt h) h

/-- What an address of a future version is made of. -/
theorem isFutureAddress_iff (t : Text) : isFutureAddress (0x76 :: t) = true ↔
    ∃ digits s, t = digits ++ 0x2e :: s ∧ digits ≠ [] ∧ (∀ c ∈ digits, isHexDigit c = true) ∧
      s ≠ [] ∧ 0xa ∉ s := by
  rw [isFutureAddress, Bool.and_eq_true, decide_eq_true_eq]
  constructor
  · rintro ⟨hdigits, h⟩
    split at h
    · rename_i s hs
      have hrest := of_decide_eq_true h
      refine ⟨t.takeWhile isHexDigit, s, ?_, hdigits, fun c hc => List.mem_takeWhile_imp hc, hrest⟩
      rw [← hs, List.takeWhile_append_dropWhile]
    · exact Bool.noConfusion h
  · rintro ⟨digits, s, rfl, hdigits, hhex, hrest⟩
    rw [List.takeWhile_append_of_pos hhex, List.dropWhile_append_of_pos hhex,
      List.takeWhile_cons_of_neg (by decide), List.dropWhile_cons_of_neg (by decide),
      List.append_nil]
    exact ⟨hdigits, decide_eq_true hrest⟩

/-- **An address of a future version stays one**, if it has a colon. -/
theorem isFutureAddress_rstripDots {plain : ℕ → Prop} {t u : Text}
    (h : isFutureAddress (0x76 :: t) = true) (hlowered : Lowered plain t u) (hcolon : 0x3a ∈ t) :
    isFutureAddress (0x76 :: rstripDots u) = true := by
  obtain ⟨digits, s, rfl, hdigits, hhex, -, hline⟩ := (isFutureAddress_iff t).mp h
  obtain ⟨v, w, rfl, hv, hw⟩ := hlowered.exists_of_append
  obtain rfl := hv.eq_map fun c hc => isHexDigit_lt (hhex c hc)
  have hcolon : 0x3a ∈ s := by
    rw [List.mem_append, List.mem_cons] at hcolon
    rcases hcolon with hcolon | hcolon | hcolon
    · exact absurd (hhex _ hcolon) (by decide)
    · exact absurd hcolon (by decide)
    · exact hcolon
  cases hw with
  | other hle _ _ _ => omega
  | @ascii _ _ s' _ hs =>
    have hcolon' : 0x3a ∈ rstripDots s' :=
      mem_rstripDots (by decide) ((hs.mem_iff (by decide)).mpr hcolon)
    have hne : rstripDots s' ≠ [] := List.ne_nil_of_mem hcolon'
    have hdot : asciiLower 0x2e :: s' = [0x2e] ++ s' := rfl
    rw [isFutureAddress_iff, hdot, ← List.append_assoc, rstripDots_append hne, List.append_assoc]
    refine ⟨digits.map asciiLower, rstripDots s', rfl, by simpa using hdigits, ?_, hne, ?_⟩
    · intro c hc
      obtain ⟨d, hd, rfl⟩ := List.mem_map.mp hc
      exact isHexDigit_asciiLower (hhex d hd)
    · exact fun hmem => hline ((hs.mem_iff (by decide)).mp (mem_of_mem_rstripDots hmem))

/-- The characters of an address are ASCII, and none of them begins a future version or a zone. -/
theorem address_char (law : Lawful lib address) {t : Text} (h : address t = true) :
    ∀ c ∈ t, c < 0x80 ∧ c ≠ 0x76 ∧ c ≠ 0x25 := by
  intro c hc
  rcases law.address_chars t h c hc with hhex | rfl | rfl
  · refine ⟨isHexDigit_lt hhex, ?_, ?_⟩
    · rintro rfl
      exact absurd hhex (by decide)
    · rintro rfl
      exact absurd hhex (by decide)
  · decide
  · decide

/-- **An address of IPv6 stays one**, unless its zone was nothing but dots. -/
theorem isIpv6_rstripDots (law : Lawful lib address) {plain : ℕ → Prop} {t u : Text}
    (h : isIpv6 address t = true) (hlowered : Lowered plain t u) :
    isIpv6 address (rstripDots u) = true ↔ 0x25 ∉ t ∨ ∃ c ∈ t.past 0x25, c ≠ 0x2e := by
  rw [isIpv6, Bool.and_eq_true, decide_eq_true_eq] at h
  obtain ⟨haddress, hzone⟩ := h
  have hchars := address_char law haddress
  have hlower := law.address_lower _ haddress
  have hpercent : 0x25 ∉ (t.upTo 0x25).map asciiLower := fun hmem =>
    (address_char law hlower _ hmem).2.2 rfl
  by_cases hmem : 0x25 ∈ t
  · rw [← Text.upTo_append_past hmem] at hlowered
    obtain ⟨v, w, rfl, hv, hw⟩ := hlowered.exists_of_append
    obtain rfl := hv.eq_map fun c hc => (hchars c hc).1
    cases hw with
    | other hle _ _ _ => omega
    | @ascii _ _ z _ hz =>
      have hsign : asciiLower 0x25 :: z = [0x25] ++ z := rfl
      rw [or_iff_right (not_not.mpr hmem), hsign, ← List.append_assoc]
      by_cases hdots : ∀ c ∈ z, c = 0x2e
      · have hall : ∀ c ∈ t.past 0x25, c = 0x2e := (hz.forall_eq_iff (by decide)).mp hdots
        rw [rstripDots_append_dots hdots, rstripDots_concat (by decide)]
        refine iff_of_false ?_ fun ⟨c, hc, hne⟩ => hne (hall c hc)
        rw [isIpv6, Bool.and_eq_true, decide_eq_true_eq]
        intro h
        exact (h.2 (by simp)).1 (Text.past_append hpercent [])
      · have hall : ∃ c ∈ t.past 0x25, c ≠ 0x2e := by
          by_contra hnone
          push Not at hnone
          exact hdots ((hz.forall_eq_iff (by decide)).mpr hnone)
        have hne : rstripDots z ≠ [] := fun hnil => hdots (rstripDots_eq_nil.mp hnil)
        rw [rstripDots_append hne, List.append_assoc, List.singleton_append]
        refine iff_of_true ?_ hall
        rw [isIpv6, Text.upTo_append hpercent, Text.past_append hpercent, hlower, Bool.true_and,
          decide_eq_true_eq]
        intro _
        refine ⟨hne, fun hsign => (hzone hmem).2 ?_⟩
        exact (hz.mem_iff (by decide)).mp (mem_of_mem_rstripDots hsign)
  · rw [Text.upTo_of_notMem hmem] at haddress hchars hlower hpercent
    obtain rfl := hlowered.eq_map fun c hc => (hchars c hc).1
    refine iff_of_true ?_ (.inl hmem)
    rw [rstripDots_eq_self (law.address_last _ hlower), isIpv6, Text.upTo_of_notMem hpercent,
      hlower, Bool.true_and, decide_eq_true_eq]
    exact fun hsign => absurd hsign hpercent

/-- An address of IPv6 does not begin as one of a future version. -/
theorem head?_rstripDots (law : Lawful lib address) {plain : ℕ → Prop} {t u : Text}
    (h : isIpv6 address t = true) (hlowered : Lowered plain t u) :
    (rstripDots u).head? ≠ some 0x76 := by
  rw [isIpv6, Bool.and_eq_true] at h
  have hcolon := law.address_colon _ h.1
  have hlower := address_char law (law.address_lower _ h.1)
  cases t with
  | nil => exact absurd hcolon List.not_mem_nil
  | cons c t =>
    have hc : c ∈ Text.upTo (c :: t) 0x25 := by
      by_cases hsign : c = 0x25
      · subst hsign
        exact absurd hcolon List.not_mem_nil
      · rw [Text.upTo, List.takeWhile_cons_of_pos (by simpa using hsign)]
        exact List.mem_cons_self
    have hfirst := hlower _ (List.mem_map_of_mem hc)
    cases hlowered with
    | other hle _ _ _ =>
      have hascii := (address_char law h.1 c hc).1
      omega
    | @ascii _ _ u _ _ =>
      intro hhead
      have hfront : rstripDots (asciiLower c :: u) <+: asciiLower c :: u :=
        List.rdropWhile_prefix _ _
      have hne : rstripDots (asciiLower c :: u) ≠ [] := by
        intro hnil
        rw [hnil] at hhead
        cases hhead
      obtain ⟨d, s, hs⟩ := List.exists_cons_of_ne_nil hne
      rw [hs] at hhead hfront
      obtain rfl := Option.some.inj hhead
      exact hfirst.2.1 (List.cons_prefix_cons.mp hfront).1.symm

/-- **A host that stood in brackets can stand there again.** -/
theorem checkBracketedHost_rstripDots (law : Lawful lib address) {plain : ℕ → Prop} {t u : Text}
    (h : checkBracketedHost address t = true) (hlowered : Lowered plain t u) (hcolon : 0x3a ∈ t) :
    checkBracketedHost address (rstripDots u) = true ↔
      t.head? = some 0x76 ∨ 0x25 ∉ t ∨ ∃ c ∈ t.past 0x25, c ≠ 0x2e := by
  unfold checkBracketedHost at h ⊢
  by_cases hfuture : t.head? = some 0x76
  · rw [if_pos hfuture] at h
    obtain ⟨t, rfl⟩ : ∃ s, t = 0x76 :: s := by
      cases t with
      | nil => exact nomatch hfuture
      | cons c t => exact ⟨t, by rw [Option.some.inj hfuture]⟩
    have hcolon : 0x3a ∈ t := (List.mem_cons.mp hcolon).resolve_left (by decide)
    cases hlowered with
    | other hle _ _ _ => omega
    | @ascii _ _ u _ hu =>
      have hne : rstripDots u ≠ [] :=
        List.ne_nil_of_mem (mem_rstripDots (by decide) ((hu.mem_iff (by decide)).mpr hcolon))
      have hstrip : rstripDots (asciiLower 0x76 :: u) = 0x76 :: rstripDots u :=
        rstripDots_append (t := [0x76]) hne
      refine iff_of_true ?_ (.inl hfuture)
      rw [hstrip, if_pos (List.head?_cons)]
      exact isFutureAddress_rstripDots h hu hcolon
  · rw [if_neg hfuture] at h
    rw [if_neg (head?_rstripDots law h hlowered), isIpv6_rstripDots law h hlowered,
      or_iff_right hfuture]

/-- What stands in brackets was checked. -/
theorem checkBracketedHost_host (law : Lawful lib address) {r : SplitResult}
    (h : Url.Bracketed lib r.netloc) (hopen : 0x5b ∈ r.netloc.pastLast 0x40) :
    checkBracketedHost address r.host = true := by
  have hchecked := h.2 (mem_of_mem_pastLast hopen)
  rw [law.isBracketed, checkBracketedNetloc] at hchecked
  dsimp only at hchecked
  rw [if_pos hopen, Bool.and_eq_true] at hchecked
  unfold SplitResult.host
  dsimp only
  rw [if_pos hopen]
  exact hchecked.2

/-- Something in brackets is no dot. -/
theorem exists_ne_dot (law : Lawful lib address) {t : Text}
    (h : checkBracketedHost address t = true) : ∃ c ∈ t, c ≠ 0x2e := by
  unfold checkBracketedHost at h
  split_ifs at h with hfuture
  · exact ⟨0x76, List.mem_of_head? hfuture, by decide⟩
  · rw [isIpv6, Bool.and_eq_true] at h
    exact ⟨0x3a, (List.takeWhile_sublist _).subset (law.address_colon _ h.1), by decide⟩

theorem portNumber_settled {r : ParseResult} (h : PortReadable (portText r.netloc)) :
    portNumber r ≠ 0 ∧ portNumber r ≤ 65535 := by
  have hdefault : defaultPort r.scheme ≠ 0 ∧ defaultPort r.scheme ≤ 65535 := by
    unfold defaultPort
    split_ifs <;> decide
  unfold portNumber
  split_ifs with hzero
  · exact hdefault
  · exact ⟨hzero, h.2.2⟩

/-- **When a canonical form is its own**, said of what it was made from. -/
theorem canonicalOrigin_form_iff (law : Lawful lib address) {x y : Text}
    (h : canonicalOrigin lib x = .ok y) :
    canonicalOrigin lib y = .ok y ↔ Stable (parts x).toSplitResult := by
  obtain ⟨hform, rfl⟩ := (canonicalOrigin_eq_ok lib x y).mp h
  have hlowered := lowered_hostname law hform.shaped.hostname
  have hhost := settled_host law hform
  unfold form
  rw [canonicalOrigin_render law hform.shaped.scheme hhost (portNumber_settled hform.port)]
  generalize lib.lower (((parts x).hostname lib).getD []) = u at hlowered hhost ⊢
  have hne : rstripDots u ≠ [] ↔ ∃ c ∈ (parts x).host, c ≠ 0x2e := by
    rw [ne_eq, rstripDots_eq_nil, hlowered.forall_eq_iff (by decide)]
    push Not
    exact Iff.rfl
  have hmem : ∀ c, isDelimiter c = true → c ≠ 0x2e → (c ∈ rstripDots u ↔ c ∈ (parts x).host) :=
    fun c hc hdot => Iff.trans ⟨mem_of_mem_rstripDots, mem_rstripDots hdot⟩ (hlowered.mem_iff hc)
  have hcolons := hmem 0x3a (by decide) (by decide)
  have hbrackets := hmem 0x5b (by decide) (by decide)
  rw [hne]
  unfold Stable
  by_cases hopen : 0x5b ∈ (parts x).netloc.pastLast 0x40
  · have hchecked := checkBracketedHost_host law hform.readable.1 hopen
    rw [if_pos hopen, and_iff_right (exists_ne_dot law hchecked)]
    by_cases hcolon : 0x3a ∈ (parts x).host
    · rw [if_pos (hcolons.mpr hcolon), if_pos hcolon,
        checkBracketedHost_rstripDots law hchecked hlowered hcolon]
    · rw [if_neg fun h => hcolon (hcolons.mp h), if_neg hcolon, hbrackets]
  · have hcolon : 0x3a ∉ (parts x).host := by
      unfold SplitResult.host
      dsimp only
      rw [if_neg hopen]
      exact Text.notMem_upTo _ _
    rw [if_neg hopen, if_neg fun h => hcolon (hcolons.mp h), hbrackets]
    exact and_iff_left fun hmem => hopen (mem_netloc_of_mem_host hmem)

/-- **Origins**: when a canonical form is its own, which answers there are, and what they say. -/
theorem origins_iff (law : Lawful lib address) :
    (∀ x y, canonicalOrigin lib x = .ok y →
      (canonicalOrigin lib y = .ok y ↔ Stable (parts x).toSplitResult)) ∧
    (∀ raw allowed, (∃ b, originAllowed lib raw allowed = .ok b) ↔ Answerable lib raw allowed) ∧
    ∀ raw allowed b, originAllowed lib raw allowed = .ok b →
      (b = true ↔ raw = [] ∨ ∃ y, canonicalOrigin lib raw = .ok y ∧
        ∃ v ∈ allowed, canonicalOrigin lib v = .ok y) :=
  ⟨fun _ _ h => canonicalOrigin_form_iff law h, exists_originAllowed_iff lib,
    fun _ _ _ h => originAllowed_eq_true_iff law h⟩

/-! ### A library -/

/-- The loopback address. -/
def loopback (t : Text) : Bool := decide (t = Text.ofString "::1")

/-- A library for ASCII, which knows one address of IPv6. -/
def asciiLibrary : Library where
  nfkc := id
  lower := List.map asciiLower
  isAlnum c := PyJson.isDigit c || Url.isAsciiAlpha c
  isAlpha := Url.isAsciiAlpha
  isDigit := PyJson.isDigit
  isLettered c := PyJson.isDigit c || Url.isAsciiAlpha c
  isBracketed := checkBracketedNetloc loopback
  isPrivateAddress _ := false
  isPrivateInet _ := false

theorem asciiLibrary_lawful : Lawful asciiLibrary loopback where
  isBracketed _ := rfl
  lower t := .map_asciiLower _ t
  lower_fixed t u h := by
    have hfixed : ∀ c ∈ t.map asciiLower, asciiLower c = c := by
      intro c hc
      obtain ⟨d, -, rfl⟩ := List.mem_map.mp hc
      exact asciiLower_asciiLower d
    exact (List.map_congr_left fun c hc => hfixed c (h.subset hc)).trans (List.map_id u)
  nfkc_mem c _ t := by
    show c ∈ t ↔ ∃ d ∈ t, c ∈ [d]
    simp
  nfkc_ascii _ _ := rfl
  address_chars t h := by
    obtain rfl := of_decide_eq_true h
    decide
  address_colon t h := by
    obtain rfl := of_decide_eq_true h
    decide
  address_last t h := by
    obtain rfl := of_decide_eq_true h
    decide
  address_lower t h := by
    obtain rfl := of_decide_eq_true h
    decide

/-- An origin that is allowed, and one that is `null`. -/
theorem origins_iff_page :
    canonicalOrigin asciiLibrary (Text.ofString "http://[::1]")
        = .ok (Text.ofString "http://[::1]") ∧
      (∃ b, originAllowed asciiLibrary (Text.ofString "null") [] = .ok b) ∧
      ∃ y, canonicalOrigin asciiLibrary (Text.ofString "HTTP://A.b:80/") = .ok y ∧
        ∃ v ∈ [Text.ofString "http://a.b."], canonicalOrigin asciiLibrary v = .ok y := by
  obtain ⟨hstable, hanswer, hallowed⟩ := origins_iff asciiLibrary_lawful
  refine ⟨?_, ?_, ?_⟩
  · exact (hstable (Text.ofString "http://[::1]:80") _ (by decide)).mpr (by decide)
  · exact (hanswer _ _).mpr (.inr (.inl (by decide)))
  · have htrue := (hallowed (Text.ofString "HTTP://A.b:80/") [Text.ofString "http://a.b."] true
      (by decide)).mp rfl
    exact htrue.resolve_left (by decide)

/-- **A host of dots, and a port that is none.** The canonical form of `http://.` has none, and
the port of `http://a:b` is a `ValueError`. -/
theorem dots_and_port :
    canonicalOrigin asciiLibrary (Text.ofString "http://.") = .ok (Text.ofString "http://") ∧
      canonicalOrigin asciiLibrary (Text.ofString "http://") ≠ .ok (Text.ofString "http://") ∧
      originAllowed asciiLibrary (Text.ofString "http://a:b") [] = .error .valueError := by
  decide

end Origins
