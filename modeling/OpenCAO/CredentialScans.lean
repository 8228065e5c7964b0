import OpenCAO.CaptureStreams
import OpenCAO.TaskPayloads

/-!
# When a scan for credentials returns

The scan of a text takes apart the URLs that it cuts out, one after the other, until one
names a user. It fails at the first whose brackets are not in order, and this is the only
way in which it fails. A text that was written by nobody in bad faith is such a text: an
address in brackets at the end of a sentence loses its bracket with the punctuation.

Whoever scans a text fails with it. The check of a packet moreover looks for private
locators if there is no credential, and a host that cannot be handed to the C library ends
that search; and a text with half a surrogate pair is not encoded to begin with. Outside
these three the callers do not fail because of the text (`neverCrashes_iff`).
-/

namespace Credentials

variable {lib : Library}

/-! ## The scan of a text -/

/-- **Every URL that the scan comes to is taken apart**: its brackets are in order, unless
one before it names a user. -/
def Parsed (lib : Library) (urls : List Text) : Prop :=
  ∀ front url back, urls = front ++ url :: back → (∀ u ∈ front, 0x40 ∉ Url.netloc u) →
    Url.Bracketed lib (Url.netloc url)

theorem parsed_cons {url : Text} {urls : List Text} :
    Parsed lib (url :: urls) ↔
      Url.Bracketed lib (Url.netloc url) ∧ (0x40 ∉ Url.netloc url → Parsed lib urls) := by
  constructor
  · intro h
    refine ⟨h [] url urls rfl (by simp), fun hat front u back hurls hfront => ?_⟩
    exact h (url :: front) u back (by simp [hurls]) (List.forall_mem_cons.mpr ⟨hat, hfront⟩)
  · rintro ⟨hurl, hurls⟩ front u back heq hfront
    cases front with
    | nil =>
      obtain ⟨rfl, -⟩ := List.cons.inj heq
      exact hurl
    | cons v front =>
      obtain ⟨rfl, htail⟩ := List.cons.inj heq
      obtain ⟨hat, hfront⟩ := List.forall_mem_cons.mp hfront
      exact hurls hat front u back htail hfront

/-- A URL names a user exactly if there is an `@` in its network location. -/
theorem userinfo_iff (r : SplitResult) :
    (r.username.isSome || r.password.isSome) = decide (0x40 ∈ r.netloc) := by
  by_cases h : 0x40 ∈ r.netloc
  · simp [SplitResult.username, h]
  · simp [SplitResult.username, SplitResult.password, h]

theorem anyUserinfo_of_parsed {urls : List Text} (h : Parsed lib urls) :
    anyUserinfo lib urls = .ok (urls.any fun u => 0x40 ∈ Url.netloc u) := by
  induction urls with
  | nil => rfl
  | cons url urls ih =>
    obtain ⟨hurl, hurls⟩ := parsed_cons.mp h
    rcases Url.urlsplit_cases lib url with ⟨-, r, hr, hnetloc⟩ | ⟨hnot, -⟩
    · show (Url.urlsplit lib url >>= fun r => _) = _
      rw [hr]
      show (if (r.username.isSome || r.password.isSome) = true then _ else _) = _
      rw [userinfo_iff, hnetloc, List.any_cons]
      by_cases hat : 0x40 ∈ Url.netloc url
      · simp [hat]
      · simp [hat, ih (hurls hat)]
    · exact absurd hurl hnot

theorem anyUserinfo_of_not {urls : List Text} (h : ¬ Parsed lib urls) :
    ∃ e, anyUserinfo lib urls = .error e := by
  induction urls with
  | nil => exact absurd (fun front url back hnil => by simp at hnil) h
  | cons url urls ih =>
    rcases Url.urlsplit_cases lib url with ⟨hurl, r, hr, hnetloc⟩ | ⟨-, e, he⟩
    · have hrest : 0x40 ∉ Url.netloc url ∧ ¬ Parsed lib urls := by
        rw [parsed_cons] at h
        exact Classical.not_imp.mp fun hrest => h ⟨hurl, hrest⟩
      obtain ⟨e, he⟩ := ih hrest.2
      refine ⟨e, ?_⟩
      show (Url.urlsplit lib url >>= fun r => _) = _
      rw [hr]
      show (if (r.username.isSome || r.password.isSome) = true then _ else _) = _
      rw [userinfo_iff, hnetloc, decide_eq_false hrest.1]
      exact he
    · refine ⟨e, ?_⟩
      show (Url.urlsplit lib url >>= fun r => _) = _
      rw [he]
      rfl

/-- **The scan of a text returns.** -/
def Readable (lib : Library) (t : Text) : Prop :=
  ((genericCredentialPattern lib).search (lib.nfkc t)).isSome = true ∨
    Parsed lib (candidates lib (lib.nfkc t))

/-- **A text has a credential**: one of the forms, or a URL that names a user. -/
def Credentialed (lib : Library) (t : Text) : Prop :=
  ((genericCredentialPattern lib).search (lib.nfkc t)).isSome = true ∨
    ∃ url ∈ candidates lib (lib.nfkc t), 0x40 ∈ Url.netloc url

instance (t : Text) : Decidable (Credentialed lib t) := by
  unfold Credentialed
  infer_instance

/-- **What the scan of a text returns.** -/
theorem scan_of_readable {t : Text} (h : Readable lib t) :
    containsGenericCredentialText lib t = .ok (decide (Credentialed lib t)) := by
  unfold containsGenericCredentialText Credentialed
  dsimp only
  by_cases hform : ((genericCredentialPattern lib).search (lib.nfkc t)).isSome = true
  · simp [hform]
  · rw [if_neg hform, anyUserinfo_of_parsed (h.resolve_left hform)]
    simp only [hform, false_or, Bool.false_eq_true]
    exact congrArg Except.ok (Bool.eq_iff_iff.mpr (by simp))

/-- **The scan of any other text fails.** -/
theorem scan_of_not {t : Text} (h : ¬ Readable lib t) :
    ∃ e, containsGenericCredentialText lib t = .error e := by
  obtain ⟨hform, hparsed⟩ := not_or.mp h
  unfold containsGenericCredentialText
  dsimp only
  rw [if_neg hform]
  exact anyUserinfo_of_not hparsed

theorem readable_iff {t : Text} :
    Readable lib t ↔ ∃ b, containsGenericCredentialText lib t = .ok b := by
  constructor
  · exact fun h => ⟨_, scan_of_readable h⟩
  · rintro ⟨b, hb⟩
    by_contra h
    obtain ⟨e, he⟩ := scan_of_not h
    rw [he] at hb
    cases hb

end Credentials

namespace TaskPayloads

open Credentials

variable {lib : Library}

/-! ## The check of a packet -/

/-- **The host of a URL is judged**: it is a private address, or it can be handed to the C
library. -/
def HostJudged (lib : Library) (url : Text) : Prop :=
  ∀ r, Url.urlsplit lib url = .ok r → lib.isPrivateAddress (canonicalHostname lib r) = true ∨
    (Text.encodable (canonicalHostname lib r) = true ∧ 0 ∉ canonicalHostname lib r)

/-- A program returns exactly if its parts do. -/
theorem returns_bind {ε α β : Type} {x : Except ε α} {f : α → Except ε β} :
    (∃ u, (x >>= f) = .ok u) ↔ ∃ a, x = .ok a ∧ ∃ u, f a = .ok u := by
  cases x with
  | ok a =>
    show (∃ u, f a = .ok u) ↔ _
    simp
  | error e =>
    show (∃ u, Except.error e = Except.ok u) ↔ _
    simp

theorem returns_ite {ε α : Type} {c : Prop} [Decidable c] {a b : α} :
    ∃ u, (if c then .ok a else .ok b : Except ε α) = .ok u := by
  split <;> exact ⟨_, rfl⟩

theorem inetAton_iff {host : Text} :
    (∃ b, inetAton lib host = .ok b) ↔ Text.encodable host = true ∧ 0 ∉ host := by
  unfold inetAton
  by_cases hencodable : Text.encodable host = false
  · simp [hencodable]
  · by_cases hnul : 0 ∈ host <;> simp [hencodable, hnul]

theorem replaceUrl_iff {url : Text} :
    (∃ u, replaceUrl lib url = .ok u) ↔ Url.Bracketed lib (Url.netloc (stripPunctuation url)) ∧
      HostJudged lib (stripPunctuation url) := by
  unfold replaceUrl HostJudged
  rcases Url.urlsplit_cases lib (stripPunctuation url) with ⟨hurl, r, hr, -⟩ | ⟨hnot, e, he⟩
  · simp only [returns_bind, hr, hurl, true_and, Except.ok.injEq, exists_eq_left', forall_eq']
    by_cases haddress : lib.isPrivateAddress (canonicalHostname lib r) = true
    · simp [haddress, returns_bind, returns_ite]
    · simp only [haddress, if_false, false_or, returns_bind, returns_ite, and_true,
        inetAton_iff, Bool.false_eq_true]
  · simp [returns_bind, he, hnot]

theorem replaceUrls_iff {ms : List (Regex.Match ℕ)} :
    (∃ u, replaceUrls lib ms = .ok u) ↔ ∀ m ∈ ms, ∃ u, replaceUrl lib m.text = .ok u := by
  induction ms with
  | nil => simp [replaceUrls]
  | cons m ms ih => simp [replaceUrls, returns_bind, ← ih]

/-- **The search of a text for private locators returns** exactly if every URL is taken
apart and every host is judged. -/
theorem textContainsPrivateLocator_iff {t : Text} :
    (∃ b, textContainsPrivateLocator lib t = .ok b) ↔
      ∀ url ∈ candidates lib (lib.nfkc t),
        Url.Bracketed lib (Url.netloc url) ∧ HostJudged lib url := by
  have hscan : (∃ b, textContainsPrivateLocator lib t = .ok b) ↔
      ∃ u, replaceUrls lib ((httpUrlPattern lib).finditer (lib.nfkc t)).1 = .ok u := by
    simp [textContainsPrivateLocator, withoutPublicHttpUrls, returns_bind, returns_ite]
  rw [hscan, replaceUrls_iff]
  unfold candidates
  rw [List.forall_mem_map]
  exact forall₂_congr fun m _ => replaceUrl_iff

/-- **A text can be checked**: it has half of no surrogate pair, the scan for credentials
returns, and if there is neither a secret nor a credential, every host is judged. -/
structure Scannable (lib : Library) (t : Text) : Prop where
  encodable : t.all Utf8.isScalar = true
  readable : Readable lib t
  judged : Secrets.textContainsSecret t = false → ¬ Credentialed lib t →
    ∀ url ∈ candidates lib (lib.nfkc t), HostJudged lib url

/-- Where no URL names a user, all of them are taken apart. -/
theorem bracketed_of_readable {t : Text} (h : Readable lib t) (hnot : ¬ Credentialed lib t) :
    ∀ url ∈ candidates lib (lib.nfkc t), Url.Bracketed lib (Url.netloc url) := by
  obtain ⟨hform, hat⟩ := not_or.mp hnot
  intro url hurl
  obtain ⟨front, back, heq⟩ := List.mem_iff_append.mp hurl
  refine h.resolve_left hform front url back heq fun u hu hmem => hat ⟨u, ?_, hmem⟩
  rw [heq]
  exact List.mem_append_left _ hu

/-- The texts of a value without a secret have none. -/
theorem textContainsSecret_of_clean {v : PyValue} :
    Secrets.containsControlPlaneSecret v = false →
      ∀ t ∈ v.texts, Secrets.textContainsSecret t = false := by
  induction v using PyValue.induct with
  | none | number | other => exact fun _ t ht => by cases ht
  | str t => exact fun h u hu => List.mem_singleton.mp hu ▸ h
  | mapping ms ih =>
    refine fun h => PyValue.forall_mem_itemTexts.mpr fun m hm => ?_
    obtain ⟨hk, hv⟩ := Secrets.itemsContainSecret_eq_false.mp h m hm
    exact ⟨(ih m hm).1 hk, (ih m hm).2 hv⟩
  | list xs ih | tuple xs ih | set xs ih | frozenset xs ih =>
    exact fun h => PyValue.forall_mem_elementTexts.mpr fun x hx =>
      ih x hx (Secrets.anyContainsSecret_eq_false.mp h x hx)

/-- A scan returns, and what it returns of a value without a find holds of the value. -/
def Returns (scan : Except ValueError Bool) (P : Prop) : Prop :=
  ∃ b, scan = .ok b ∧ (b = false → P)

theorem Returns.orElse {scan next : Except ValueError Bool} {P Q : Prop} (h : Returns scan P)
    (hnext : Returns next Q) :
    Returns (scan >>= fun b => if b = true then .ok true else next) (P ∧ Q) := by
  obtain ⟨b, rfl, hb⟩ := h
  cases b with
  | true => exact ⟨true, rfl, fun h => by cases h⟩
  | false =>
    obtain ⟨c, rfl, hc⟩ := hnext
    exact ⟨c, rfl, fun h => ⟨hb rfl, hc h⟩⟩

theorem Returns.mono {scan : Except ValueError Bool} {P Q : Prop} (h : Returns scan P)
    (hPQ : P → Q) : Returns scan Q := by
  obtain ⟨b, hb, hP⟩ := h
  exact ⟨b, hb, fun hfalse => hPQ (hP hfalse)⟩

/-- **The scan of a value returns** if the scan of each of its texts does. -/
theorem containsGenericCredential_of_readable {v : PyValue} :
    (∀ t ∈ v.texts, Readable lib t) →
      Returns (containsGenericCredential lib v) (∀ t ∈ v.texts, ¬ Credentialed lib t) := by
  have helements : ∀ {xs : List PyValue},
      (∀ x ∈ xs, (∀ t ∈ x.texts, Readable lib t) →
        Returns (containsGenericCredential lib x) (∀ t ∈ x.texts, ¬ Credentialed lib t)) →
      (∀ t ∈ PyValue.elementTexts xs, Readable lib t) →
      Returns (anyContainsCredential lib xs)
        (∀ t ∈ PyValue.elementTexts xs, ¬ Credentialed lib t) := fun {xs} ih h => by
    induction xs with
    | nil => exact ⟨false, rfl, fun _ t ht => by cases ht⟩
    | cons x xs iht =>
      obtain ⟨hx, hxs⟩ := List.forall_mem_append.mp h
      obtain ⟨ihx, ihxs⟩ := List.forall_mem_cons.mp ih
      exact ((ihx hx).orElse (iht ihxs hxs)).mono List.forall_mem_append.mpr
  induction v using PyValue.induct with
  | none | number | other => exact fun _ => ⟨false, rfl, fun _ t ht => by cases ht⟩
  | str t =>
    intro h
    refine ⟨_, scan_of_readable (h t (List.mem_singleton_self t)), fun hfalse u hu => ?_⟩
    obtain rfl := List.mem_singleton.mp hu
    exact of_decide_eq_false hfalse
  | mapping ms ih =>
    show (∀ t ∈ PyValue.itemTexts ms, Readable lib t) →
      Returns (itemsContainCredential lib ms) (∀ t ∈ PyValue.itemTexts ms, ¬ Credentialed lib t)
    induction ms with
    | nil => exact fun _ => ⟨false, rfl, fun _ t ht => by cases ht⟩
    | cons m ms iht =>
      intro h
      obtain ⟨hm, hms⟩ := List.forall_mem_append.mp h
      obtain ⟨hk, hv⟩ := List.forall_mem_append.mp hm
      obtain ⟨ihm, ihms⟩ := List.forall_mem_cons.mp ih
      obtain ⟨key, item⟩ := m
      show Returns (if _ then .ok true else _) _
      split
      · exact ⟨true, rfl, fun h => by cases h⟩
      · refine ((ihm.1 hk).orElse ((ihm.2 hv).orElse (iht ihms hms))).mono fun ⟨h₁, h₂, h₃⟩ => ?_
        exact List.forall_mem_append.mpr ⟨List.forall_mem_append.mpr ⟨h₁, h₂⟩, h₃⟩
  | list xs ih | tuple xs ih | set xs ih | frozenset xs ih => exact helements ih

/-- **The search of a value for private locators returns** if that of each of its texts
does. -/
theorem containsPrivateLocator_of_texts {v : PyValue} :
    (∀ t ∈ v.texts, ∃ b, textContainsPrivateLocator lib t = .ok b) →
      Returns (containsPrivateLocator lib v) True := by
  have helements : ∀ {xs : List PyValue},
      (∀ x ∈ xs, (∀ t ∈ x.texts, ∃ b, textContainsPrivateLocator lib t = .ok b) →
        Returns (containsPrivateLocator lib x) True) →
      (∀ t ∈ PyValue.elementTexts xs, ∃ b, textContainsPrivateLocator lib t = .ok b) →
      Returns (anyContainsLocator lib xs) True := fun {xs} ih h => by
    induction xs with
    | nil => exact ⟨false, rfl, fun _ => trivial⟩
    | cons x xs iht =>
      obtain ⟨hx, hxs⟩ := List.forall_mem_append.mp h
      obtain ⟨ihx, ihxs⟩ := List.forall_mem_cons.mp ih
      exact ((ihx hx).orElse (iht ihxs hxs)).mono fun _ => trivial
  induction v using PyValue.induct with
  | none | number | other => exact fun _ => ⟨false, rfl, fun _ => trivial⟩
  | str t =>
    intro h
    obtain ⟨b, hb⟩ := h t (List.mem_singleton_self t)
    exact ⟨b, hb, fun _ => trivial⟩
  | mapping ms ih =>
    show (∀ t ∈ PyValue.itemTexts ms, _) → Returns (itemsContainLocator lib ms) True
    induction ms with
    | nil => exact fun _ => ⟨false, rfl, fun _ => trivial⟩
    | cons m ms iht =>
      intro h
      obtain ⟨hm, hms⟩ := List.forall_mem_append.mp h
      obtain ⟨hk, hv⟩ := List.forall_mem_append.mp hm
      obtain ⟨ihm, ihms⟩ := List.forall_mem_cons.mp ih
      obtain ⟨key, item⟩ := m
      exact ((ihm.1 hk).orElse ((ihm.2 hv).orElse (iht ihms hms))).mono fun _ => trivial
  | list xs ih | tuple xs ih | set xs ih | frozenset xs ih => exact helements ih

/-- **The check of a packet does not fail because of its texts.** -/
theorem requireWorkerSafeTaskPayload_of_scannable {v : PyValue}
    (h : ∀ t ∈ v.texts, Scannable lib t) (e : ValueError) :
    requireWorkerSafeTaskPayload lib v ≠ .error (.valueError e) := by
  unfold requireWorkerSafeTaskPayload
  dsimp only
  by_cases hsecret : Secrets.containsControlPlaneSecret v = true
  · rw [if_pos hsecret]
    exact fun h => by cases h
  · rw [if_neg hsecret]
    obtain ⟨b, hb, hclean⟩ :=
      containsGenericCredential_of_readable fun t ht => (h t ht).readable
    rw [hb]
    cases b with
    | true => exact fun h => by cases h
    | false =>
      have hsecrets := textContainsSecret_of_clean (Bool.not_eq_true _ ▸ hsecret)
      obtain ⟨c, hc, -⟩ := containsPrivateLocator_of_texts (v := v) fun t ht =>
        textContainsPrivateLocator_iff.mpr fun url hurl =>
          ⟨bracketed_of_readable (h t ht).readable (hclean rfl t ht) url hurl,
            (h t ht).judged (hsecrets t ht) (hclean rfl t ht) url hurl⟩
      dsimp only
      rw [hc]
      cases c <;> exact fun h => by cases h

/-! ## The callers -/

/-- The scans of a content of the archive, which is the UTF-8 of a text by then. -/
def secretScan (lib : Library) : SecretScan where
  containsControlPlaneSecret content := (Utf8.decode content).any Secrets.textContainsSecret
  containsGenericCredentialText content :=
    match Utf8.decode content with
    | some t => containsGenericCredentialText lib t
    | none => .ok false

/-- **`observe_output`**, from the text that the provider reports. -/
def observeText (lib : Library) (staged : Bool) (d : OutputDispatch) (e : WorkerOutputEvent)
    (text : Text) : CaptureTx OutputReceipt := do
  Tx.require e.Valid (.validation "invalid provider-owned Worker output envelope")
  let raw ← Tx.need (Utf8.encode text) (.valueError .unicodeEncode)
  CaptureStore.observeOutput (secretScan lib) staged d { e with text := raw }

theorem secretScan_of_decode {content : Bytes} {t : Text} (h : Utf8.decode content = some t) :
    (secretScan lib).containsGenericCredentialText content
      = containsGenericCredentialText lib t := by
  simp [secretScan, h]

/-- What is captured of a text that can be read does not fail. -/
theorem capturedContent_of_readable {t : Text} (h : Readable lib t) (staged : Bool)
    {e : WorkerOutputEvent} (he : Utf8.decode e.text = some t) :
    ∃ content, capturedContent (secretScan lib) staged e = .ok content := by
  unfold capturedContent
  dsimp only
  rw [secretScan_of_decode he, scan_of_readable h]
  by_cases hsecret : (secretScan lib).containsControlPlaneSecret e.text = true
  · simp [hsecret, returns_bind]
  · simp only [hsecret, returns_bind, if_false, Except.ok.injEq, exists_eq_left', Bool.false_eq_true]
    repeat' split
    all_goals exact ⟨_, rfl⟩

/-- **Observing an event fails in one of its own ways** if its content can be captured. -/
theorem observeOutput_errors {secrets : SecretScan} {staged : Bool} {e : WorkerOutputEvent}
    (h : ∃ content, capturedContent secrets staged e = .ok content) (d : OutputDispatch)
    (s : CaptureStore) (v : ValueError) :
    Tx.wp (CaptureStore.observeOutput secrets staged d e) (fun _ _ => True)
      (fun err => err ≠ .valueError v) s := by
  obtain ⟨content, hcontent⟩ := h
  unfold CaptureStore.observeOutput
  rw [hcontent]
  simp only [Tx.wp_bind, Tx.wp_require, Tx.wp_get, Tx.wp_need]
  refine ⟨fun _ => ⟨fun t _ => ⟨fun _ => ?_, fun _ h => by cases h⟩, fun _ h => by cases h⟩,
    fun _ h => by cases h⟩
  split
  · simp
  · simp [Except.mapError]

/-- **Observing a text that can be read fails in one of its own ways.** -/
theorem observeText_of_readable {t : Text} (hencode : t.all Utf8.isScalar = true)
    (h : Readable lib t) (staged : Bool) (d : OutputDispatch) (e : WorkerOutputEvent)
    (s : CaptureStore) (v : ValueError) :
    observeText lib staged d e t s ≠ .error (.valueError v) := by
  have hraw : Utf8.encode t = some (t.flatMap Utf8.encodeChar) := if_pos hencode
  have hwp : Tx.wp (observeText lib staged d e t) (fun _ _ => True)
      (fun err => err ≠ .valueError v) s := by
    unfold observeText
    simp only [hraw, Tx.wp_bind, Tx.wp_require, Tx.wp_need]
    refine ⟨fun _ => ⟨fun raw hsome => ?_, fun hnone => by cases hnone⟩, fun _ h => by cases h⟩
    obtain rfl := Option.some.inj hsome
    exact observeOutput_errors (capturedContent_of_readable h staged (Utf8.decode_of_encode hraw))
      d s v
  intro herr
  unfold Tx.wp at hwp
  rw [herr] at hwp
  exact hwp rfl

/-- **Reading a text that can be read fails in one of its own ways.** -/
theorem readVerifiedTextChunk_of_readable {t : Text} (h : Readable lib t)
    (archive : ArtifactArchive) {digest : ContentDigest} (hdigest : Utf8.decode digest = some t)
    (byteOffset maxBytes : ℕ) (v : ValueError) :
    archive.readVerifiedTextChunk (secretScan lib) digest byteOffset maxBytes
      ≠ .error (.valueError v) := by
  intro herr
  unfold ArtifactArchive.readVerifiedTextChunk at herr
  split at herr
  · cases herr
  split at herr
  · cases herr
  split at herr
  · rename_i e hread
    obtain rfl := Except.error.inj herr
    unfold ArtifactArchive.readStagedArchiveBounded at hread
    split at hread
    · cases hread
    · split_ifs at hread <;> cases hread
  · rename_i encoded hread
    obtain rfl := ArtifactArchive.eq_of_readStagedArchiveBounded hread
    rw [secretScan_of_decode hdigest, scan_of_readable h] at herr
    dsimp only at herr
    split at herr
    · cases herr
    split at herr
    · cases herr
    split at herr
    · rename_i hok
      cases hok
    · cases herr
    · split_ifs at herr <;> cases herr

/-! ## Texts that crash nobody -/

/-- **A text never crashes its callers**: the scan answers, and an observation of it, a read
of its bytes and the check of a packet that holds it, next to texts that can be checked, do
not end with a `ValueError`. -/
structure NeverCrashes (lib : Library) (t : Text) : Prop where
  scan : ∃ b, containsGenericCredentialText lib t = .ok b
  observe : ∀ staged d e s v, observeText lib staged d e t s ≠ .error (.valueError v)
  read : ∀ (archive : ArtifactArchive) digest byteOffset maxBytes v,
    Utf8.decode digest = some t →
      archive.readVerifiedTextChunk (secretScan lib) digest byteOffset maxBytes
        ≠ .error (.valueError v)
  packet : ∀ v : PyValue, (∀ u ∈ v.texts, u = t ∨ Scannable lib u) →
    ∀ e, requireWorkerSafeTaskPayload lib v ≠ .error (.valueError e)

/-- An event whose envelope is valid. -/
def sampleReport : WorkerOutputEvent :=
  { nativeThreadId := "thread", turnId := "turn", itemId := "item", kind := .message, text := []
    phase := .commentary, status := .running, complete := true }

theorem valid_sampleReport : sampleReport.Valid := by decide

/-- The ledger of a control plane that has done nothing yet. -/
def emptyStore : CaptureStore :=
  ⟨0, ⟨[], [], [], [], [], [], [], [], []⟩, [], [], [], []⟩

/-- **A text crashes nobody exactly if it can be checked.** -/
theorem neverCrashes_iff (lib : Library) (t : Text) : NeverCrashes lib t ↔ Scannable lib t := by
  constructor
  · intro h
    refine ⟨?_, readable_iff.mpr h.scan, fun hsecret hnot => ?_⟩
    · -- Half a surrogate pair is not encoded, whatever the state.
      by_contra hall
      refine h.observe true ⟨0, ⟨0, 0⟩, 0, 0, 0, ""⟩ sampleReport emptyStore .unicodeEncode ?_
      unfold observeText
      rw [Tx.require_bind valid_sampleReport]
      show (Tx.need (Utf8.encode t) _ >>= _) emptyStore = _
      rw [show Utf8.encode t = none from if_neg hall]
      rfl
    · -- The check of the packet that is this text comes to the search for locators.
      refine fun url hurl => (textContainsPrivateLocator_iff.mp ?_ url hurl).2
      cases hlocator : textContainsPrivateLocator lib t with
      | ok b => exact ⟨b, rfl⟩
      | error e =>
        refine absurd ?_ (h.packet (.str t) (fun u hu => .inl (List.mem_singleton.mp hu)) e)
        unfold requireWorkerSafeTaskPayload containsGenericCredential containsPrivateLocator
        rw [show Secrets.containsControlPlaneSecret (.str t) = false from hsecret,
          scan_of_readable (readable_iff.mpr h.scan), decide_eq_false hnot, hlocator]
        rfl
  · intro h
    exact
      { scan := readable_iff.mp h.readable
        observe := observeText_of_readable h.encodable h.readable
        read := fun archive _ byteOffset maxBytes v hdigest =>
          readVerifiedTextChunk_of_readable h.readable archive hdigest byteOffset maxBytes v
        packet := fun v hv e => requireWorkerSafeTaskPayload_of_scannable
          (fun u hu => (hv u hu).elim (fun hut => hut ▸ h) id) e }

/-! ### An address in brackets -/

/-- The standard library, as far as texts in ASCII go. -/
def asciiLibrary : Library where
  nfkc t := t
  lower t := t.map fun c => if isUpper c then c + 0x20 else c
  isAlnum := Secrets.isAlnum
  isAlpha := Url.isAsciiAlpha
  isDigit := isDecimal
  isLettered c := Secrets.isAlnum c || c ∈ Text.ofString "$+<=>^|~"
  isBracketed netloc := netloc == Text.ofString "[::1]"
  isPrivateAddress host := host ∈ ["::1", "127.0.0.1"].map Text.ofString
  isPrivateInet host := host == Text.ofString "127.0.0.1"

/-- What a Worker may write about a service of its own. -/
def bracketedAddress : Text := Text.ofString "see http://[::1]"

/-- **The scan takes the bracket for punctuation**, and then fails: so do a read of the
archived text and the check of a packet that says it. -/
theorem bracketed_address_crashes :
    containsGenericCredentialText asciiLibrary bracketedAddress = .error .invalidIpv6Url ∧
      ArtifactArchive.readVerifiedTextChunk (secretScan asciiLibrary) some
          (bracketedAddress.flatMap Utf8.encodeChar) 0 4
        = .error (.valueError .invalidIpv6Url) ∧
      requireWorkerSafeTaskPayload asciiLibrary (.str bracketedAddress)
        = .error (.valueError .invalidIpv6Url) ∧
      ¬ NeverCrashes asciiLibrary bracketedAddress := by
  have hscan : containsGenericCredentialText asciiLibrary bracketedAddress
      = .error .invalidIpv6Url := by decide
  refine ⟨hscan, by decide, by decide, fun h => ?_⟩
  obtain ⟨b, hb⟩ := h.scan
  rw [hscan] at hb
  cases hb

end TaskPayloads
