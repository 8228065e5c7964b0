import OpenCAO.CredentialScans
import OpenCAO.Paging

/-!
# Reading an archived text to its end

A text is read in chunks of a size that the reader chooses anew for each of them. The end
of a chunk goes back to the end of a character, and four bytes hold any character, so that
every chunk advances; the next one begins between two characters again. What was read in
the end is the text (`Lossless`).

Every read scans the whole text first. A text in which a credential is found is not handed
out, and that is what the scan is for. But where the scan does not return, no read does, and
the text cannot be read at all (`reads_all_iff`).
-/

namespace ArtifactArchive

open Credentials TaskPayloads

variable {lib : Library} {archive : ArtifactArchive} {encoded : Bytes} {t : Text}

/-- The sizes that a reader may ask for. -/
def ChunkSize (maxBytes : ℕ) : Prop := 4 ≤ maxBytes ∧ maxBytes ≤ artifactContentChunkMaxBytes

/-- Offsets between two characters. -/
def Boundary (encoded : Bytes) (offset : ℕ) : Prop :=
  offset ≤ encoded.length ∧ Utf8.decodes (encoded.take offset) = true

/-- **A content is archived as a text**, and the scans do not reject it: no secret was found
in it and no credential. -/
structure Archived (lib : Library) (archive : ArtifactArchive) (encoded : Bytes) (t : Text) :
    Prop where
  found : archive encoded = some encoded
  length_le : encoded.length ≤ artifactContentMaxBytes
  decodes : Utf8.decode encoded = some t
  secret : Secrets.textContainsSecret t = false
  credential : containsGenericCredentialText lib t ≠ .ok true

/-- The calls of a reader. -/
def readFrom (lib : Library) (archive : ArtifactArchive) (encoded : Bytes) (maxBytes offset : ℕ) :
    Except ArtifactPreservationError VerifiedArtifactTextChunk :=
  archive.readVerifiedTextChunk (secretScan lib) encoded offset maxBytes

/-- **The chunks are the text**, read from its beginning to its end. -/
structure Lossless (lib : Library) (archive : ArtifactArchive) (encoded : Bytes) (sizes : ℕ → ℕ)
    (chunks : List VerifiedArtifactTextChunk) : Prop where
  walk : Paging.Walk (readFrom lib archive encoded) VerifiedArtifactTextChunk.nextByteOffset
    sizes 0 chunks
  /-- The bytes of the chunks are the archived ones. -/
  bytes : chunks.flatMap VerifiedArtifactTextChunk.content = encoded
  /-- The last chunk and no other is marked as such. -/
  complete : ∀ i c, chunks[i]? = some c → (c.complete = true ↔ i + 1 = chunks.length)
  /-- A chunk is a text of at most the size that was asked for. -/
  chunk : ∀ i c, chunks[i]? = some c →
    c.content.length ≤ sizes i ∧ Utf8.decodes c.content = true
  /-- A chunk that is not the last has something in it, and ends between two characters. -/
  next : ∀ (i : ℕ) (c : VerifiedArtifactTextChunk) (offset : ℕ), chunks[i]? = some c →
    c.nextByteOffset = some offset →
    c.content ≠ [] ∧ Boundary encoded offset

/-! ## One chunk -/

/-- **A read of a text whose scan returns.** -/
theorem readFrom_of_readable (h : Archived lib archive encoded t) (hreadable : Readable lib t)
    {maxBytes offset : ℕ} (hsize : ChunkSize maxBytes) (hoffset : Boundary encoded offset) :
    readFrom lib archive encoded maxBytes offset = .ok (textChunk encoded offset maxBytes) := by
  have hread : archive.readStagedArchiveBounded encoded = .ok encoded := by
    unfold readStagedArchiveBounded
    rw [h.found]
    show (if _ then _ else if encoded ≠ encoded then _ else _) = _
    rw [if_neg (Nat.not_lt.mpr h.length_le), if_neg (not_not.mpr rfl)]
  have hdecodes : Utf8.decodes encoded = true := by
    rw [← Utf8.isSome_decode, h.decodes]
    rfl
  have hsecret : (secretScan lib).containsControlPlaneSecret encoded = false := by
    simpa [secretScan, h.decodes] using h.secret
  have hcredential : (secretScan lib).containsGenericCredentialText encoded = .ok false := by
    rw [secretScan_of_decode h.decodes]
    obtain ⟨b, hb⟩ := readable_iff.mp hreadable
    cases b with
    | true => exact absurd hb h.credential
    | false => exact hb
  have hlt : ¬ artifactContentMaxBytes < offset := Nat.not_lt.mpr (hoffset.1.trans h.length_le)
  have hasked : ¬ (maxBytes < 4 ∨ artifactContentChunkMaxBytes < maxBytes) := by
    obtain ⟨hlow, hhigh⟩ := hsize
    omega
  unfold readFrom
  cases hchunk : archive.readVerifiedTextChunk (secretScan lib) encoded offset maxBytes with
  | ok chunk => rw [(eq_of_readVerifiedTextChunk hchunk).1]
  | error e =>
    -- The one error that is left would be that of a chunk without a boundary.
    have hnever : archive.readVerifiedTextChunk (secretScan lib) encoded offset maxBytes ≠
        .error .contentChunkBoundaryUnavailable := readVerifiedTextChunk_ne_boundaryUnavailable
    refine absurd hchunk fun hchunk => hnever ?_
    unfold readVerifiedTextChunk at hchunk ⊢
    rw [if_neg hlt, if_neg hasked, hread] at hchunk ⊢
    simp only [hdecodes, hsecret, hcredential, hoffset.2, Nat.not_lt.mpr hoffset.1, if_false,
      Bool.not_true, Bool.false_eq_true] at hchunk ⊢
    split at hchunk
    · rename_i hempty
      rw [if_pos hempty]
    · cases hchunk

/-- What is left behind a boundary is a text. -/
theorem Boundary.decodes_drop (hencoded : Utf8.decodes encoded = true) {offset : ℕ}
    (hoffset : Boundary encoded offset) : Utf8.decodes (encoded.drop offset) = true := by
  rw [← Utf8.decodes_append hoffset.2, List.take_append_drop]
  exact hencoded

/-- **A chunk is a text**, and lies before what is left behind it. -/
theorem textChunk_spec (hencoded : Utf8.decodes encoded = true) {maxBytes offset : ℕ}
    (hsize : ChunkSize maxBytes) (hoffset : Boundary encoded offset) :
    let c := textChunk encoded offset maxBytes
    c.content.length ≤ maxBytes ∧ Utf8.decodes c.content = true ∧
      (c.nextByteOffset = none ↔ c.complete = true) ∧
      (c.nextByteOffset = none → c.content = encoded.drop offset) ∧
      ∀ next, c.nextByteOffset = some next → Boundary encoded next ∧ c.content ≠ [] ∧
        encoded.drop offset = c.content ++ encoded.drop next := by
  set rest := encoded.drop offset with hrest
  set count := Utf8.cut rest (min rest.length maxBytes) with hcount
  have hle : count ≤ min rest.length maxBytes := Utf8.cut_le _ _
  have hlength : rest.length = encoded.length - offset := List.length_drop
  have hdecodes : Utf8.decodes (rest.take count) = true := Utf8.decodes_cut _ _
  have hnext : (textChunk encoded offset maxBytes).nextByteOffset
      = if offset + count = encoded.length then none else some (offset + count) := by
    show (if decide (offset + count = encoded.length) = true then none else _) = _
    simp only [decide_eq_true_eq]
    rfl
  have hcomplete : (textChunk encoded offset maxBytes).complete = true
      ↔ offset + count = encoded.length := decide_eq_true_iff
  refine ⟨?_, hdecodes, ?_, fun hnone => ?_, fun next hsome => ?_⟩
  · show (rest.take count).length ≤ maxBytes
    rw [List.length_take]
    omega
  · rw [hnext, hcomplete]
    split <;> simp_all
  · -- The last chunk has all that is left.
    rw [hnext] at hnone
    split_ifs at hnone with hend
    show rest.take count = rest
    exact List.take_of_length_le (by omega)
  · rw [hnext] at hsome
    split_ifs at hsome with hend
    obtain rfl := Option.some.inj hsome
    have hboundary : encoded.take (offset + count) = encoded.take offset ++ rest.take count :=
      List.take_add
    have hpos : 0 < count := by
      have hne : rest ≠ [] := by
        intro hnil
        rw [hnil] at hlength hle
        obtain ⟨hoff, -⟩ := hoffset
        simp only [List.length_nil] at hlength hle
        omega
      exact Utf8.cut_pos (hoffset.decodes_drop hencoded) hne hsize.1
    refine ⟨⟨by have := hoffset.1; omega, ?_⟩, ?_, ?_⟩
    · rw [hboundary, Utf8.decodes_append hoffset.2]
      exact hdecodes
    · show rest.take count ≠ []
      rw [ne_eq, List.take_eq_nil_iff, not_or]
      refine ⟨by omega, fun hnil => ?_⟩
      rw [hnil, List.length_nil] at hle
      omega
    · show rest = rest.take count ++ encoded.drop (offset + count)
      rw [← List.drop_drop, ← hrest]
      exact (List.take_append_drop count rest).symm

/-! ## The whole text -/

/-- The chunks account for the text. -/
theorem accounts_of_readable (h : Archived lib archive encoded t) (hreadable : Readable lib t) :
    Paging.Accounts (readFrom lib archive encoded) VerifiedArtifactTextChunk.nextByteOffset
      VerifiedArtifactTextChunk.content ChunkSize (Boundary encoded) encoded.drop := by
  have hencoded : Utf8.decodes encoded = true := by
    rw [← Utf8.isSome_decode, h.decodes]
    rfl
  refine
    { reads := fun hsize hoffset => ⟨_, readFrom_of_readable h hreadable hsize hoffset⟩
      last := fun {maxBytes offset c} hsize hoffset hc hnone => ?_
      more := fun {maxBytes offset c next} hsize hoffset hc hsome => ?_ }
  · rw [readFrom_of_readable h hreadable hsize hoffset] at hc
    obtain rfl := Except.ok.inj hc
    exact (textChunk_spec hencoded hsize hoffset).2.2.2.1 hnone
  · rw [readFrom_of_readable h hreadable hsize hoffset] at hc
    obtain rfl := Except.ok.inj hc
    exact (textChunk_spec hencoded hsize hoffset).2.2.2.2 next hsome

/-- **A text whose scan returns is read without loss**, whatever sizes are asked for. -/
theorem exists_lossless (h : Archived lib archive encoded t) (hreadable : Readable lib t)
    {sizes : ℕ → ℕ} (hsizes : ∀ i, ChunkSize (sizes i)) :
    ∃ chunks, Lossless lib archive encoded sizes chunks := by
  have hencoded : Utf8.decodes encoded = true := by
    rw [← Utf8.isSome_decode, h.decodes]
    rfl
  have haccounts := accounts_of_readable h hreadable
  have hstart : Boundary encoded 0 := ⟨Nat.zero_le _, rfl⟩
  obtain ⟨chunks, hwalk, hbytes⟩ := haccounts.exists_walk hsizes hstart
  -- Each chunk is the one at the boundary where it was read.
  have hchunk : ∀ {i c}, chunks[i]? = some c → ∃ offset, Boundary encoded offset ∧
      c = textChunk encoded offset (sizes i) ∧ (c.nextByteOffset = none ↔ i + 1 = chunks.length) :=
    fun {i c} hc => by
      obtain ⟨⟨offset, hoffset, hread⟩, hlast⟩ := haccounts.of_walk hsizes hstart hwalk hc
      rw [readFrom_of_readable h hreadable (hsizes i) hoffset] at hread
      exact ⟨offset, hoffset, (Except.ok.inj hread).symm, hlast⟩
  refine ⟨chunks, hwalk, hbytes, fun i c hc => ?_, fun i c hc => ?_, fun i c next hc hnext => ?_⟩
  · obtain ⟨offset, hoffset, rfl, hlast⟩ := hchunk hc
    rw [← hlast]
    exact (textChunk_spec hencoded (hsizes i) hoffset).2.2.1.symm
  · obtain ⟨offset, hoffset, rfl, -⟩ := hchunk hc
    obtain ⟨hlength, hdecodes, -⟩ := textChunk_spec hencoded (hsizes i) hoffset
    exact ⟨hlength, hdecodes⟩
  · obtain ⟨offset, hoffset, rfl, -⟩ := hchunk hc
    obtain ⟨hboundary, hne, -⟩ := (textChunk_spec hencoded (hsizes i) hoffset).2.2.2.2 next hnext
    exact ⟨hne, hboundary⟩

/-- **No read of a text whose scan fails returns.** -/
theorem readFrom_of_not (h : Archived lib archive encoded t) (hnot : ¬ Readable lib t)
    {maxBytes offset : ℕ} (c : VerifiedArtifactTextChunk) :
    readFrom lib archive encoded maxBytes offset ≠ .ok c := by
  intro hc
  obtain ⟨e, he⟩ := scan_of_not hnot
  have hread := (eq_of_readVerifiedTextChunk hc).2.2
  unfold readFrom readVerifiedTextChunk at hc
  rw [hread] at hc
  dsimp only at hc
  rw [secretScan_of_decode h.decodes, he] at hc
  split_ifs at hc

/-- **An archived text can be read to its end without loss exactly if the scan for
credentials returns.** -/
theorem reads_all_iff (lib : Library) (archive : ArtifactArchive) (encoded : Bytes) (t : Text)
    (h : Archived lib archive encoded t) :
    (∀ sizes : ℕ → ℕ, (∀ i, ChunkSize (sizes i)) →
      ∃ chunks, Lossless lib archive encoded sizes chunks) ↔ Readable lib t := by
  constructor
  · intro hall
    by_contra hnot
    obtain ⟨chunks, hlossless⟩ := hall (fun _ => 4) fun _ => ⟨Nat.le_refl 4, by decide⟩
    cases hlossless.walk with
    | last hread _ => exact readFrom_of_not h hnot _ hread
    | more hread _ _ => exact readFrom_of_not h hnot _ hread
  · exact fun hreadable sizes hsizes => exists_lossless h hreadable hsizes

/-- Three characters of one, two and three bytes. -/
def sampleText : Text := Text.ofString "aé€"

theorem archived_sampleText :
    Archived asciiLibrary some (sampleText.flatMap Utf8.encodeChar) sampleText :=
  ⟨rfl, by decide, by decide, by decide, by decide⟩

/-- The text is read. -/
theorem reads_all_iff_sampleText :
    ∃ chunks, Lossless asciiLibrary some (sampleText.flatMap Utf8.encodeChar) (fun _ => 4)
      chunks :=
  (reads_all_iff asciiLibrary some _ sampleText archived_sampleText).mpr
    (readable_iff.mpr ⟨false, by decide⟩) (fun _ => 4) fun _ => ⟨Nat.le_refl 4, by decide⟩

/-- **A text with an address in brackets at its end cannot be read**, though no secret and no
credential is found in it. -/
theorem bracketedAddress_unreadable :
    Archived asciiLibrary some (bracketedAddress.flatMap Utf8.encodeChar) bracketedAddress ∧
      ∀ sizes chunks, ¬ Lossless asciiLibrary some (bracketedAddress.flatMap Utf8.encodeChar)
        sizes chunks := by
  have harchived : Archived asciiLibrary some (bracketedAddress.flatMap Utf8.encodeChar)
      bracketedAddress := ⟨rfl, by decide, by decide, by decide, by decide⟩
  have hnot : ¬ Readable asciiLibrary bracketedAddress := by
    rw [readable_iff]
    rintro ⟨b, hb⟩
    have hscan : containsGenericCredentialText asciiLibrary bracketedAddress
        = .error .invalidIpv6Url := by decide
    rw [hscan] at hb
    cases hb
  refine ⟨harchived, fun sizes chunks hlossless => ?_⟩
  cases hlossless.walk with
  | last hread _ => exact readFrom_of_not harchived hnot _ hread
  | more hread _ _ => exact readFrom_of_not harchived hnot _ hread

end ArtifactArchive
