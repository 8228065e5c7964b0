import OpenCAO.Models
import OpenCAO.Rows
import OpenCAO.Urls
import OpenCAO.Utf8
import Mathlib.Order.Nat

/-!
# Captured Worker output

What a provider says while it works on a delivery is captured: one *stream*
for the dispatch of a delivery, one *receipt* for each item of the stream and
one for its end. The text of an item is kept in a private archive under its
digest, and a receipt holds the digest only. Text is read back in chunks that
are verified against the digest and cut between characters.

Identifiers of streams and receipts, and the digests of events and contents, are
hashes of what they identify. Hashes of different values are taken to
differ, so each of them *is* its value here; a file in the archive is damaged if
it is not the content it is kept under.
-/

/-- The UTF-8 of a text. -/
abbrev Bytes := List UInt8
/-- The digest of a content is the content. -/
abbrev ContentDigest := Bytes

/-- `ARTIFACT_CONTENT_MAX_BYTES`. -/
def artifactContentMaxBytes : ℕ := 1024 * 1024
/-- `ARTIFACT_CONTENT_CHUNK_MAX_BYTES`. -/
def artifactContentChunkMaxBytes : ℕ := 64 * 1024

/-! ## The archive -/

/-- Why a content cannot be read: the code of an `ArtifactPreservationProviderError`, or a
`ValueError` that the scan for credentials did not catch. -/
inductive ArtifactPreservationError where
  | contentOffsetOutOfRange
  | contentChunkSizeInvalid
  | archiveUnavailable
  | contentTooLarge
  | archiveDigestMismatch
  | contentNotUtf8
  | contentContainsControlPlaneSecret
  | contentContainsGenericCredential
  | contentOffsetNotUtf8Boundary
  | contentChunkBoundaryUnavailable
  | valueError (e : ValueError)
  deriving DecidableEq, Repr

/-- **`VerifiedArtifactTextChunk`**. -/
structure VerifiedArtifactTextChunk where
  content : Bytes
  byteOffset : ℕ
  byteCount : ℕ
  totalBytes : ℕ
  nextByteOffset : Option ℕ
  complete : Bool
  deriving DecidableEq, Repr

/-- What may not leave the archive: `contains_control_plane_secret` and
`contains_generic_credential_text`. The second takes URLs apart, and may fail. -/
structure SecretScan where
  containsControlPlaneSecret : Bytes → Bool
  containsGenericCredentialText : Bytes → Except ValueError Bool

/-- **The archive**: the file kept under a digest, where it can be opened. -/
abbrev ArtifactArchive := ContentDigest → Option Bytes

namespace ArtifactArchive

/-- `_read_staged_archive_bounded`. -/
def readStagedArchiveBounded (archive : ArtifactArchive) (digest : ContentDigest) :
    Except ArtifactPreservationError Bytes :=
  match archive digest with
  | none => .error .archiveUnavailable
  | some content =>
    if artifactContentMaxBytes < content.length then .error .contentTooLarge
    else if content ≠ digest then .error .archiveDigestMismatch
    else .ok content

/-- The chunk of a content at an offset. -/
def textChunk (encoded : Bytes) (byteOffset maxBytes : ℕ) : VerifiedArtifactTextChunk :=
  let rest := encoded.drop byteOffset
  -- The end goes back from `maxBytes` until the chunk decodes.
  let byteCount := Utf8.cut rest (min rest.length maxBytes)
  let complete : Bool := byteOffset + byteCount = encoded.length
  { content := rest.take byteCount
    byteOffset := byteOffset
    byteCount := byteCount
    totalBytes := encoded.length
    nextByteOffset := if complete then none else some (byteOffset + byteCount)
    complete := complete }

/-- **`read_verified_text_chunk`**. -/
def readVerifiedTextChunk (secrets : SecretScan) (archive : ArtifactArchive)
    (digest : ContentDigest) (byteOffset maxBytes : ℕ) :
    Except ArtifactPreservationError VerifiedArtifactTextChunk :=
  if artifactContentMaxBytes < byteOffset then .error .contentOffsetOutOfRange
  else if maxBytes < 4 ∨ artifactContentChunkMaxBytes < maxBytes then
    .error .contentChunkSizeInvalid
  else
    match archive.readStagedArchiveBounded digest with
    | .error e => .error e
    | .ok encoded =>
      if !Utf8.decodes encoded then .error .contentNotUtf8
      else if secrets.containsControlPlaneSecret encoded then
        .error .contentContainsControlPlaneSecret
      else
        match secrets.containsGenericCredentialText encoded with
        | .error e => .error (.valueError e)
        | .ok true => .error .contentContainsGenericCredential
        | .ok false =>
          if encoded.length < byteOffset then .error .contentOffsetOutOfRange
          else if !Utf8.decodes (encoded.take byteOffset) then
            .error .contentOffsetNotUtf8Boundary
          else
            let chunk := textChunk encoded byteOffset maxBytes
            if chunk.byteCount = 0 ∧ byteOffset < encoded.length then
              .error .contentChunkBoundaryUnavailable
            else .ok chunk

variable {secrets : SecretScan} {archive : ArtifactArchive} {digest : ContentDigest}
  {byteOffset maxBytes : ℕ}

theorem eq_of_readStagedArchiveBounded {content : Bytes}
    (h : archive.readStagedArchiveBounded digest = .ok content) : content = digest := by
  unfold readStagedArchiveBounded at h
  split at h
  · cases h
  · split at h
    · cases h
    · split at h
      · cases h
      · rename_i hdigest
        obtain rfl := Except.ok.inj h
        exact not_not.mp hdigest

/-- **What a read answers**: the chunk of the digested content, at an offset in it. -/
theorem eq_of_readVerifiedTextChunk {chunk : VerifiedArtifactTextChunk}
    (h : readVerifiedTextChunk secrets archive digest byteOffset maxBytes = .ok chunk) :
    chunk = textChunk digest byteOffset maxBytes ∧ byteOffset ≤ digest.length ∧
      archive.readStagedArchiveBounded digest = .ok digest := by
  unfold readVerifiedTextChunk at h
  split at h
  · cases h
  · split at h
    · cases h
    · split at h
      · cases h
      · rename_i encoded hread
        obtain rfl := eq_of_readStagedArchiveBounded hread
        dsimp only at h
        split at h
        · cases h
        split at h
        · cases h
        split at h
        · cases h
        · cases h
        split at h
        · cases h
        rename_i hlength
        split_ifs at h with hboundary hempty
        exact ⟨(Except.ok.inj h).symm, not_lt.mp hlength, hread⟩

/-- A chunk lies in its content. -/
theorem textChunk_le {encoded : Bytes} (h : byteOffset ≤ encoded.length) :
    (textChunk encoded byteOffset maxBytes).byteOffset +
      (textChunk encoded byteOffset maxBytes).byteCount ≤ encoded.length := by
  show byteOffset + Utf8.cut _ _ ≤ _
  have hcut := Utf8.cut_le (encoded.drop byteOffset)
    (min (encoded.drop byteOffset).length maxBytes)
  have hrest : (encoded.drop byteOffset).length = encoded.length - byteOffset :=
    List.length_drop
  omega

/-- **A chunk advances**: the error for a chunk without a boundary is never raised. -/
theorem readVerifiedTextChunk_ne_boundaryUnavailable :
    readVerifiedTextChunk secrets archive digest byteOffset maxBytes ≠
      .error .contentChunkBoundaryUnavailable := by
  intro h
  unfold readVerifiedTextChunk at h
  split at h
  · cases h
  · split at h
    · cases h
    · rename_i hsize
      split at h
      · rename_i e hread
        obtain rfl := Except.error.inj h
        unfold readStagedArchiveBounded at hread
        split at hread
        · cases hread
        · split_ifs at hread <;> cases hread
      · rename_i encoded hread
        split at h
        · cases h
        rename_i hutf8
        split at h
        · cases h
        split at h
        · cases h
        · cases h
        split at h
        · cases h
        split at h
        · cases h
        rename_i hboundary
        dsimp only at h
        split at h
        · rename_i hempty
          -- What is left is a text, and four bytes hold its first character.
          have hrest : Utf8.decodes (encoded.drop byteOffset) = true := by
            have hfront : Utf8.decodes (encoded.take byteOffset) = true := by simpa using hboundary
            rw [← Utf8.decodes_append hfront, List.take_append_drop]
            simpa using hutf8
          obtain ⟨hzero, hlt⟩ := hempty
          have hne : encoded.drop byteOffset ≠ [] := by
            rw [ne_eq, List.drop_eq_nil_iff]
            omega
          have hpos := Utf8.cut_pos hrest hne (n := maxBytes) (by omega)
          exact absurd hzero hpos.ne'
        · cases h

end ArtifactArchive

/-! ## Streams and receipts -/

/-- The identifier of a stream. -/
structure OutputStreamId where
  runtimeId : RuntimeId
  deliveryMessageId : MessageId
  deliveryGeneration : ℕ
  deriving DecidableEq, Repr

/-- What a provider reports. -/
inductive OutputEventKind where
  | message | turnEnd
  deriving DecidableEq, Repr

/-- What an item is of its turn. -/
inductive OutputPhase where
  | commentary | final | unspecified
  deriving DecidableEq, Repr

/-- How a turn stands. -/
inductive TurnStatus where
  | running | completed | failed | interrupted
  deriving DecidableEq, Repr

/-- What was captured of an item; `inPart` is the state `partial`. -/
inductive CaptureState where
  | available | empty | inPart | withheld | unavailable
  deriving DecidableEq, Repr

/-- **`WorkerOutputEvent`**. -/
structure WorkerOutputEvent where
  nativeThreadId : String
  turnId : String
  itemId : String
  kind : OutputEventKind
  text : Bytes
  phase : OutputPhase
  status : TurnStatus
  complete : Bool
  deriving DecidableEq, Repr

/-- The identifier of a receipt. -/
inductive OutputId where
  | message (streamId : OutputStreamId) (itemId : String)
  | terminal (streamId : OutputStreamId)
  deriving DecidableEq, Repr

/-- What a receipt is of: an event, or a capture that was interrupted. -/
inductive OutputEventDigest where
  | event (event : WorkerOutputEvent)
  | captureInterrupted (streamId : OutputStreamId)
  deriving DecidableEq, Repr

/-- **A row of `worker_output_receipts`**. The table is kept in the order of its
sequence. -/
structure OutputReceipt where
  id : OutputId
  streamId : OutputStreamId
  workItemId : WorkId
  attemptId : RowId
  eventKind : OutputEventKind
  phase : OutputPhase
  turnStatus : TurnStatus
  captureState : CaptureState
  contentDigest : ContentDigest
  byteCount : ℕ
  complete : Bool
  eventDigest : OutputEventDigest
  notificationMessageId : Option WorkMessageId
  boundaryId : Option BoundaryId
  deriving DecidableEq, Repr

/-- What a receipt holds of a text. -/
structure CapturedContent where
  captureState : CaptureState
  contentDigest : ContentDigest
  complete : Bool
  deriving DecidableEq, Repr

/-- **What is captured of an event**, where the archive takes the content or not. Of a
text that is too long, the characters are kept that fit. -/
def capturedContent (secrets : SecretScan) (staged : Bool) (event : WorkerOutputEvent) :
    Except ValueError CapturedContent := do
  let raw := event.text
  let complete := event.complete && raw.length ≤ artifactContentMaxBytes
  let content := raw.take (Utf8.cut raw (min raw.length artifactContentMaxBytes))
  let withheld ← if secrets.containsControlPlaneSecret raw then .ok true
    else secrets.containsGenericCredentialText raw
  if withheld then .ok ⟨.withheld, [], false⟩
  else if content ≠ [] ∧ staged = false then .ok ⟨.unavailable, [], false⟩
  else
    .ok ⟨if raw = [] then .empty else if complete then .available else .inPart, content, complete⟩

/-- A receipt with the content that was captured. -/
def OutputReceipt.withContent (row : OutputReceipt) (content : CapturedContent) : OutputReceipt :=
  { row with
    captureState := content.captureState
    contentDigest := content.contentDigest
    byteCount := content.contentDigest.length
    complete := content.complete }

/-- Nothing was captured of the end of a turn that was lost. -/
def CapturedContent.interrupted : CapturedContent := ⟨.unavailable, [], false⟩
