import OpenCAO.Spans
import OpenCAO.TransitionSystem
import OpenCAO.WorkerOutput

/-!
# Reviewing captured output

The CAO reviews what a Worker said by reading it: `read_output` answers a
chunk of one receipt and writes down, in the same transaction, which bytes it
answered to whom. An approval is then refused unless the reads on record
cover every text of the turn. The gate joins the records to the receipts of
the stream by the digest, so a text that was said twice has to be read once,
and it takes the records of the same conversation generation only.

The list `served` is history, not a table: it records what calls of
`read_output` returned. That the gate opens exactly where these returned
every byte is `OutputReviews.review_gate`.
-/

/-- **The caller** of a read or a review. -/
structure OutputActor where
  id : PrincipalId
  role : PrincipalRole
  attachmentId : Option AttachmentId
  attachmentGeneration : Option ℕ
  conversationCredential : Bool
  runtimeCredential : Bool
  /-- Whether the credential is still the current one. -/
  current : Bool
  deriving DecidableEq, Repr

/-- **`WorkerOutputReadInput`**. -/
structure WorkerOutputReadInput where
  workItemId : WorkId
  attemptId : RowId
  outputId : OutputId
  expectedDigest : ContentDigest
  byteOffset : ℕ
  maxBytes : ℕ
  idempotencyKey : String
  deriving DecidableEq, Repr

/-- **What a read writes down**: the data of an event `worker_output.read`. -/
structure OutputReadAudit where
  outputId : OutputId
  digest : ContentDigest
  byteOffset : ℕ
  byteCount : ℕ
  totalBytes : ℕ
  supervisorAttachmentId : AttachmentId
  supervisorAttachmentGeneration : ℕ
  complete : Bool
  /-- The digest of the request, of the attachment and of its generation. -/
  requestDigest : WorkerOutputReadInput × AttachmentId × ℕ
  /-- The digest of the caller, of the attachment and of the key. -/
  idempotencyKeyDigest : PrincipalId × AttachmentId × String
  deriving DecidableEq, Repr

/-- An event `worker_output.read`. -/
structure OutputReadEvent where
  sequence : ℕ
  actorId : PrincipalId
  audit : OutputReadAudit
  deriving DecidableEq, Repr

/-- Why a read is refused. -/
inductive OutputReadError where
  | roleNotPermitted
  | attachmentRequired
  | attachmentNotCurrent
  | notFound
  | unavailableOrMismatch
  | idempotencyKeyReused
  | notVerified (reason : ArtifactPreservationError)
  | auditMismatch
  deriving DecidableEq, Repr

/-- Why an approval is refused. -/
inductive OutputReviewError where
  | turnNotComplete
  | captureIncomplete
  | noFinalOutput
  | notReadCompletely
  | noLongerVerifiable (reason : ArtifactPreservationError)
  deriving DecidableEq, Repr

/-- **The tables** of reads and reviews, with the archive and the attachment that
supervises each Work. -/
structure OutputStore where
  receipts : List OutputReceipt
  reads : List OutputReadEvent
  lastSequence : ℕ
  archive : ArtifactArchive
  supervisorAttachmentId : WorkId → Option AttachmentId

/-- What `read_output` returns. -/
structure OutputReadResult where
  receipt : OutputReceipt
  chunk : VerifiedArtifactTextChunk
  auditEventSequence : ℕ
  deriving DecidableEq, Repr

namespace OutputStore

variable (secrets : SecretScan)

/-- The receipt a request names, where the caller's attachment supervises its Work. -/
def selectReceipt (s : OutputStore) (attachmentId : AttachmentId)
    (request : WorkerOutputReadInput) : Option OutputReceipt :=
  s.receipts.find? fun o => o.id = request.outputId && o.workItemId = request.workItemId &&
    o.attemptId = request.attemptId && s.supervisorAttachmentId o.workItemId = some attachmentId

/-- The record of a chunk that was answered. -/
def readAudit (actor : OutputActor) (attachmentId : AttachmentId) (generation : ℕ)
    (request : WorkerOutputReadInput) (chunk : VerifiedArtifactTextChunk) : OutputReadAudit where
  outputId := request.outputId
  digest := request.expectedDigest
  byteOffset := chunk.byteOffset
  byteCount := chunk.byteCount
  totalBytes := chunk.totalBytes
  supervisorAttachmentId := attachmentId
  supervisorAttachmentGeneration := generation
  complete := chunk.complete
  requestDigest := (request, attachmentId, generation)
  idempotencyKeyDigest := (actor.id, attachmentId, request.idempotencyKey)

/-- The record of an earlier read with the same key. -/
def priorRead (s : OutputStore) (actor : OutputActor) (attachmentId : AttachmentId)
    (request : WorkerOutputReadInput) : Option OutputReadEvent :=
  s.reads.find? fun e => e.actorId = actor.id &&
    e.audit.idempotencyKeyDigest = (actor.id, attachmentId, request.idempotencyKey)

/-- **`read_output`**. -/
def readOutput (actor : OutputActor) (request : WorkerOutputReadInput) (s : OutputStore) :
    Except OutputReadError (OutputReadResult × OutputStore) :=
  if actor.role ≠ .cao then .error .roleNotPermitted
  else
    match actor.attachmentId.filter fun _ => actor.conversationCredential || actor.runtimeCredential
    with
    | none => .error .attachmentRequired
    | some attachmentId =>
      match actor.attachmentGeneration.filter fun _ => actor.current with
      | none => .error .attachmentNotCurrent
      | some generation =>
        match s.selectReceipt attachmentId request with
        | none => .error .notFound
        | some row =>
          if (row.captureState ≠ .available ∧ row.captureState ≠ .inPart) ∨
              row.contentDigest ≠ request.expectedDigest then
            .error .unavailableOrMismatch
          else
            let prior := s.priorRead actor attachmentId request
            if prior.any (·.audit.requestDigest ≠ (request, attachmentId, generation)) then
              .error .idempotencyKeyReused
            else
              match s.archive.readVerifiedTextChunk secrets request.expectedDigest
                  request.byteOffset request.maxBytes with
              | .error reason => .error (.notVerified reason)
              | .ok chunk =>
                let audit := readAudit actor attachmentId generation request chunk
                match prior with
                | some e =>
                  if e.audit ≠ audit then .error .auditMismatch
                  else .ok (⟨row, chunk, e.sequence⟩, s)
                | none =>
                  .ok (⟨row, chunk, s.lastSequence + 1⟩, { s with
                    reads := s.reads ++ [⟨s.lastSequence + 1, actor.id, audit⟩]
                    lastSequence := s.lastSequence + 1 })

/-! ## The gate -/

/-- The end of the turn a Boundary is about. -/
def terminalOf (s : OutputStore) (boundaryId : BoundaryId) : Option OutputReceipt :=
  (s.receipts.filter fun o => o.boundaryId = some boundaryId && o.eventKind = .turnEnd).getLast?

/-- A receipt that makes its stream incomplete. -/
def incomplete (o : OutputReceipt) : Bool :=
  !o.complete || o.captureState = .inPart || o.captureState = .withheld ||
    o.captureState = .unavailable

/-- The texts to be reviewed of a stream. -/
def reviewedOutputs (s : OutputStore) (streamId : OutputStreamId) : List OutputReceipt :=
  s.receipts.filter fun o => o.streamId = streamId && o.captureState = .available &&
    (o.phase = .final || o.phase = .unspecified)

/-- The reads on record of a text of a stream, by a caller. A column compared with
`NULL` is never equal. -/
def readsOf (s : OutputStore) (actor : OutputActor) (streamId : OutputStreamId)
    (digest : ContentDigest) : List OutputReadEvent :=
  s.reads.filter fun e => e.actorId = actor.id &&
    s.receipts.any (fun o => o.id = e.audit.outputId && o.streamId = streamId &&
      o.contentDigest = digest && e.audit.digest = o.contentDigest) &&
    some e.audit.supervisorAttachmentId = actor.attachmentId &&
    some e.audit.supervisorAttachmentGeneration = actor.attachmentGeneration

/-- The bytes a read answered. -/
def span (e : OutputReadEvent) : ℕ × ℕ :=
  (e.audit.byteOffset, e.audit.byteOffset + e.audit.byteCount)

/-- The loop over the texts, with the digests that were verified. -/
def verifyOutputs (s : OutputStore) (actor : OutputActor) (streamId : OutputStreamId) :
    List OutputReceipt → List ContentDigest → Except OutputReviewError Unit
  | [], _ => .ok ()
  | output :: outputs, verified =>
    if output.contentDigest ∈ verified then verifyOutputs s actor streamId outputs verified
    else
      let spans := (s.readsOf actor streamId output.contentDigest).map span
      if Spans.sweep 0 (Spans.sorted spans) ≠ output.byteCount then .error .notReadCompletely
      else
        match s.archive.readVerifiedTextChunk secrets output.contentDigest 0 4 with
        | .error reason => .error (.noLongerVerifiable reason)
        | .ok _ => verifyOutputs s actor streamId outputs (output.contentDigest :: verified)

/-- **`require_reviewable_output_tx`**. -/
def requireReviewableOutput (actor : OutputActor) (boundaryId : BoundaryId) (s : OutputStore) :
    Except OutputReviewError OutputReceipt :=
  match s.terminalOf boundaryId with
  | none => .error .turnNotComplete
  | some terminal =>
    if terminal.turnStatus ≠ .completed ∨ terminal.complete = false then .error .turnNotComplete
    else if s.receipts.any fun o => o.streamId = terminal.streamId && incomplete o then
      .error .captureIncomplete
    else
      let outputs := s.reviewedOutputs terminal.streamId
      if outputs = [] then .error .noFinalOutput
      else
        match verifyOutputs secrets s actor terminal.streamId outputs [] with
        | .error e => .error e
        | .ok () => .ok terminal

end OutputStore

/-! ## The system -/

/-- The bytes of a text that a call returned, and to whom. -/
structure ServedRange where
  actorId : PrincipalId
  attachmentId : AttachmentId
  attachmentGeneration : ℕ
  outputId : OutputId
  digest : ContentDigest
  start : ℕ
  stop : ℕ
  deriving DecidableEq, Repr

/-- **The state of the reviews**: the tables, and what was returned. -/
structure OutputReviews where
  store : OutputStore
  served : List ServedRange

namespace OutputReviews

open OutputStore

variable (secrets : SecretScan)

/-- **The events.** -/
inductive Event where
  /-- An item of a stream is captured. -/
  | capture (row : OutputReceipt) (event : WorkerOutputEvent) (staged : Bool)
  /-- A stream that was lost is closed. -/
  | interrupt (row : OutputReceipt)
  /-- A receipt is linked to the Boundary and the notification of its turn. -/
  | settle (id : OutputId) (notificationMessageId : Option WorkMessageId)
      (boundaryId : Option BoundaryId)
  /-- Files of the archive are lost or damaged. -/
  | disturb (archive : ArtifactArchive)
  /-- Works get other supervising conversations. -/
  | supervise (supervisorAttachmentId : WorkId → Option AttachmentId)
  /-- `read_output` is called. -/
  | read (actor : OutputActor) (request : WorkerOutputReadInput)

/-- What a call returned. -/
def servedRange (actor : OutputActor) (request : WorkerOutputReadInput)
    (chunk : VerifiedArtifactTextChunk) : ServedRange where
  actorId := actor.id
  attachmentId := actor.attachmentId.getD 0
  attachmentGeneration := actor.attachmentGeneration.getD 0
  outputId := request.outputId
  digest := request.expectedDigest
  start := chunk.byteOffset
  stop := chunk.byteOffset + chunk.byteCount

/-- A receipt is inserted. Its identifier is unique. -/
def insertReceipt (s : OutputReviews) (row : OutputReceipt) : OutputReviews :=
  if s.store.receipts.any (·.id = row.id) then s
  else { s with store := { s.store with receipts := s.store.receipts ++ [row] } }

/-- **One step.** -/
def step (s : OutputReviews) : Event → Option OutputReviews
  | .capture row event staged =>
    match capturedContent secrets staged event with
    | .error _ => some s
    | .ok content =>
      let s := s.insertReceipt (row.withContent content)
      some { s with store := { s.store with
        archive :=
          if staged then Function.update s.store.archive content.contentDigest
            (some content.contentDigest)
          else s.store.archive } }
  | .interrupt row => some (s.insertReceipt (row.withContent .interrupted))
  | .settle id notificationMessageId boundaryId =>
    some { s with store := { s.store with
      receipts := Rows.update (·.id = id)
        (fun o => { o with notificationMessageId, boundaryId }) s.store.receipts } }
  | .disturb archive => some { s with store := { s.store with archive } }
  | .supervise supervisorAttachmentId =>
    some { s with store := { s.store with supervisorAttachmentId } }
  | .read actor request =>
    match s.store.readOutput secrets actor request with
    | .error _ => some s
    | .ok (result, store) =>
      some { store, served := servedRange actor request result.chunk :: s.served }

/-- Nothing was captured yet. -/
def Initial (s : OutputReviews) : Prop :=
  s.store.receipts = [] ∧ s.store.reads = [] ∧ s.served = []

/-- **The system of captures, reads and reviews.** -/
def system : TransitionSystem OutputReviews Event := .ofFunction Initial (step secrets)

/-! ## What is on record -/

variable {secrets}

/-- What a record says was returned. -/
def servedOf (e : OutputReadEvent) : ServedRange where
  actorId := e.actorId
  attachmentId := e.audit.supervisorAttachmentId
  attachmentGeneration := e.audit.supervisorAttachmentGeneration
  outputId := e.audit.outputId
  digest := e.audit.digest
  start := e.audit.byteOffset
  stop := e.audit.byteOffset + e.audit.byteCount

/-- **What a read that returns did**: it answered a chunk of the text it was asked for,
and the record of that is new, or was there. -/
theorem readOutput_cases {s s' : OutputStore} {actor : OutputActor}
    {request : WorkerOutputReadInput} {result : OutputReadResult}
    (h : s.readOutput secrets actor request = .ok (result, s')) :
    ∃ e, e.actorId = actor.id ∧ servedOf e = servedRange actor request result.chunk ∧
      e.audit.digest = request.expectedDigest ∧
      (∃ archive : ArtifactArchive, archive.readVerifiedTextChunk secrets request.expectedDigest
        request.byteOffset request.maxBytes = .ok result.chunk) ∧
      (s' = s ∧ e ∈ s.reads ∨
        s' = { s with reads := s.reads ++ [e], lastSequence := s.lastSequence + 1 }) := by
  unfold readOutput at h
  split at h
  · cases h
  · split at h
    · cases h
    · rename_i attachmentId hattachment
      split at h
      · cases h
      · rename_i generation hgeneration
        have hattachmentId : actor.attachmentId = some attachmentId :=
          (Option.filter_eq_some_iff.mp hattachment).1
        have hcurrent : actor.attachmentGeneration = some generation :=
          (Option.filter_eq_some_iff.mp hgeneration).1
        split at h
        · cases h
        · split at h
          · cases h
          · dsimp only at h
            split at h
            · cases h
            · split at h
              · cases h
              · rename_i chunk hread
                have hserved : ∀ sequence, servedOf ⟨sequence, actor.id,
                    readAudit actor attachmentId generation request chunk⟩ =
                      servedRange actor request chunk := by
                  intro sequence
                  unfold servedRange
                  rw [hattachmentId, hcurrent]
                  rfl
                split at h
                · rename_i e hprior
                  split at h
                  · cases h
                  · rename_i haudit
                    obtain ⟨rfl, rfl⟩ := Prod.mk.inj (Except.ok.inj h)
                    have haudit := not_not.mp haudit
                    have hmem := List.mem_of_find?_eq_some hprior
                    have hactor : e.actorId = actor.id := by
                      have := List.find?_some hprior
                      simp only [Bool.and_eq_true, decide_eq_true_eq] at this
                      exact this.1
                    refine ⟨e, hactor, ?_, by rw [haudit]; rfl, ⟨_, hread⟩, .inl ⟨rfl, hmem⟩⟩
                    rw [← hserved e.sequence, ← haudit, ← hactor]
                · obtain ⟨rfl, rfl⟩ := Prod.mk.inj (Except.ok.inj h)
                  exact ⟨_, rfl, hserved _, rfl, ⟨_, hread⟩, .inr rfl⟩

/-- **The invariant of the reviews.** -/
structure Inv (s : OutputReviews) : Prop where
  counted : ∀ o ∈ s.store.receipts, o.byteCount = o.contentDigest.length
  recorded : ∀ v, v ∈ s.served ↔ ∃ e ∈ s.store.reads, servedOf e = v
  bounded : ∀ e ∈ s.store.reads, (span e).2 ≤ e.audit.digest.length

theorem Inv.insertReceipt {s : OutputReviews} (h : Inv s) (row : OutputReceipt)
    (content : CapturedContent) : Inv (s.insertReceipt (row.withContent content)) := by
  unfold OutputReviews.insertReceipt
  split
  · exact h
  · refine { h with counted := fun o ho => ?_ }
    rcases List.mem_append.mp ho with hold | hnew
    · exact h.counted o hold
    · obtain rfl := List.mem_singleton.mp hnew
      rfl

theorem inv_of_step {s s' : OutputReviews} {e : Event} (h : Inv s)
    (hstep : s.step secrets e = some s') : Inv s' := by
  cases e with
  | capture row event staged =>
    simp only [step] at hstep
    split at hstep
    · obtain rfl := Option.some.inj hstep
      exact h
    · rename_i content _
      obtain rfl := Option.some.inj hstep
      have hinsert := h.insertReceipt row content
      exact { hinsert with }
  | interrupt row =>
    obtain rfl := Option.some.inj hstep
    exact h.insertReceipt row .interrupted
  | settle id notificationMessageId boundaryId =>
    obtain rfl := Option.some.inj hstep
    refine { h with counted := fun o ho => ?_ }
    obtain ⟨o₀, ho₀, rfl⟩ := Rows.mem_update.mp ho
    have hcounted := h.counted o₀ ho₀
    split <;> exact hcounted
  | disturb archive =>
    obtain rfl := Option.some.inj hstep
    exact { h with }
  | supervise supervisorAttachmentId =>
    obtain rfl := Option.some.inj hstep
    exact { h with }
  | read actor request =>
    unfold step at hstep
    dsimp only at hstep
    split at hstep
    · obtain rfl := Option.some.inj hstep
      exact h
    · rename_i result store hread
      obtain rfl := Option.some.inj hstep
      obtain ⟨e, hactor, hserved, hdigest, ⟨archive, hchunk⟩, hstore⟩ := readOutput_cases hread
      obtain ⟨heq, hoffset, -⟩ := ArtifactArchive.eq_of_readVerifiedTextChunk hchunk
      rcases hstore with ⟨rfl, hmem⟩ | rfl
      · -- The record was there, and says the same.
        refine { h with recorded := fun v => ?_ }
        show v ∈ _ :: s.served ↔ _
        rw [List.mem_cons, h.recorded v]
        constructor
        · rintro (rfl | hold)
          · exact ⟨e, hmem, hserved⟩
          · exact hold
        · exact .inr
      · refine ⟨h.counted, fun v => ?_, fun e' he' => ?_⟩
        · show v ∈ _ :: s.served ↔ ∃ e' ∈ s.store.reads ++ [e], _
          rw [List.mem_cons, h.recorded v]
          constructor
          · rintro (rfl | ⟨e', he', hv⟩)
            · exact ⟨e, by simp, hserved⟩
            · exact ⟨e', List.mem_append_left _ he', hv⟩
          · rintro ⟨e', he', rfl⟩
            rcases List.mem_append.mp he' with hold | hnew
            · exact .inr ⟨e', hold, rfl⟩
            · obtain rfl := List.mem_singleton.mp hnew
              exact .inl hserved
        · rcases List.mem_append.mp he' with hold | hnew
          · exact h.bounded e' hold
          · obtain rfl := List.mem_singleton.mp hnew
            show (servedOf e').stop ≤ _
            rw [hserved, hdigest]
            show result.chunk.byteOffset + result.chunk.byteCount ≤ _
            rw [heq]
            exact ArtifactArchive.textChunk_le hoffset

theorem inv_of_reachable {s : OutputReviews} (hs : (system secrets).Reachable s) : Inv s := by
  refine TransitionSystem.Reachable.invariant (T := system secrets) (fun s hinit => ?_)
    (fun _ _ _ _ h hstep => inv_of_step h hstep) hs
  obtain ⟨hreceipts, hreads, hserved⟩ := hinit
  constructor <;> simp [hreceipts, hreads, hserved]

/-! ## The gate opens where everything was read -/

/-- **A byte of a text of a stream was returned** to a caller, in the generation of the
conversation it is in. -/
def Served (s : OutputReviews) (actor : OutputActor) (streamId : OutputStreamId)
    (digest : ContentDigest) (i : ℕ) : Prop :=
  ∃ v ∈ s.served, v.actorId = actor.id ∧ some v.attachmentId = actor.attachmentId ∧
    some v.attachmentGeneration = actor.attachmentGeneration ∧ v.digest = digest ∧
    (∃ o ∈ s.store.receipts, o.id = v.outputId ∧ o.streamId = streamId ∧
      o.contentDigest = digest) ∧
    v.start ≤ i ∧ i < v.stop

theorem mem_readsOf {s : OutputStore} {actor : OutputActor} {streamId : OutputStreamId}
    {digest : ContentDigest} {e : OutputReadEvent} :
    e ∈ s.readsOf actor streamId digest ↔ e ∈ s.reads ∧ e.actorId = actor.id ∧
      (∃ o ∈ s.receipts, o.id = e.audit.outputId ∧ o.streamId = streamId ∧
        o.contentDigest = digest ∧ e.audit.digest = o.contentDigest) ∧
      some e.audit.supervisorAttachmentId = actor.attachmentId ∧
      some e.audit.supervisorAttachmentGeneration = actor.attachmentGeneration := by
  simp [readsOf, and_assoc]

/-- The records of a text cover the bytes that were returned of it. -/
theorem covers_readsOf {s : OutputReviews} (h : Inv s) (actor : OutputActor)
    (streamId : OutputStreamId) (digest : ContentDigest) (i : ℕ) :
    Spans.Covers ((s.store.readsOf actor streamId digest).map span) i ↔
      Served s actor streamId digest i := by
  constructor
  · rintro ⟨p, hp, hle, hlt⟩
    obtain ⟨e, he, rfl⟩ := List.mem_map.mp hp
    obtain ⟨hmem, hactor, ⟨o, ho, hid, hstream, hdigest, heq⟩, hattachment, hgeneration⟩ :=
      mem_readsOf.mp he
    refine ⟨servedOf e, (h.recorded _).mpr ⟨e, hmem, rfl⟩, hactor, hattachment, hgeneration, ?_,
      ⟨o, ho, hid, hstream, hdigest⟩, hle, hlt⟩
    show e.audit.digest = digest
    rw [heq, hdigest]
  · rintro ⟨v, hv, hactor, hattachment, hgeneration, hdigest, ⟨o, ho, hid, hstream, hcontent⟩,
      hle, hlt⟩
    obtain ⟨e, he, rfl⟩ := (h.recorded v).mp hv
    refine ⟨span e, List.mem_map_of_mem (mem_readsOf.mpr ⟨he, hactor, ?_, hattachment, hgeneration⟩),
      hle, hlt⟩
    refine ⟨o, ho, hid, hstream, hcontent, ?_⟩
    rw [hcontent]
    exact hdigest

/-- **The sweep over the records** reaches the end of a text exactly where every byte of
it was returned. -/
theorem sweep_eq_iff_served {s : OutputReviews} (h : Inv s) (actor : OutputActor)
    (streamId : OutputStreamId) (digest : ContentDigest) :
    Spans.sweep 0 (Spans.sorted ((s.store.readsOf actor streamId digest).map span)) =
        digest.length ↔
      ∀ i, i < digest.length ↔ Served s actor streamId digest i := by
  rw [Spans.sweep_sorted_eq_iff fun p hp => ?_]
  · simp only [covers_readsOf h]
  · obtain ⟨e, he, rfl⟩ := List.mem_map.mp hp
    obtain ⟨hmem, -, ⟨o, -, -, -, hdigest, heq⟩, -⟩ := mem_readsOf.mp he
    have hbounded := h.bounded e hmem
    rw [heq, hdigest] at hbounded
    exact hbounded

/-- A text was returned in full and can still be verified. -/
def Verified (secrets : SecretScan) (s : OutputReviews) (actor : OutputActor)
    (streamId : OutputStreamId) (digest : ContentDigest) : Prop :=
  (∀ i, i < digest.length ↔ Served s actor streamId digest i) ∧
    ∃ chunk, s.store.archive.readVerifiedTextChunk secrets digest 0 4 = .ok chunk

/-- **The loop passes where each text is verified**, or has the digest of one that
was. -/
theorem verifyOutputs_eq_ok_iff {s : OutputReviews} (h : Inv s) (actor : OutputActor)
    (streamId : OutputStreamId) {outputs : List OutputReceipt} (verified : List ContentDigest)
    (hreceipts : ∀ o ∈ outputs, o ∈ s.store.receipts) :
    verifyOutputs secrets s.store actor streamId outputs verified = .ok () ↔
      ∀ o ∈ outputs, o.contentDigest ∈ verified ∨
        Verified secrets s actor streamId o.contentDigest := by
  induction outputs generalizing verified with
  | nil => simp [verifyOutputs]
  | cons output outputs ih =>
    have hrest : ∀ o ∈ outputs, o ∈ s.store.receipts :=
      fun o ho => hreceipts o (List.mem_cons_of_mem _ ho)
    have hcount := h.counted output (hreceipts output List.mem_cons_self)
    rw [List.forall_mem_cons]
    unfold verifyOutputs
    by_cases hverified : output.contentDigest ∈ verified
    · rw [if_pos hverified, ih verified hrest]
      simp [hverified]
    · rw [if_neg hverified]
      dsimp only
      rw [hcount]
      have hsweep := sweep_eq_iff_served h actor streamId output.contentDigest
      split
      · rename_i hgap
        simp only [reduceCtorEq, false_iff, not_and]
        rintro (hold | ⟨hserved, -⟩)
        · exact absurd hold hverified
        · exact absurd (hsweep.mpr hserved) hgap
      · rename_i hcovered
        have hserved := hsweep.mp (not_not.mp hcovered)
        split
        · rename_i hread
          simp only [reduceCtorEq, false_iff, not_and]
          rintro (hold | ⟨-, chunk, hok⟩)
          · exact absurd hold hverified
          · rw [hread] at hok
            cases hok
        · rename_i chunk hread
          have hfirst : Verified secrets s actor streamId output.contentDigest :=
            ⟨hserved, chunk, hread⟩
          rw [ih _ hrest]
          constructor
          · intro hall
            refine ⟨.inr hfirst, fun o ho => ?_⟩
            rcases hall o ho with hmem | hok
            · -- A text with the digest of this one is as good.
              rcases List.mem_cons.mp hmem with heq | hold
              · exact .inr (heq ▸ hfirst)
              · exact .inl hold
            · exact .inr hok
          · rintro ⟨-, hall⟩ o ho
            rcases hall o ho with hold | hok
            · exact .inl (List.mem_cons_of_mem _ hold)
            · exact .inr hok

/-- **What makes a turn reviewable**: it ended well and was captured whole, it has a
text, and each of its texts was returned to the reviewer in full and can
still be verified. -/
structure Reviewable (secrets : SecretScan) (s : OutputReviews) (actor : OutputActor)
    (boundaryId : BoundaryId) (terminal : OutputReceipt) : Prop where
  ended : s.store.terminalOf boundaryId = some terminal
  completed : terminal.turnStatus = .completed
  complete : terminal.complete = true
  captured : ∀ o ∈ s.store.receipts, o.streamId = terminal.streamId → incomplete o = false
  output : ∃ o, o ∈ s.store.reviewedOutputs terminal.streamId
  served : ∀ o ∈ s.store.reviewedOutputs terminal.streamId,
    ∀ i, i < o.byteCount ↔ Served s actor terminal.streamId o.contentDigest i
  verifies : ∀ o ∈ s.store.reviewedOutputs terminal.streamId,
    ∃ chunk, s.store.archive.readVerifiedTextChunk secrets o.contentDigest 0 4 = .ok chunk

/-- **The gate opens exactly where everything was read**: after any history of
captures, reads and losses, an approval is let through for a turn if, and
only if, the turn is complete and every byte of its texts was returned to the
reviewer in the present generation of the conversation. -/
theorem review_gate {s : OutputReviews} (hs : (system secrets).Reachable s) (actor : OutputActor)
    (boundaryId : BoundaryId) (terminal : OutputReceipt) :
    s.store.requireReviewableOutput secrets actor boundaryId = .ok terminal ↔
      Reviewable secrets s actor boundaryId terminal := by
  have h := inv_of_reachable hs
  have hreceipts : ∀ o ∈ s.store.reviewedOutputs terminal.streamId, o ∈ s.store.receipts :=
    fun o ho => List.mem_of_mem_filter ho
  have hloop : verifyOutputs secrets s.store actor terminal.streamId
      (s.store.reviewedOutputs terminal.streamId) [] = .ok () ↔ _ :=
    verifyOutputs_eq_ok_iff h actor terminal.streamId [] hreceipts
  constructor
  · intro hgate
    unfold requireReviewableOutput at hgate
    split at hgate
    · cases hgate
    · rename_i row hterminal
      split at hgate
      · cases hgate
      · rename_i hcompleted
        split at hgate
        · cases hgate
        · rename_i hcaptured
          dsimp only at hgate
          split at hgate
          · cases hgate
          · rename_i houtputs
            split at hgate
            · cases hgate
            · rename_i hverify
              obtain rfl := Except.ok.inj hgate
              have hall := hloop.mp hverify
              obtain ⟨hstatus, hcomplete⟩ := not_or.mp hcompleted
              constructor
              · exact hterminal
              · exact not_not.mp hstatus
              · simpa using hcomplete
              · intro o ho hstream
                by_contra hincomplete
                refine hcaptured (List.any_eq_true.mpr ⟨o, ho, ?_⟩)
                simpa [hstream] using hincomplete
              · exact List.exists_mem_of_ne_nil _ houtputs
              · intro o ho
                rw [h.counted o (hreceipts o ho)]
                exact ((hall o ho).resolve_left List.not_mem_nil).1
              · exact fun o ho => ((hall o ho).resolve_left List.not_mem_nil).2
  · intro hreviewable
    have hverify : verifyOutputs secrets s.store actor terminal.streamId
        (s.store.reviewedOutputs terminal.streamId) [] = .ok () := by
      refine hloop.mpr fun o ho => .inr ⟨?_, hreviewable.verifies o ho⟩
      rw [← h.counted o (hreceipts o ho)]
      exact hreviewable.served o ho
    have hcaptured : (s.store.receipts.any fun o =>
        o.streamId = terminal.streamId && incomplete o) = false := by
      rw [List.any_eq_false]
      intro o ho hboth
      simp only [Bool.and_eq_true, decide_eq_true_eq] at hboth
      rw [hreviewable.captured o ho hboth.1] at hboth
      cases hboth.2
    unfold requireReviewableOutput
    rw [hreviewable.ended]
    dsimp only
    rw [if_neg (by simp [hreviewable.completed, hreviewable.complete]), hcaptured,
      if_neg Bool.false_ne_true]
    obtain ⟨o, ho⟩ := hreviewable.output
    rw [if_neg (List.ne_nil_of_mem ho), hverify]

/-- Nothing in the texts below is secret. -/
def noSecrets : SecretScan := ⟨fun _ => false, fun _ => .ok false⟩

/-- The dispatch of the message `30` to the runtime `10`. -/
def answerStream : OutputStreamId := ⟨10, 30, 1⟩

/-- The reviewer, in generation `2` of the conversation `7`. -/
def reviewer : OutputActor := ⟨1, .cao, some 7, some 2, true, false, true⟩

/-- An answer of two characters. -/
def answer : OutputReceipt where
  id := .message answerStream "item-1"
  streamId := answerStream
  workItemId := 3
  attemptId := ⟨3, 0⟩
  eventKind := .message
  phase := .final
  turnStatus := .running
  captureState := .available
  contentDigest := [0x6F, 0x6B]
  byteCount := 2
  complete := true
  eventDigest := .event ⟨"thread", "turn", "item-1", .message, [0x6F, 0x6B], .final, .running, true⟩
  notificationMessageId := none
  boundaryId := none

/-- The end of the turn, linked to its Boundary. -/
def answerEnd : OutputReceipt where
  id := .terminal answerStream
  streamId := answerStream
  workItemId := 3
  attemptId := ⟨3, 0⟩
  eventKind := .turnEnd
  phase := .unspecified
  turnStatus := .completed
  captureState := .empty
  contentDigest := []
  byteCount := 0
  complete := true
  eventDigest := .event ⟨"thread", "turn", "", .turnEnd, [], .unspecified, .completed, true⟩
  notificationMessageId := some ⟨3, 5⟩
  boundaryId := some ⟨3, 1⟩

/-- The answer is captured, and read from its start. -/
def answering : List Event :=
  [.capture answer ⟨"thread", "turn", "item-1", .message, [0x6F, 0x6B], .final, .running, true⟩ true,
   .capture { answerEnd with boundaryId := none, notificationMessageId := none }
     ⟨"thread", "turn", "", .turnEnd, [], .unspecified, .completed, true⟩ true,
   .settle (.terminal answerStream) (some ⟨3, 5⟩) (some ⟨3, 1⟩),
   .supervise fun _ => some 7,
   .read reviewer ⟨3, ⟨3, 0⟩, .message answerStream "item-1", [0x6F, 0x6B], 0, 4, "read-1"⟩]

/-- The answer can be approved: both of its bytes were returned. -/
theorem answer_reviewable :
    ∃ s, s.store.requireReviewableOutput noSecrets reviewer ⟨3, 1⟩ = .ok answerEnd ∧
      Reviewable noSecrets s reviewer ⟨3, 1⟩ answerEnd := by
  have hstart : (system noSecrets).Reachable
      ⟨⟨[], [], 0, fun _ => none, fun _ => none⟩, []⟩ := .of_init ⟨rfl, rfl, rfl⟩
  obtain ⟨s, hs, hgate⟩ : ∃ s, (system noSecrets).Reachable s ∧
      s.store.requireReviewableOutput noSecrets reviewer ⟨3, 1⟩ = .ok answerEnd :=
    ⟨_, TransitionSystem.Reachable.replay answering hstart rfl, rfl⟩
  exact ⟨s, hgate, (review_gate hs reviewer ⟨3, 1⟩ answerEnd).mp hgate⟩

end OutputReviews
