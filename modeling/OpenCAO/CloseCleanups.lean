import Mathlib.Data.Finset.Card
import OpenCAO.EffectAuthority

/-!
# Prepared cleanups

Before a Work is closed, what its execution left on the machine is sealed as the
*inventory* of a close preparation: each record is either a target that is
enumerated – a workspace, a temporary directory, a log, a branch – or says that
a category has none. `execute_prepared_cleanup` removes the targets.

It does so in three phases. One transaction checks the authority of the caller,
preserves the artifacts, compares the inventory with the one that the
owner-private provider froze, and *reserves* an effect for every target: each
under a grant of its own, unless the grant is standing. The provider is then
entered, outside of any transaction, and may fail, or never return. A second
transaction *settles* the reserved effects by the receipts of the provider, and
marks the preparation as executed.

What a crash leaves is the reservation. A later call does not enter the provider
again; it *resumes*: once every reserved effect is known to have succeeded or not
to have been applied – which `resolve_effect` may have recorded in the meantime –
the preparation is marked as executed, and before that the call is refused.

The state is that of one close preparation, with the tables of effect authority,
the answers under idempotency keys, the calls in flight and the other callers
about effects. What a call reads elsewhere – the Work and its Attempt, the
authority of the CAO, the artifacts, the two providers – is whatever its
environment says, and may differ from call to call.
-/

/-! ## Rows -/

/-- **A record of a close inventory.** A text field that is missing or no text is
empty; `coverage` is `none` where the record has no such key. -/
structure InventoryItem where
  targetKind : String
  coverage : Option String
  targetFingerprint : String
  action : String
  executionDigest : String
  rest : String
  deriving DecidableEq, Repr

/-- What a cleanup effect is about: the kind, the fingerprint and the action. -/
abbrev CleanupTarget := String × String × String

/-- The target of a record. -/
def InventoryItem.target (i : InventoryItem) : CleanupTarget :=
  (i.targetKind, i.targetFingerprint, i.action)

/-- The record names a target. -/
def InventoryItem.Enumerated (i : InventoryItem) : Prop := i.coverage = some "enumerated"

instance (i : InventoryItem) : Decidable i.Enumerated := by
  unfold InventoryItem.Enumerated
  infer_instance

/-- The values of `CleanupTargetKind` that the owner-private edge enumerates. -/
def cleanupKinds : List String := ["workspace", "temporary", "log", "branch"]

/-- **The set that the owner-private edge froze** for a preparation. Its records
are built from the four categories. -/
structure FrozenInventory where
  records : List InventoryItem
  kinds : ∀ r ∈ records, r.targetKind ∈ cleanupKinds

/-- An item of the artifact manifest. -/
structure PreparedArtifact where
  id : String
  digest : String
  deriving DecidableEq, Repr

/-- A row of `artifacts`. -/
structure ArtifactRow where
  id : String
  digest : String
  uri : String
  deriving DecidableEq, Repr

/-- What the manifest says of an artifact. -/
def ArtifactRow.prepared (r : ArtifactRow) : PreparedArtifact := ⟨r.id, r.digest⟩

/-- What the digest of an execution is taken of: the attachment, with the
generation that the preparation sealed, and the preparation. -/
structure ExecutionRequest where
  attachmentId : AttachmentId
  attachmentGeneration : ℕ
  closePreparationId : ℕ
  deriving DecidableEq, Repr

/-- What `execute_prepared_cleanup` answers. -/
structure CleanupResult where
  closePreparationId : ℕ
  verifiedCleanupCount : ℕ
  artifactPreservations : List String
  deriving DecidableEq, Repr

/-- **A row of `work_close_preparations`.** A digest is what it is taken of; the
digest of the request is `none` where the column is empty, and the result is
`none` where it is the empty object. A JSON text that is no list is `none`, and
so is an item of the manifest that is not an object with an identifier and a
digest. -/
structure CleanupPreparation where
  id : ℕ
  workItemId : WorkId
  workGeneration : ℕ
  finalAttempt : ℕ
  goalVersion : ℕ
  goalPacketDigest : Digest
  taskPacketDigest : Digest
  supervisorAttachmentId : AttachmentId
  supervisorAttachmentGeneration : ℕ
  artifacts : Option (List (Option PreparedArtifact))
  artifactManifestScope : String
  inventory : Option (List InventoryItem)
  inventoryDigest : List InventoryItem
  artifactPreservations : List String
  artifactPreservationsDigest : List String
  cleanupExecutionRequestDigest : Option ExecutionRequest
  cleanupExecutionResult : Option CleanupResult
  cleanupExecutedAt : Option Instant
  deriving DecidableEq, Repr

/-- `ExecutePreparedCleanupInput`. -/
structure ExecutePreparedCleanupInput where
  closePreparationId : ℕ
  idempotencyKey : String
  deriving DecidableEq, Repr

/-- **A row of `idempotency_results`** for the operation
`execute_prepared_cleanup:` of an attachment. -/
structure CleanupAnswer where
  actorId : PrincipalId
  attachmentId : AttachmentId
  idempotencyKey : String
  requestDigest : AttachmentId × ExecutePreparedCleanupInput
  result : CleanupResult
  deriving DecidableEq, Repr

/-- The event `cleanup.owner_private_verified`. -/
structure CleanupVerification where
  operationId : EffectOperationId
  actorId : PrincipalId
  closePreparationId : ℕ
  executionDigest : String
  deriving DecidableEq, Repr

/-- A receipt of the provider. -/
structure CleanupReceipt where
  targetKind : String
  targetFingerprint : String
  action : String
  outcome : String
  providerEvidenceId : String
  executionDigest : String
  deriving DecidableEq, Repr

/-- The target of a receipt. -/
def CleanupReceipt.target (r : CleanupReceipt) : CleanupTarget :=
  (r.targetKind, r.targetFingerprint, r.action)

/-- **The tables of a cleanup**: those of effect authority, the preparation, and
what was answered and verified. -/
structure CleanupTables where
  effects : EffectLedger
  preparation : CleanupPreparation
  answers : List CleanupAnswer
  verifications : List CleanupVerification
  deriving DecidableEq, Repr

/-- A transaction on the tables of a cleanup. -/
abbrev CleanupTx := Tx CleanupTables EffectFailure

/-- The rows of `effect_operations` that the preparation is bound to. -/
def EffectOperation.OfPreparation (p : CleanupPreparation) (o : EffectOperation) : Prop :=
  o.cleanup.any (fun c => decide (c.preparationId = p.id ∧ c.workItemId = p.workItemId ∧
    c.generation = p.workGeneration)) = true

instance (p : CleanupPreparation) (o : EffectOperation) : Decidable (o.OfPreparation p) := by
  unfold EffectOperation.OfPreparation
  infer_instance

/-- The target of an operation. -/
def EffectOperation.cleanupTarget (o : EffectOperation) : CleanupTarget :=
  ((o.cleanup.map CleanupBinding.targetKind).getD "",
    (o.cleanup.map CleanupBinding.targetFingerprint).getD "", o.action)

/-- The effect was applied, or it was not: nothing is left to find out. -/
def EffectOperation.Settled (o : EffectOperation) : Prop :=
  o.status = .succeeded ∨ o.status = .notApplied

instance (o : EffectOperation) : Decidable o.Settled := by
  unfold EffectOperation.Settled
  infer_instance

/-- `WHERE id = ? AND status = 'started'`. -/
def EffectOperation.awaits (id : EffectOperationId) (o : EffectOperation) : Bool :=
  decide (o.id = id ∧ o.status = .started)

/-- `WHERE id = ? AND consumed_at IS NULL`. -/
def EffectGrant.unspentAs (id : EffectGrantId) (g : EffectGrant) : Bool :=
  decide (g.id = id ∧ g.consumedAt = none)

namespace CleanupTables

/-- The effects that were reserved for the preparation. -/
def operations (t : CleanupTables) : List EffectOperation :=
  t.effects.operations.filter fun o => decide (o.OfPreparation t.preparation)

/-- `SELECT … FROM idempotency_results`. -/
def answer? (t : CleanupTables) (actorId : PrincipalId) (attachmentId : AttachmentId)
    (key : String) : Option CleanupAnswer :=
  t.answers.find? fun a =>
    decide (a.actorId = actorId ∧ a.attachmentId = attachmentId ∧ a.idempotencyKey = key)

end CleanupTables

namespace CleanupPreparation

/-- The records of the inventory. -/
def records (p : CleanupPreparation) : List InventoryItem := p.inventory.getD []

/-- The records that the provider gave: `provider_inventory`. -/
def providerInventory (p : CleanupPreparation) : List InventoryItem :=
  p.records.filter fun i => i.coverage.isSome

/-- **The enumerated targets of the sealed inventory.** -/
def enumerated (p : CleanupPreparation) : List InventoryItem :=
  p.records.filter fun i => decide i.Enumerated

/-- The records whose targets are removed: `prepared_private`. -/
def preparedPrivate (p : CleanupPreparation) : List InventoryItem :=
  p.providerInventory.filter fun i => decide (i.Enumerated ∧ i.targetKind ∈ cleanupKinds)

/-- The execution that is sealed with the preparation. -/
def executionRequest (p : CleanupPreparation) (attachmentId : AttachmentId) : ExecutionRequest :=
  ⟨attachmentId, p.supervisorAttachmentGeneration, p.id⟩

/-- The preparation is the current one, and the caller's to execute. -/
def Current (p : CleanupPreparation) (attachmentId : AttachmentId) (attachmentGeneration : ℕ)
    (work : Work) (attempt : Attempt) : Prop :=
  p.workGeneration = work.generation ∧ p.supervisorAttachmentId = attachmentId ∧
    p.supervisorAttachmentGeneration ≤ attachmentGeneration ∧ p.finalAttempt = attempt.number ∧
    p.goalVersion = work.goalVersion ∧ p.goalPacketDigest = attempt.goalPacketDigest ∧
    p.taskPacketDigest = attempt.taskPacketDigest

instance (p : CleanupPreparation) (attachmentId : AttachmentId) (attachmentGeneration : ℕ)
    (work : Work) (attempt : Attempt) :
    Decidable (p.Current attachmentId attachmentGeneration work attempt) := by
  unfold Current
  infer_instance

/-- The request for the effect on a target. -/
def cleanupRequest (p : CleanupPreparation) (actor : Actor) (i : InventoryItem) :
    EffectCheckInput where
  principalId := actor.id
  kind := .destructive
  target := i.targetFingerprint
  action := i.action
  contentDigest := i.executionDigest
  argvDigest := ""
  workdirDigest := ""
  cleanup := some
    { workItemId := p.workItemId
      generation := p.workGeneration
      preparationId := p.id
      targetKind := i.targetKind
      targetFingerprint := i.targetFingerprint
      executionDigest := i.executionDigest }

end CleanupPreparation

/-- The pattern of `cleanup_execution_digest`: 64 hexadecimal digits. -/
def isExecutionDigest (s : String) : Bool :=
  s.toList.length = 64 && s.toList.all fun c => ('0' ≤ c && c ≤ '9') || ('a' ≤ c && c ≤ 'f')

/-! ## The environment of a call -/

/-- **What a call reads beside its tables**: the clock and the principals, new
random identifiers, the checks that look at other tables, the Work with its
latest Attempt, the artifacts, and what the two owner-private providers
answer. -/
structure CleanupEnv where
  effects : EffectEnv
  operationIds : ℕ → EffectOperationId
  /-- `_require_current_cao_attachment_actor_tx`. -/
  attachmentCurrent : Except ServiceError PUnit
  work : Option Work
  /-- `_authorize_work_actor`. -/
  workActor : Except ServiceError PUnit
  attempt : Option Attempt
  /-- `_require_accepted_work_close_authority_tx`. -/
  closeAuthority : Except ServiceError PUnit
  /-- `_require_work_close_runtime_terminal_tx`. -/
  runtimeTerminal : Except ServiceError PUnit
  /-- The artifacts of the Work, by identifier. -/
  artifactRows : List ArtifactRow
  /-- `_require_completion_delivery_ready_tx`. -/
  deliveryReady : Except ServiceError PUnit
  /-- `_completion_claim_artifact_rows_tx`. -/
  claimedRows : Option (List ArtifactRow)
  /-- Registering the artifacts and sealing their receipts; `none` is an
  `ArtifactPreservationProviderError`. -/
  preserve : List ArtifactRow → Option (List String)
  /-- `verify_public_receipt_set`. -/
  receiptsVerified : List String → Bool
  /-- The frozen set of the preparation, where it is there and valid. -/
  frozen : Option FrozenInventory

/-- `verify_public_inventory`: the public inventory is the frozen one. -/
def CleanupEnv.verifyPublicInventory (env : CleanupEnv) (items : List InventoryItem) : Bool :=
  env.frozen.any fun f => decide (f.records = items)

/-- **A call between its two transactions**, with its local variables. -/
structure CleanupCall where
  actor : Actor
  attachmentId : AttachmentId
  request : ExecutePreparedCleanupInput
  executionRequest : ExecutionRequest
  providerInventory : List InventoryItem
  operationRows : List EffectOperation
  preservationRows : List String
  /-- The provider has been entered. -/
  entered : Bool
  deriving DecidableEq, Repr

/-- What the first transaction ends with. -/
inductive CleanupOutcome where
  | answered (result : CleanupResult)
  | reserved (call : CleanupCall)
  deriving DecidableEq, Repr

/-! ## The transactions -/

section Programs

variable (fnmatchcase : String → String → Bool) (env : CleanupEnv) (actor : Actor)

/-- A conflict. -/
def cleanupConflict (message : String) : EffectFailure := .service (.conflict message)

/-- A check that looks at other tables. -/
def checkElsewhere (check : Except ServiceError PUnit) : CleanupTx PUnit :=
  match check with
  | .ok _ => pure ⟨⟩
  | .error e => throw (.service e)

/-- `_idempotent_get_tx`. -/
def cleanupAnswer (attachmentId : AttachmentId) (request : ExecutePreparedCleanupInput) :
    CleanupTx (Option CleanupResult) := do
  if request.idempotencyKey = "" then pure none
  else
    let t ← get
    match t.answer? actor.id attachmentId request.idempotencyKey with
    | none => pure none
    | some a => do
      Tx.require (a.requestDigest = (attachmentId, request))
        (cleanupConflict "idempotency key was reused with different command parameters")
      pure (some a.result)

/-- `_idempotent_put`. -/
def putCleanupAnswer (attachmentId : AttachmentId) (request : ExecutePreparedCleanupInput)
    (result : CleanupResult) : CleanupTx PUnit := do
  if request.idempotencyKey = "" then pure ⟨⟩
  else
    let t ← get
    match t.answer? actor.id attachmentId request.idempotencyKey with
    | none => set { t with
        answers :=
          ⟨actor.id, attachmentId, request.idempotencyKey, (attachmentId, request), result⟩ ::
            t.answers }
    | some a => Tx.require (a.requestDigest = (attachmentId, request)) (cleanupConflict
        "idempotency key was concurrently reused with different command parameters")

/-- Who may execute the cleanup, and of which Work. -/
def requireCleanupAuthority (attachmentId : AttachmentId) (request : ExecutePreparedCleanupInput) :
    CleanupTx Attempt := do
  checkElsewhere env.attachmentCurrent
  let t ← get
  Tx.require (request.closePreparationId = t.preparation.id)
    (EffectFailure.service (.notFound "close preparation"))
  let work ← Tx.need env.work (.raised (.runtimeError "close preparation work is missing"))
  checkElsewhere env.workActor
  let attempt ← Tx.need env.attempt (cleanupConflict "close preparation is stale")
  Tx.require (t.preparation.Current attachmentId actor.attachmentGeneration work attempt)
    (cleanupConflict "close preparation is stale")
  checkElsewhere env.closeAuthority
  checkElsewhere env.runtimeTerminal
  pure attempt

/-- The artifacts that the manifest has to name, by its scope. -/
def requiredArtifacts (scope : String) : CleanupTx (List PreparedArtifact) := do
  if scope = "final_completion_claim_v2" then
    checkElsewhere env.deliveryReady
    let rows ← Tx.need env.claimedRows
      (cleanupConflict "final completion artifact manifest is invalid")
    pure (rows.map ArtifactRow.prepared)
  else if scope = "work_history_v1" then pure (env.artifactRows.map ArtifactRow.prepared)
  else throw (cleanupConflict "stored close preparation is malformed")

/-- The artifacts of the manifest are the canonical ones, and are preserved. -/
def preserveArtifacts (p : CleanupPreparation) : CleanupTx (List String) := do
  Tx.require (p.inventory = some p.inventoryDigest)
    (cleanupConflict "stored close preparation is malformed")
  let items ← Tx.need p.artifacts (cleanupConflict "stored close preparation is malformed")
  let manifest := items.filterMap id
  Tx.require (manifest.toFinset.card = items.length)
    (cleanupConflict "stored close preparation is malformed")
  let canonical := env.artifactRows.filter fun r =>
    decide (r.id ∈ manifest.map PreparedArtifact.id)
  let required ← requiredArtifacts env p.artifactManifestScope
  Tx.require (manifest.toFinset = (canonical.map ArtifactRow.prepared).toFinset ∧
      manifest.toFinset = required.toFinset)
    (cleanupConflict "prepared artifact manifest no longer matches canonical state")
  let receipts ← Tx.need (env.preserve canonical)
    (cleanupConflict "canonical artifacts could not be preserved before cleanup")
  Tx.require (env.receiptsVerified receipts = true)
    (cleanupConflict "canonical artifact preservation receipt is unavailable")
  pure receipts

/-- A record that names a target is complete. -/
def requireComplete (i : InventoryItem) : CleanupTx PUnit := do
  Tx.require (i.action = "delete")
    (cleanupConflict "owner-private destructive cleanup requires the exact delete action")
  Tx.require (i.targetKind ≠ "" ∧ i.targetFingerprint ≠ "" ∧ i.action ≠ "" ∧
      i.executionDigest ≠ "")
    (cleanupConflict "stored close preparation is malformed")

/-- The inventory is the frozen one, and its targets can be removed. -/
def verifyInventory (p : CleanupPreparation) : CleanupTx PUnit := do
  Tx.require (env.verifyPublicInventory p.providerInventory = true)
    (cleanupConflict "owner-private cleanup inventory does not match its exact frozen set")
  Tx.each requireComplete p.preparedPrivate

/-- The answer of a preparation that has been executed. -/
def answerExecuted (attachmentId : AttachmentId) (request : ExecutePreparedCleanupInput) :
    CleanupTx CleanupOutcome := do
  let t ← get
  Tx.require (t.preparation.cleanupExecutionRequestDigest =
      some (t.preparation.executionRequest attachmentId))
    (cleanupConflict "cleanup preparation was already executed with another artifact manifest")
  -- the empty object where nothing was stored
  let result := t.preparation.cleanupExecutionResult.getD ⟨0, 0, []⟩
  putCleanupAnswer actor attachmentId request result
  pure (.answered result)

/-- The preparation is marked as executed. -/
def CleanupPreparation.execute (now : Instant) (result : CleanupResult) (p : CleanupPreparation) :
    CleanupPreparation :=
  { p with cleanupExecutionResult := some result, cleanupExecutedAt := some now }

/-- The preparation with the receipts of its artifacts. -/
def CleanupPreparation.preserved (receipts : List String) (p : CleanupPreparation) :
    CleanupPreparation :=
  { p with artifactPreservations := receipts, artifactPreservationsDigest := receipts }

/-- The preparation is bound to the request that reserved its effects. -/
def CleanupPreparation.reserve (receipts : List String) (request : ExecutionRequest)
    (p : CleanupPreparation) : CleanupPreparation :=
  { p.preserved receipts with cleanupExecutionRequestDigest := some request }

/-- **A reservation that is there already is resumed**: the preparation is executed
once every reserved effect is settled. -/
def resumeCleanup (attachmentId : AttachmentId) (request : ExecutePreparedCleanupInput)
    (receipts : List String) : CleanupTx CleanupOutcome := do
  let t ← get
  Tx.require (t.preparation.cleanupExecutionRequestDigest =
      some (t.preparation.executionRequest attachmentId))
    (cleanupConflict "cleanup preparation was already reserved with another artifact manifest")
  Tx.require ((t.operations.map EffectOperation.cleanupTarget).toFinset =
        (t.preparation.preparedPrivate.map InventoryItem.target).toFinset ∧
      ∀ o ∈ t.operations, o.Settled)
    (cleanupConflict "cleanup execution has an unresolved outcome and cannot be replayed")
  let result : CleanupResult := ⟨t.preparation.id, t.operations.length, receipts⟩
  Tx.when (t.preparation.cleanupExecutedAt = none) do
    set { t with
      preparation := (t.preparation.preserved receipts).execute env.effects.now result }
  putCleanupAnswer actor attachmentId request result
  pure (.answered result)

/-- `_effect_decision_tx`, on the tables of a cleanup. -/
def cleanupDecision (request : EffectCheckInput) : CleanupTx EffectDecision :=
  Tx.within CleanupTables.effects (fun effects t => { t with effects := effects })
    (effectDecision fnmatchcase env.effects request)

/-- The grant under which an effect is reserved. -/
def authorizeRequest (request : EffectCheckInput) (oneTime : List EffectGrantId) :
    CleanupTx EffectGrant := do
  -- the model of the request checks the generation and the digest
  Tx.require ((request.cleanup.any fun c =>
      decide (1 ≤ c.generation) && isExecutionDigest c.executionDigest) = true)
    (EffectFailure.service (.validation "cleanup effect binding must be complete"))
  let decision ← cleanupDecision fnmatchcase env request
  match decision with
  | .allow (some id) => do
    let t ← get
    let g ← Tx.need (t.effects.grant? id)
      (cleanupConflict "cleanup authority disappeared before reservation")
    Tx.require (g.consumedAt = none)
      (cleanupConflict "cleanup authority disappeared before reservation")
    Tx.require (g.standing = false → g.id ∉ oneTime)
      (cleanupConflict "one-time cleanup authority cannot cover multiple resources")
    pure g
  | decision => throw (.notAuthorized "cleanup effect is not authorized" decision)

/-- **The authority of every target**, and the one-time grants among them. -/
def authorizeItems (p : CleanupPreparation) : List InventoryItem → List EffectGrantId →
    CleanupTx (List (EffectCheckInput × EffectGrantId) × List EffectGrantId)
  | [], oneTime => pure ([], oneTime)
  | i :: rest, oneTime => do
    let g ← authorizeRequest fnmatchcase env (p.cleanupRequest actor i) oneTime
    let r ← authorizeItems p rest (if g.standing = false then g.id :: oneTime else oneTime)
    pure ((p.cleanupRequest actor i, g.id) :: r.1, r.2)

/-- A one-time grant is spent. -/
def spendCleanupGrant (id : EffectGrantId) : CleanupTx PUnit := do
  let t ← get
  Tx.require (Rows.rowcount (EffectGrant.unspentAs id) t.effects.grants = 1)
    (cleanupConflict "cleanup authority was consumed concurrently")
  set { t with
    effects :=
      { t.effects with
        grants := Rows.update (EffectGrant.unspentAs id)
          (EffectGrant.consume env.effects.now) t.effects.grants } }

/-- An effect is reserved. -/
def insertCleanupOperation (o : EffectOperation) (request : EffectCheckInput) :
    CleanupTx PUnit := do
  let t ← get
  Tx.require (∀ o' ∈ t.effects.operations, o'.id ≠ o.id ∧ ¬ o.Clashes o')
    (.raised (.integrity "effect_operations"))
  set { t with
    effects :=
      { t.effects with
        operations := o :: t.effects.operations
        events := .started o.id actor.id request :: t.effects.events } }

/-- The effects are reserved, one after the other; `k` of them are there already. -/
def insertCleanupOperations : ℕ → List (EffectCheckInput × EffectGrantId) →
    CleanupTx (List EffectOperation)
  | _, [] => pure []
  | k, (request, grantId) :: rest => do
    let o := request.operation (env.operationIds k) (some grantId) env.effects.now
    insertCleanupOperation actor o request
    let rows ← insertCleanupOperations (k + 1) rest
    pure (o :: rows)

/-- **The reservation of every target.** -/
def reserveCleanup (attachmentId : AttachmentId) (request : ExecutePreparedCleanupInput)
    (receipts : List String) : CleanupTx CleanupOutcome := do
  let t ← get
  let p := t.preparation
  Tx.require (t.operations = []) (cleanupConflict "cleanup preparation has unbound prior effects")
  let authorized ← authorizeItems fnmatchcase env actor p p.preparedPrivate []
  Tx.each (spendCleanupGrant env) authorized.2
  let rows ← insertCleanupOperations env actor 0 authorized.1
  modify fun t => { t with
    preparation := t.preparation.reserve receipts (p.executionRequest attachmentId) }
  pure (.reserved
    { actor := actor
      attachmentId := attachmentId
      request := request
      executionRequest := p.executionRequest attachmentId
      providerInventory := p.providerInventory
      operationRows := rows
      preservationRows := receipts
      entered := false })

/-- What follows the checks: the preparation has been executed, or it is reserved,
or its targets are reserved now. -/
def concludeReservation (attachmentId : AttachmentId) (request : ExecutePreparedCleanupInput)
    (receipts : List String) : CleanupTx CleanupOutcome := do
  let t ← get
  let p := t.preparation
  if p.cleanupExecutedAt.isSome then answerExecuted actor attachmentId request
  else
    Tx.require ((p.preparedPrivate.map InventoryItem.target).Nodup)
      (cleanupConflict "cleanup preparation contains duplicate resources")
    if p.cleanupExecutionRequestDigest.isSome then
      resumeCleanup env actor attachmentId request receipts
    else reserveCleanup fnmatchcase env actor attachmentId request receipts

/-- **The first transaction of `execute_prepared_cleanup`**, with the checks before
it. -/
def executePreparedCleanup (request : ExecutePreparedCleanupInput) : CleanupTx CleanupOutcome := do
  Tx.within CleanupTables.effects (fun effects t => { t with effects := effects })
    (requireCao env.effects actor)
  let attachmentId ← Tx.need actor.attachmentId (EffectFailure.service
    (.authorization "cleanup execution requires an attached CAO conversation"))
  let _ ← requireCleanupAuthority env actor attachmentId request
  let cached ← cleanupAnswer actor attachmentId request
  match cached with
  | some result => pure (.answered result)
  | none => do
    let t ← get
    let receipts ← preserveArtifacts env t.preparation
    verifyInventory env t.preparation
    concludeReservation fnmatchcase env actor attachmentId request receipts

/-- `by_target`: of two receipts for a target, the later one counts. -/
def receiptFor (receipts : List CleanupReceipt) (target : CleanupTarget) : Option CleanupReceipt :=
  receipts.reverse.find? fun r => decide (r.target = target)

/-- What a receipt says of the outcome. -/
def CleanupReceipt.status (r : CleanupReceipt) : Option EffectStatus :=
  if r.outcome = "succeeded" then some .succeeded
  else if r.outcome = "not-applied" then some .notApplied
  else none

/-- A reserved effect is settled by its receipt. -/
def settleOperation (c : CleanupCall) (receipts : List CleanupReceipt) (o : EffectOperation) :
    CleanupTx PUnit := do
  let receipt ← Tx.need (receiptFor receipts o.cleanupTarget)
    (cleanupConflict "owner-private cleanup postcondition is incomplete")
  let status ← Tx.need receipt.status
    (cleanupConflict "owner-private cleanup postcondition is unknown")
  let t ← get
  Tx.require (Rows.rowcount (EffectOperation.awaits o.id) t.effects.operations = 1)
    (cleanupConflict "cleanup effect outcome requires verification")
  set { t with
    effects :=
      { t.effects with
        operations := Rows.update (EffectOperation.awaits o.id)
          (EffectOperation.resolve env.effects.now ⟨status, receipt.providerEvidenceId⟩)
          t.effects.operations }
    verifications :=
      ⟨o.id, c.actor.id, t.preparation.id, receipt.executionDigest⟩ :: t.verifications }

/-- **The second transaction of `execute_prepared_cleanup`.** -/
def settleCleanup (c : CleanupCall) (receipts : List CleanupReceipt) : CleanupTx PUnit := do
  Tx.require ((receipts.map CleanupReceipt.target).toFinset =
      (c.operationRows.map EffectOperation.cleanupTarget).toFinset)
    (cleanupConflict "owner-private cleanup postcondition is incomplete")
  Tx.each (settleOperation env c receipts) c.operationRows
  let t ← get
  let result : CleanupResult := ⟨t.preparation.id, receipts.length, c.preservationRows⟩
  Tx.require (t.preparation.cleanupExecutionRequestDigest = some c.executionRequest ∧
      t.preparation.cleanupExecutedAt = none)
    (cleanupConflict "cleanup execution completion lost its exact reservation")
  set { t with preparation := t.preparation.execute env.effects.now result }
  putCleanupAnswer c.actor c.attachmentId c.request result

end Programs

/-! ## Calls side by side -/

/-- **The state of the system**: the tables, the calls between their two
transactions, the other callers about effects, and every inventory that the
provider was entered with. -/
structure CloseCleanups where
  tables : CleanupTables
  calls : List CleanupCall
  callers : List EffectCaller
  entries : List (List InventoryItem)
  deriving DecidableEq, Repr

namespace CloseCleanups

/-- What happens next. -/
inductive Event where
  /-- The first transaction of `execute_prepared_cleanup`. -/
  | call (env : CleanupEnv) (actor : Actor) (request : ExecutePreparedCleanupInput)
  /-- A call enters the provider. -/
  | enter (c : CleanupCall)
  /-- The provider answers, and the second transaction of its call runs. -/
  | settle (env : CleanupEnv) (c : CleanupCall) (receipts : List CleanupReceipt)
  /-- The provider fails, or the call is lost. -/
  | crash (c : CleanupCall)
  /-- A caller about effects takes a step. -/
  | effect (e : Effects.Event)

/-- The step is not the reservation of an effect for the preparation by a
`start_effect` of its own. Every step of `resolve_effect`, and of the calls that
give and revoke grants, is such a step. -/
def Beside (p : CleanupPreparation) : Effects.Event → Prop
  | .start _ _ request => ∀ c ∈ request.cleanup, c.preparationId ≠ p.id
  | _ => True

instance (p : CleanupPreparation) (e : Effects.Event) : Decidable (Beside p e) := by
  unfold Beside
  cases e with
  | start _ _ request =>
    exact decidable_of_iff ((request.cleanup.all fun c => decide (c.preparationId ≠ p.id)) = true)
      (by cases h : request.cleanup <;> simp [h])
  | _ => exact instDecidableTrue

variable (fnmatchcase : String → String → Bool)

/-- **One step.** -/
def step (s : CloseCleanups) : Event → Option CloseCleanups
  | .call env actor request =>
    match executePreparedCleanup fnmatchcase env actor request s.tables with
    | .error _ => some s
    | .ok (.answered _, t) => some { s with tables := t }
    | .ok (.reserved c, t) => some { s with tables := t, calls := c :: s.calls }
  | .enter c =>
    if c ∈ s.calls ∧ c.entered = false then
      some { s with
        calls := { c with entered := true } :: s.calls.erase c
        entries := c.providerInventory :: s.entries }
    else none
  | .settle env c receipts =>
    if c ∈ s.calls ∧ c.entered = true then
      some { s with
        tables := (settleCleanup env c receipts).commit s.tables
        calls := s.calls.erase c }
    else none
  | .crash c => if c ∈ s.calls then some { s with calls := s.calls.erase c } else none
  | .effect e =>
    if Beside s.tables.preparation e then
      (Effects.step fnmatchcase ⟨s.tables.effects, s.callers⟩ e).map fun r =>
        { s with tables := { s.tables with effects := r.ledger }, callers := r.callers }
    else none

/-- A preparation that was sealed and not executed yet. Grants and other effects
may be there, in tables as every effect call leaves them. -/
structure Initial (s : CloseCleanups) : Prop where
  effects : Effects.Inv s.tables.effects
  unreserved : s.tables.preparation.cleanupExecutionRequestDigest = none
  unexecuted : s.tables.preparation.cleanupExecutedAt = none
  operations : s.tables.operations = []
  calls : s.calls = []
  entries : s.entries = []

/-- **Any number of calls, interleaved in any way.** -/
def system : TransitionSystem CloseCleanups Event := .ofFunction Initial (step fnmatchcase)

end CloseCleanups
