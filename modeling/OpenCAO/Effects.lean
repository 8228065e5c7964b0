import Mathlib.Data.List.Sort
import OpenCAO.TransitionSystem
import OpenCAO.WorkFile

/-!
# The authority for effects

An effect on the world outside the control plane is *reserved* before it
is executed: `start_effect` looks for an authority – a grant of the
caller's whose patterns and digests cover the request – spends it when it
is a one-time grant, and records an operation whose outcome is then open.
`resolve_effect` records the outcome, and `EffectExecutor` does so for the
operations that a crash left open.

Only `start_effect` decides inside its write transaction. `grant_effect`,
`revoke_effect_grant` and `resolve_effect` read first, and write in a
transaction of their own later; between the two, any other caller may act.
A state of the system is therefore the three tables and the *callers* that
have read and not written yet.

`fnmatchcase` is the function of the standard library, applied to a value
and a pattern.
-/

/-- The identifier of an effect grant. -/
abbrev EffectGrantId := ℕ
/-- The identifier of an effect operation. -/
abbrev EffectOperationId := ℕ

/-- How far an effect reaches. -/
inductive EffectKind where
  | «local» | external | destructive
  deriving DecidableEq, Repr

/-- The outcome of an effect operation. -/
inductive EffectStatus where
  | started | succeeded | notApplied | failed | unknown
  deriving DecidableEq, Repr

/-- The outcome is known. -/
def EffectStatus.resolved : EffectStatus → Bool
  | succeeded | notApplied | failed => true
  | started | unknown => false

/-- What `datetime.fromisoformat` makes of the text `expires_at`. -/
inductive Expiry where
  /-- No text. -/
  | never
  /-- An instant with its offset. -/
  | instant (t : Instant)
  /-- An instant without an offset, which does not compare with the clock. -/
  | naive
  /-- No instant. -/
  | malformed
  deriving DecidableEq, Repr

/-- What binds an effect to an item of a prepared close. A request carries
all of it or nothing. -/
structure CleanupBinding where
  workItemId : WorkId
  generation : ℕ
  preparationId : ℕ
  targetKind : String
  targetFingerprint : String
  executionDigest : String
  deriving DecidableEq, Repr

/-- **What an authority is granted for**, `EffectGrantInput`. -/
structure EffectGrantInput where
  principalId : PrincipalId
  kind : EffectKind
  targetPattern : String
  actionPattern : String
  contentDigest : String
  argvDigest : String
  workdirDigest : String
  expiresAt : Expiry
  standing : Bool
  deriving DecidableEq, Repr

/-- **What a caller wants to do**, `EffectCheckInput`. -/
structure EffectCheckInput where
  principalId : PrincipalId
  kind : EffectKind
  target : String
  action : String
  contentDigest : String
  argvDigest : String
  workdirDigest : String
  cleanup : Option CleanupBinding
  deriving DecidableEq, Repr

/-- A request without the two columns of its cleanup binding that the unique
index of the open operations leaves out. -/
def EffectCheckInput.indexed (request : EffectCheckInput) : EffectCheckInput :=
  { request with
    cleanup := request.cleanup.map fun c => { c with preparationId := 0, executionDigest := "" } }

/-- **What became of it**, `EffectResolveInput`. -/
structure EffectResolveInput where
  status : EffectStatus
  evidence : String
  deriving DecidableEq, Repr

/-- **A row of `effect_grants`.** -/
structure EffectGrant where
  id : EffectGrantId
  principalId : PrincipalId
  kind : EffectKind
  targetPattern : String
  actionPattern : String
  contentDigest : String
  argvDigest : String
  workdirDigest : String
  expiresAt : Expiry
  standing : Bool
  consumedAt : Option Instant
  createdAt : Instant
  deriving DecidableEq, Repr

/-- **A row of `effect_operations`.** -/
structure EffectOperation where
  id : EffectOperationId
  principalId : PrincipalId
  kind : EffectKind
  target : String
  action : String
  contentDigest : String
  argvDigest : String
  workdirDigest : String
  status : EffectStatus
  evidence : String
  grantId : Option EffectGrantId
  cleanup : Option CleanupBinding
  createdAt : Instant
  updatedAt : Instant
  deriving DecidableEq, Repr

/-- What the service records about effects. -/
inductive EffectEvent where
  | granted (id : EffectGrantId) (actor : PrincipalId) (request : EffectGrantInput)
  | grantRevoked (id : EffectGrantId) (actor : PrincipalId)
  | started (id : EffectOperationId) (actor : PrincipalId) (request : EffectCheckInput)
  | resolved (id : EffectOperationId) (actor : PrincipalId) (request : EffectResolveInput)
  deriving DecidableEq, Repr

/-- **The tables of effect authority.** -/
structure EffectLedger where
  grants : List EffectGrant
  operations : List EffectOperation
  events : List EffectEvent
  deriving DecidableEq, Repr

/-- An item of a close inventory. -/
structure CleanupItem where
  targetKind : String
  targetFingerprint : String
  action : String
  rest : String
  deriving DecidableEq, Repr

/-- A row of `work_close_preparations`. The digest of an inventory is the
inventory. -/
structure ClosePreparation where
  id : ℕ
  inventory : List CleanupItem
  inventoryDigest : List CleanupItem
  deriving DecidableEq, Repr

/-- **What a call reads beside its own tables**: the clock, a new random
identifier, the principals, the standing of the caller's credential and the
prepared closes. -/
structure EffectEnv where
  now : Instant
  newId : ℕ
  principalExists : PrincipalId → Bool
  enabled : PrincipalId → Bool
  callerCurrent : Except ServiceError Unit
  preparation : WorkId → ℕ → Option ClosePreparation

/-- What `_effect_decision_tx` answers. -/
inductive EffectDecision where
  | allow (grantId : Option EffectGrantId)
  | verifyRemote (operationId : EffectOperationId)
  | approvalRequired
  deriving DecidableEq, Repr

/-- **What a call about effects fails with.** A refused authority says what
was decided; comparing an instant without an offset with the clock is a
`TypeError`. -/
inductive EffectFailure where
  | raised (failure : Failure)
  | notAuthorized (message : String) (decision : EffectDecision)
  | typeError
  deriving DecidableEq, Repr

/-- An error of the service's own. -/
def EffectFailure.service (error : ServiceError) : EffectFailure := .raised (.service error)

/-- A transaction on the tables of effect authority. -/
abbrev EffectTx := Tx EffectLedger EffectFailure

/-! ## The tables -/

namespace EffectOperation

/-- The columns that are written once. -/
def request (o : EffectOperation) : EffectCheckInput where
  principalId := o.principalId
  kind := o.kind
  target := o.target
  action := o.action
  contentDigest := o.contentDigest
  argvDigest := o.argvDigest
  workdirDigest := o.workdirDigest
  cleanup := o.cleanup

/-- The columns of the partial unique index `effect_operations_unresolved_unique`.
A row without a cleanup binding has a null there, and nulls are distinct. -/
def unresolvedKey (o : EffectOperation) : Option EffectCheckInput :=
  if o.status.resolved = true ∨ o.kind = .local ∨ o.cleanup = none then none
  else some o.request.indexed

/-- The rows would violate the unique index together. -/
def Clashes (o o' : EffectOperation) : Prop :=
  o.unresolvedKey.isSome ∧ o.unresolvedKey = o'.unresolvedKey

instance (o o' : EffectOperation) : Decidable (o.Clashes o') := by
  unfold Clashes
  infer_instance

/-- What an operation acts on, as far as the retry fence looks at it. -/
def effect (o : EffectOperation) : PrincipalId × String × String := (o.principalId, o.target, o.action)

/-- The row with another outcome. -/
def resolve (now : Instant) (r : EffectResolveInput) (o : EffectOperation) : EffectOperation :=
  { o with status := r.status, evidence := r.evidence, updatedAt := now }

@[simp] theorem resolve_id (now : Instant) (r : EffectResolveInput) (o : EffectOperation) :
    (o.resolve now r).id = o.id := rfl

@[simp] theorem resolve_effect (now : Instant) (r : EffectResolveInput) (o : EffectOperation) :
    (o.resolve now r).effect = o.effect := rfl

@[simp] theorem resolve_request (now : Instant) (r : EffectResolveInput) (o : EffectOperation) :
    (o.resolve now r).request = o.request := rfl

@[simp] theorem resolve_grantId (now : Instant) (r : EffectResolveInput) (o : EffectOperation) :
    (o.resolve now r).grantId = o.grantId := rfl

@[simp] theorem resolve_status (now : Instant) (r : EffectResolveInput) (o : EffectOperation) :
    (o.resolve now r).status = r.status := rfl

end EffectOperation

/-- What a request acts on, as far as the retry fence looks at it. -/
def EffectCheckInput.effect (request : EffectCheckInput) : PrincipalId × String × String :=
  (request.principalId, request.target, request.action)

/-- The operation that a request reserves. -/
def EffectCheckInput.operation (request : EffectCheckInput) (id : EffectOperationId)
    (grantId : Option EffectGrantId) (now : Instant) : EffectOperation where
  id := id
  principalId := request.principalId
  kind := request.kind
  target := request.target
  action := request.action
  contentDigest := request.contentDigest
  argvDigest := request.argvDigest
  workdirDigest := request.workdirDigest
  status := .started
  evidence := ""
  grantId := grantId
  cleanup := request.cleanup
  createdAt := now
  updatedAt := now

/-- The grant that a request asks for. -/
def EffectGrantInput.grant (request : EffectGrantInput) (id : EffectGrantId) (now : Instant) :
    EffectGrant where
  id := id
  principalId := request.principalId
  kind := request.kind
  targetPattern := request.targetPattern
  actionPattern := request.actionPattern
  contentDigest := request.contentDigest
  argvDigest := request.argvDigest
  workdirDigest := request.workdirDigest
  expiresAt := request.expiresAt
  standing := request.standing
  consumedAt := none
  createdAt := now

/-- The grant, spent. -/
def EffectGrant.consume (now : Instant) (g : EffectGrant) : EffectGrant :=
  { g with consumedAt := some now }

@[simp] theorem EffectGrant.consume_id (now : Instant) (g : EffectGrant) :
    (g.consume now).id = g.id := rfl

@[simp] theorem EffectGrant.consume_standing (now : Instant) (g : EffectGrant) :
    (g.consume now).standing = g.standing := rfl

@[simp] theorem EffectGrant.consume_consumedAt (now : Instant) (g : EffectGrant) :
    (g.consume now).consumedAt = some now := rfl

/-- `_is_expired`: equality is expired, and so is a text that is no instant. -/
def Expiry.expired (now : Instant) : Expiry → Except EffectFailure Bool
  | .never => .ok false
  | .instant t => .ok (decide (t ≤ now))
  | .naive => .error .typeError
  | .malformed => .ok true

namespace EffectLedger

/-- `SELECT … FROM effect_grants WHERE id = ?`. -/
def grant? (t : EffectLedger) (id : EffectGrantId) : Option EffectGrant :=
  t.grants.find? fun g => decide (g.id = id)

/-- `SELECT … FROM effect_operations WHERE id = ?`. -/
def operation? (t : EffectLedger) (id : EffectOperationId) : Option EffectOperation :=
  t.operations.find? fun o => decide (o.id = id)

/-- The newest operation of the same effect whose outcome is open. -/
def unresolved? (t : EffectLedger) (request : EffectCheckInput) : Option EffectOperation :=
  ((t.operations.filter fun o => decide (o.effect = request.effect ∧ o.status.resolved = false)
    ).insertionSort fun a b => b.createdAt ≤ a.createdAt).head?

/-- The grants of a principal and a kind, oldest first. -/
def grantsFor (t : EffectLedger) (request : EffectCheckInput) : List EffectGrant :=
  (t.grants.filter fun g => decide (g.principalId = request.principalId ∧ g.kind = request.kind)
    ).insertionSort fun a b => a.createdAt ≤ b.createdAt

/-- An open operation of the same request. Unlike the index, this compares
the null of a request without a cleanup binding as a value. -/
def sameRequest? (t : EffectLedger) (request : EffectCheckInput) : Option EffectOperation :=
  t.operations.find? fun o =>
    decide (o.status.resolved = false ∧ o.request.indexed = request.indexed)

/-- The tables with a grant consumed. -/
def spend (now : Instant) (id : EffectGrantId) (t : EffectLedger) : EffectLedger :=
  { t with
    grants := Rows.update (fun g => decide (g.id = id)) (EffectGrant.consume now) t.grants }

/-- The tables with the outcome of an operation. -/
def resolve (t : EffectLedger) (now : Instant) (id : EffectOperationId) (r : EffectResolveInput) :
    EffectLedger :=
  { t with
    operations :=
      Rows.update (fun o => decide (o.id = id)) (EffectOperation.resolve now r) t.operations }

end EffectLedger

/-! ## The decision -/

section Programs

variable (fnmatchcase : String → String → Bool)

/-- `matches`: no pattern matches nothing. -/
def patternMatches (pattern value : String) : Prop :=
  pattern ≠ "" ∧ fnmatchcase value pattern = true

instance (pattern value : String) : Decidable (patternMatches fnmatchcase pattern value) := by
  unfold patternMatches
  infer_instance

/-- A digest of the grant, unless it is empty, is the one of the request. -/
def digestAgrees (granted requested : String) : Prop := granted = "" ∨ granted = requested

instance (granted requested : String) : Decidable (digestAgrees granted requested) := by
  unfold digestAgrees
  infer_instance

/-- The patterns and digests of the grant cover the request. -/
structure EffectGrant.Covers (g : EffectGrant) (request : EffectCheckInput) : Prop where
  target : patternMatches fnmatchcase g.targetPattern request.target
  action : patternMatches fnmatchcase g.actionPattern request.action
  content : digestAgrees g.contentDigest request.contentDigest
  argv : digestAgrees g.argvDigest request.argvDigest
  workdir : digestAgrees g.workdirDigest request.workdirDigest

instance (g : EffectGrant) (request : EffectCheckInput) :
    Decidable (g.Covers fnmatchcase request) :=
  decidable_of_iff
    (patternMatches fnmatchcase g.targetPattern request.target ∧
      patternMatches fnmatchcase g.actionPattern request.action ∧
      digestAgrees g.contentDigest request.contentDigest ∧
      digestAgrees g.argvDigest request.argvDigest ∧
      digestAgrees g.workdirDigest request.workdirDigest)
    ⟨fun ⟨h₁, h₂, h₃, h₄, h₅⟩ => ⟨h₁, h₂, h₃, h₄, h₅⟩,
      fun h => ⟨h.target, h.action, h.content, h.argv, h.workdir⟩⟩

/-- The loop of `_effect_decision_tx` over the grants: the first one that is
not spent, not expired and covers the request. -/
def firstAuthority (now : Instant) (request : EffectCheckInput) :
    List EffectGrant → Except EffectFailure (Option EffectGrant)
  | [] => .ok none
  | g :: rest =>
    if g.consumedAt.isSome = true ∧ g.standing = false then firstAuthority now request rest
    else
      match g.expiresAt.expired now with
      | .error e => .error e
      | .ok true => firstAuthority now request rest
      | .ok false =>
        if g.Covers fnmatchcase request then .ok (some g) else firstAuthority now request rest

variable (env : EffectEnv) (actor : Actor)

/-- `_effect_decision_tx`. -/
def effectDecision (request : EffectCheckInput) : EffectTx EffectDecision := do
  Tx.require (env.enabled request.principalId = true)
    (EffectFailure.service (.notFound "enabled principal"))
  let t ← get
  match t.unresolved? request with
  | some o => pure (.verifyRemote o.id)
  | none =>
    if request.kind = .local then pure (.allow none)
    else
      match firstAuthority fnmatchcase env.now request (t.grantsFor request) with
      | .error e => throw e
      | .ok (some g) => pure (.allow (some g.id))
      | .ok none => pure .approvalRequired

/-- `_require_role` for the CAO. -/
def requireCao : EffectTx PUnit := do
  Tx.require (actor.role = .cao)
    (EffectFailure.service (.authorization "principal role is not permitted"))
  match env.callerCurrent with
  | .ok _ => pure ⟨⟩
  | .error e => throw (EffectFailure.service e)

/-! ## The calls -/

/-- A cleanup effect names an item of the inventory that its close
prepared, with the digest under which it was prepared. -/
def ClosePreparation.Prepared (p : ClosePreparation) (request : EffectCheckInput)
    (c : CleanupBinding) : Prop :=
  p.id = c.preparationId ∧ p.inventory = p.inventoryDigest ∧
    (c.targetKind, c.targetFingerprint, request.action) ∈
      p.inventory.map (fun i => (i.targetKind, i.targetFingerprint, i.action)) ∧
    request.target = c.targetFingerprint ∧ request.contentDigest = c.executionDigest

instance (p : ClosePreparation) (request : EffectCheckInput) (c : CleanupBinding) :
    Decidable (p.Prepared request c) := by
  unfold ClosePreparation.Prepared
  infer_instance

/-- The binding of a cleanup effect is checked first. -/
def checkCleanup (request : EffectCheckInput) : EffectTx PUnit :=
  match request.cleanup with
  | none => pure ⟨⟩
  | some c => do
    let p ← Tx.need (env.preparation c.workItemId c.generation) (EffectFailure.service
      (.conflict "cleanup effect does not target a prepared close inventory item"))
    Tx.require (p.Prepared request c) (EffectFailure.service
      (.conflict "cleanup effect does not target a prepared close inventory item"))

/-- A one-time grant is spent. -/
def consumeGrant (id : EffectGrantId) : EffectTx PUnit := do
  let t ← get
  let g ← Tx.need (t.grant? id)
    (EffectFailure.service (.conflict "effect grant disappeared before reservation"))
  Tx.when (g.standing = false) do
    Tx.require (g.consumedAt = none)
      (EffectFailure.service (.conflict "one-time effect grant has already been consumed"))
    modify (EffectLedger.spend env.now id)

/-- The operation is inserted, or the reason of the refusal is looked up. -/
def insertOperation (o : EffectOperation) (request : EffectCheckInput) : EffectTx PUnit := do
  let t ← get
  if ∃ o' ∈ t.operations, o'.id = o.id ∨ o.Clashes o' then
    match t.sameRequest? request with
    | some o' => throw (.notAuthorized
        "effect outcome must be verified before another reservation" (.verifyRemote o'.id))
    | none => throw (.raised (.integrity "effect_operations"))
  else set { t with operations := o :: t.operations }

/-- Record an event. -/
def effectEvent (e : EffectEvent) : EffectTx PUnit :=
  modify fun t => { t with events := e :: t.events }

/-- The reservation under a decision. -/
def reserveEffect (request : EffectCheckInput) (grantId : Option EffectGrantId) :
    EffectTx PUnit := do
  insertOperation (request.operation env.newId grantId env.now) request
  effectEvent (.started env.newId actor.id request)

/-- The write transaction of `start_effect`. -/
def startEffectTx (request : EffectCheckInput) : EffectTx PUnit := do
  checkCleanup env request
  let decision ← effectDecision fnmatchcase env request
  match decision with
  | .allow none => reserveEffect env actor request none
  | .allow (some id) => do
    consumeGrant env id
    reserveEffect env actor request (some id)
  | .verifyRemote id => throw (.notAuthorized "effect is not authorized" (.verifyRemote id))
  | .approvalRequired => throw (.notAuthorized "effect is not authorized" .approvalRequired)

/-- **`start_effect`**, up to its commit. -/
def startEffect (request : EffectCheckInput) : EffectTx PUnit := do
  Tx.when (actor.id ≠ request.principalId) (requireCao env actor)
  startEffectTx fnmatchcase env actor request

/-- **`start_effect` as its caller sees it**: what it answers or raises, and
the tables it leaves. The operation is read once more after the commit. -/
def startEffectCall (request : EffectCheckInput) (t : EffectLedger) :
    Except EffectFailure EffectOperation × EffectLedger :=
  match startEffect fnmatchcase env actor request t with
  | .error e => (.error e, t)
  | .ok r =>
    match r.2.operation? env.newId with
    | some o => (.ok o, r.2)
    | none => (.error (EffectFailure.service (.notFound "effect operation")), r.2)

end Programs

/-- **The calls that read first and write later.** -/
inductive EffectCall where
  /-- `grant_effect`. -/
  | grant (request : EffectGrantInput)
  /-- `revoke_effect_grant`. -/
  | revoke (id : EffectGrantId)
  /-- `resolve_effect`. -/
  | resolve (id : EffectOperationId) (request : EffectResolveInput)
  deriving DecidableEq, Repr

namespace EffectCall

variable (env : EffectEnv) (actor : Actor)

/-- **What a call checks before its write transaction.** -/
def checks : EffectCall → EffectTx PUnit
  | grant request => do
    requireCao env actor
    Tx.require (env.principalExists request.principalId = true)
      (EffectFailure.service (.notFound "principal"))
  | revoke id => do
    requireCao env actor
    let t ← get
    Tx.require ((t.grant? id).isSome = true) (EffectFailure.service (.notFound "effect grant"))
  | resolve id request => do
    let t ← get
    let o ← Tx.need (t.operation? id) (EffectFailure.service (.notFound "effect operation"))
    Tx.when (actor.id ≠ o.principalId) (requireCao env actor)
    Tx.require (o.status.resolved = false)
      (EffectFailure.service (.conflict "effect operation is already resolved"))
    Tx.require (request.status ≠ .started)
      (EffectFailure.service (.validation "effect cannot be resolved back to started"))

/-- **The write transaction of a call.** -/
def writes : EffectCall → EffectTx PUnit
  | grant request => do
    let t ← get
    Tx.require ((∀ g ∈ t.grants, g.id ≠ env.newId) ∧ env.principalExists request.principalId = true)
      (.raised (.integrity "effect_grants"))
    set { t with grants := request.grant env.newId env.now :: t.grants }
    effectEvent (.granted env.newId actor.id request)
  | revoke id => do
    let t ← get
    -- an operation refers to its grant
    Tx.require ((∃ g ∈ t.grants, g.id = id) → ∀ o ∈ t.operations, o.grantId ≠ some id)
      (.raised (.integrity "FOREIGN KEY constraint failed"))
    set { t with grants := t.grants.filter fun g => decide (g.id ≠ id) }
    effectEvent (.grantRevoked id actor.id)
  | resolve id request => do
    let t ← get
    -- the index is checked again where the update opens an outcome
    Tx.require (∀ o ∈ t.operations, o.id = id → ∀ o' ∈ t.operations, o'.id ≠ id →
        ¬ (o.resolve env.now request).Clashes o')
      (.raised (.integrity "effect_operations_unresolved_unique"))
    set (t.resolve env.now id request)
    effectEvent (.resolved id actor.id request)

end EffectCall

/-! ## Callers side by side -/

/-- **A caller between two of its transactions.** It has checked `pending`
and not written it yet, or it is `EffectExecutor.recover_incomplete` with
the operations still to be resolved. -/
structure EffectCaller where
  actor : Actor
  pending : Option EffectCall
  remaining : List EffectOperationId
  deriving DecidableEq, Repr

/-- **The state of the system**: the tables and the callers in flight. -/
structure Effects where
  ledger : EffectLedger
  callers : List EffectCaller
  deriving DecidableEq, Repr

namespace Effects

/-- What happens next. -/
inductive Event where
  /-- `start_effect` runs. -/
  | start (env : EffectEnv) (actor : Actor) (request : EffectCheckInput)
  /-- A call passes its checks. -/
  | check (env : EffectEnv) (actor : Actor) (call : EffectCall)
  /-- `recover_incomplete` lists the operations that are started. -/
  | recover (actor : Actor)
  /-- `recover_incomplete` passes the checks of its next `resolve_effect`. -/
  | next (env : EffectEnv) (caller : EffectCaller)
  /-- A caller issues its write transaction. -/
  | write (env : EffectEnv) (caller : EffectCaller)
  /-- A caller is lost. -/
  | crash (caller : EffectCaller)

/-- What `recover_incomplete` resolves an operation to. -/
def incomplete : EffectResolveInput where
  status := .unknown
  evidence := "executor restarted after durable reservation; verify target state"

/-- The callers after a transaction: one that has more to resolve goes on,
one whose transaction failed raises. -/
def proceed (c : EffectCaller) (ok : Bool) (callers : List EffectCaller) : List EffectCaller :=
  if ok = true ∧ c.remaining ≠ [] then { c with pending := none } :: callers.erase c
  else callers.erase c

/-- The transaction succeeds. -/
def succeeds (m : EffectTx PUnit) (t : EffectLedger) : Bool :=
  match m t with
  | .ok _ => true
  | .error _ => false

variable (fnmatchcase : String → String → Bool)

/-- **One step.** -/
def step (s : Effects) : Event → Option Effects
  | .start env actor request =>
    some { s with ledger := (startEffect fnmatchcase env actor request).commit s.ledger }
  | .check env actor call =>
    if succeeds (call.checks env actor) s.ledger = true then
      some { s with callers := ⟨actor, some call, []⟩ :: s.callers }
    else none
  | .recover actor =>
    some { s with callers := ⟨actor, none,
      ((s.ledger.operations.filter fun o => decide (o.status = .started)).insertionSort
        fun a b => a.createdAt ≤ b.createdAt).map EffectOperation.id⟩ :: s.callers }
  | .next env c =>
    match c.pending, c.remaining with
    | none, id :: rest =>
      if c ∈ s.callers ∧
          succeeds ((EffectCall.resolve id incomplete).checks env c.actor) s.ledger = true then
        some { s with callers := ⟨c.actor, some (.resolve id incomplete), rest⟩ ::
          s.callers.erase c }
      else none
    | _, _ => none
  | .write env c =>
    match c.pending with
    | some call =>
      if c ∈ s.callers then
        some { ledger := (call.writes env c.actor).commit s.ledger
               callers := proceed c (succeeds (call.writes env c.actor) s.ledger) s.callers }
      else none
    | none => none
  | .crash c => if c ∈ s.callers then some { s with callers := s.callers.erase c } else none

/-- Nothing has been granted and nothing reserved. -/
def Initial (s : Effects) : Prop := s.ledger = ⟨[], [], []⟩ ∧ s.callers = []

/-- **Any number of callers, interleaved in any way.** -/
def system : TransitionSystem Effects Event := .ofFunction Initial (step fnmatchcase)

end Effects

/-! ## What a reservation does -/

section Reservation

variable (fnmatchcase : String → String → Bool)

/-- **The grant is an authority for the request**: it belongs to the same
principal and kind, covers the request, has not expired and, if it is a
one-time grant, has not been spent. -/
structure EffectGrant.Authorizes (g : EffectGrant) (now : Instant) (request : EffectCheckInput) :
    Prop where
  principal : g.principalId = request.principalId
  kind : g.kind = request.kind
  covers : g.Covers fnmatchcase request
  current : g.expiresAt.expired now = .ok false
  unspent : g.standing = false → g.consumedAt = none

theorem EffectLedger.resolved_of_unresolved?_eq_none {t : EffectLedger}
    {request : EffectCheckInput} (h : t.unresolved? request = none) {o : EffectOperation}
    (ho : o ∈ t.operations) (heffect : o.effect = request.effect) : o.status.resolved = true := by
  rw [unresolved?, List.head?_eq_none_iff] at h
  by_contra hopen
  have hmem : o ∈ t.operations.filter fun o =>
      decide (o.effect = request.effect ∧ o.status.resolved = false) := by
    rw [List.mem_filter]
    exact ⟨ho, by simp [heffect, hopen]⟩
  have := (List.perm_insertionSort (fun a b : EffectOperation => b.createdAt ≤ a.createdAt)
    _).mem_iff.mpr hmem
  rw [h] at this
  exact List.not_mem_nil this

theorem EffectLedger.mem_grantsFor {t : EffectLedger} {request : EffectCheckInput}
    {g : EffectGrant} (h : g ∈ t.grantsFor request) :
    g ∈ t.grants ∧ g.principalId = request.principalId ∧ g.kind = request.kind := by
  have hmem := (List.perm_insertionSort _ _).mem_iff.mp h
  rw [List.mem_filter] at hmem
  exact ⟨hmem.1, by simpa using hmem.2⟩

/-- **The loop answers with a grant that none of the skips applies to.** -/
theorem firstAuthority_some {now : Instant} {request : EffectCheckInput}
    {grants : List EffectGrant} {g : EffectGrant}
    (h : firstAuthority fnmatchcase now request grants = .ok (some g)) :
    g ∈ grants ∧ g.Covers fnmatchcase request ∧ g.expiresAt.expired now = .ok false ∧
      (g.standing = false → g.consumedAt = none) := by
  induction grants with
  | nil => simp [firstAuthority] at h
  | cons g' rest ih =>
    rw [firstAuthority] at h
    split at h
    · exact ⟨List.mem_cons_of_mem _ (ih h).1, (ih h).2⟩
    next hspent =>
      split at h
      · simp at h
      · exact ⟨List.mem_cons_of_mem _ (ih h).1, (ih h).2⟩
      next hcurrent =>
        split at h
        next hcovers =>
          obtain rfl : g' = g := by simpa using h
          refine ⟨List.mem_cons_self, hcovers, hcurrent, fun hstanding => ?_⟩
          simpa [hstanding] using hspent
        next => exact ⟨List.mem_cons_of_mem _ (ih h).1, (ih h).2⟩

/-- A grant is found under its identifier. -/
theorem EffectLedger.grant?_eq {t : EffectLedger} (hids : (t.grants.map EffectGrant.id).Nodup)
    {g : EffectGrant} (hg : g ∈ t.grants) : t.grant? g.id = some g :=
  Rows.find?_key hids hg

/-- The tables with the authority of a reservation used up. -/
def EffectLedger.charge (t : EffectLedger) (now : Instant) (g : EffectGrant) : EffectLedger :=
  if g.standing = false then t.spend now g.id else t

/-- **What `start_effect` did**: nothing was open on the same effect, the
operation is new, and its authority was checked and charged in the same
transaction. -/
structure Reservation (env : EffectEnv) (actor : Actor) (request : EffectCheckInput)
    (t t' : EffectLedger) : Prop where
  fenced : ∀ o ∈ t.operations, o.effect = request.effect → o.status.resolved = true
  fresh : ∀ o ∈ t.operations, o.id ≠ env.newId
  events : t'.events = .started env.newId actor.id request :: t.events
  authority :
    request.kind = .local ∧ t'.grants = t.grants ∧
        t'.operations = request.operation env.newId none env.now :: t.operations ∨
      ∃ g ∈ t.grants, g.Authorizes fnmatchcase env.now request ∧
        t'.grants = (t.charge env.now g).grants ∧
        t'.operations = request.operation env.newId (some g.id) env.now :: t.operations

/-- The decision allows only under an authority, and only where nothing is
open on the same effect. -/
theorem wp_effectDecision (env : EffectEnv) (request : EffectCheckInput) (t : EffectLedger) :
    Tx.wp (effectDecision fnmatchcase env request) (fun d t' => t' = t ∧ ∀ grantId,
      d = .allow grantId →
        (∀ o ∈ t.operations, o.effect = request.effect → o.status.resolved = true) ∧
        (grantId = none ∧ request.kind = .local ∨
          ∃ g ∈ t.grants, grantId = some g.id ∧ g.Authorizes fnmatchcase env.now request))
      (fun _ => True) t := by
  unfold effectDecision
  rw [Tx.wp_bind, Tx.wp_require]
  refine ⟨fun _ => ?_, fun _ => trivial⟩
  rw [Tx.wp_bind, Tx.wp_get]
  cases hopen : t.unresolved? request with
  | some o => exact ⟨rfl, fun _ h => nomatch h⟩
  | none =>
    have hfenced := fun o ho => t.resolved_of_unresolved?_eq_none hopen (o := o) ho
    show Tx.wp (if _ then _ else _) _ _ _
    rw [Tx.wp_ite]
    refine ⟨fun hlocal => ⟨rfl, fun grantId h => ?_⟩, fun _ => ?_⟩
    · obtain rfl : none = grantId := by simpa using h
      exact ⟨hfenced, .inl ⟨rfl, hlocal⟩⟩
    · cases hfirst : firstAuthority fnmatchcase env.now request (t.grantsFor request) with
      | error e => trivial
      | ok found =>
        cases found with
        | none => exact ⟨rfl, fun _ h => nomatch h⟩
        | some g =>
          refine ⟨rfl, fun grantId h => ⟨hfenced, .inr ?_⟩⟩
          obtain rfl : some g.id = grantId := by simpa using h
          obtain ⟨hmem, hcovers, hcurrent, hunspent⟩ := firstAuthority_some fnmatchcase hfirst
          obtain ⟨hg, hprincipal, hkind⟩ := t.mem_grantsFor hmem
          exact ⟨g, hg, rfl, hprincipal, hkind, hcovers, hcurrent, hunspent⟩

/-- The operation is inserted at the head. -/
theorem wp_reserveEffect (env : EffectEnv) (actor : Actor) (request : EffectCheckInput)
    (grantId : Option EffectGrantId) (t : EffectLedger) :
    Tx.wp (reserveEffect env actor request grantId) (fun _ t' =>
      (∀ o ∈ t.operations, o.id ≠ env.newId) ∧
        t' = { t with
          operations := request.operation env.newId grantId env.now :: t.operations
          events := .started env.newId actor.id request :: t.events }) (fun _ => True) t := by
  unfold reserveEffect insertOperation
  rw [Tx.wp_bind, Tx.wp_bind, Tx.wp_get, Tx.wp_ite]
  refine ⟨fun _ => ?_, fun hfree => ?_⟩
  · cases t.sameRequest? request with
    | some o => trivial
    | none => trivial
  · refine ⟨fun o ho h => hfree ⟨o, ho, .inl h⟩, rfl⟩

/-- A grant that was looked up is charged. -/
theorem wp_consumeGrant (env : EffectEnv) {t : EffectLedger} {g : EffectGrant}
    (hg : t.grant? g.id = some g) :
    Tx.wp (consumeGrant env g.id) (fun _ t' => t' = t.charge env.now g) (fun _ => True) t := by
  unfold consumeGrant EffectLedger.charge
  rw [Tx.wp_bind, Tx.wp_get, Tx.wp_bind, Tx.wp_need]
  refine ⟨fun g' hg' => ?_, fun _ => trivial⟩
  obtain rfl : g = g' := by simpa [hg] using hg'
  rw [Tx.wp_when]
  refine ⟨fun hstanding => ?_, fun hstanding => (if_neg hstanding).symm⟩
  rw [Tx.wp_bind, Tx.wp_require]
  exact ⟨fun _ => (if_pos hstanding).symm, fun _ => trivial⟩

theorem wp_requireCao (env : EffectEnv) (actor : Actor) (t : EffectLedger) :
    Tx.wp (requireCao env actor) (fun _ t' => t' = t) (fun _ => True) t := by
  unfold requireCao
  rw [Tx.wp_bind, Tx.wp_require]
  refine ⟨fun _ => ?_, fun _ => trivial⟩
  cases env.callerCurrent with
  | ok _ => exact rfl
  | error e => trivial

theorem wp_checkCleanup (env : EffectEnv) (request : EffectCheckInput) (t : EffectLedger) :
    Tx.wp (checkCleanup env request) (fun _ t' => t' = t) (fun _ => True) t := by
  unfold checkCleanup
  cases request.cleanup with
  | none => exact rfl
  | some c =>
    rw [Tx.wp_bind, Tx.wp_need]
    refine ⟨fun p _ => ?_, fun _ => trivial⟩
    rw [Tx.wp_require]
    exact ⟨fun _ => rfl, fun _ => trivial⟩

/-- **A reservation that commits is a `Reservation`.** -/
theorem wp_startEffect (env : EffectEnv) (actor : Actor) (request : EffectCheckInput)
    {t : EffectLedger} (hids : (t.grants.map EffectGrant.id).Nodup) :
    Tx.wp (startEffect fnmatchcase env actor request)
      (fun _ => Reservation fnmatchcase env actor request t) (fun _ => True) t := by
  unfold startEffect startEffectTx
  rw [Tx.wp_bind]
  have hrole : Tx.wp (Tx.when (actor.id ≠ request.principalId) (requireCao env actor))
      (fun _ t' => t' = t) (fun _ => True) t := by
    rw [Tx.wp_when]
    exact ⟨fun _ => wp_requireCao env actor t, fun _ => rfl⟩
  refine Tx.wp_mono hrole (fun _ t₁ h₁ => ?_) fun _ h => h
  rw [h₁, Tx.wp_bind]
  refine Tx.wp_mono (wp_checkCleanup env request t) (fun _ t₂ h₂ => ?_) fun _ h => h
  rw [h₂, Tx.wp_bind]
  refine Tx.wp_mono (wp_effectDecision fnmatchcase env request t) (fun d t₃ h₃ => ?_) fun _ h => h
  obtain ⟨h₃, hallow⟩ := h₃
  rw [h₃]
  cases d with
  | verifyRemote id => trivial
  | approvalRequired => trivial
  | allow grantId =>
    obtain ⟨hfenced, hauthority⟩ := hallow grantId rfl
    rcases hauthority with ⟨rfl, hlocal⟩ | ⟨g, hg, rfl, hauthorizes⟩
    · refine Tx.wp_mono (wp_reserveEffect env actor request none t) (fun _ t' h => ?_) fun _ h => h
      obtain ⟨hfresh, rfl⟩ := h
      exact ⟨hfenced, hfresh, rfl, .inl ⟨hlocal, rfl, rfl⟩⟩
    · show Tx.wp (consumeGrant env g.id >>= _) _ _ _
      rw [Tx.wp_bind]
      refine Tx.wp_mono (wp_consumeGrant env (t.grant?_eq hids hg)) (fun _ t₄ h₄ => ?_)
        fun _ h => h
      have hops : t₄.operations = t.operations := by
        rw [h₄, EffectLedger.charge]
        split <;> rfl
      have hevents : t₄.events = t.events := by
        rw [h₄, EffectLedger.charge]
        split <;> rfl
      refine Tx.wp_mono (wp_reserveEffect env actor request (some g.id) t₄) (fun _ t' h => ?_)
        fun _ h => h
      obtain ⟨hfresh, rfl⟩ := h
      rw [hops] at hfresh
      exact ⟨hfenced, hfresh, by rw [hevents], .inr ⟨g, hg, hauthorizes, by rw [h₄], by rw [hops]⟩⟩

end Reservation

/-! ## What a step does to the tables -/

namespace Effects

variable (fnmatchcase : String → String → Bool)

/-- **What one step does to the tables.** Where nothing is said of a table it
is unchanged. -/
inductive Change (t : EffectLedger) : Event → EffectLedger → Prop where
  | recorded (e : Event) (events : List EffectEvent) : Change t e { t with events := events }
  | started {t' : EffectLedger} (env : EffectEnv) (actor : Actor) (request : EffectCheckInput)
      (h : Reservation fnmatchcase env actor request t t') :
      Change t (.start env actor request) t'
  | granted (e : Event) (g : EffectGrant) (events : List EffectEvent)
      (fresh : ∀ g' ∈ t.grants, g'.id ≠ g.id) :
      Change t e { t with grants := g :: t.grants, events := events }
  | revoked (e : Event) (id : EffectGrantId) (events : List EffectEvent)
      (unused : ∀ o ∈ t.operations, o.grantId ≠ some id) :
      Change t e
        { t with grants := t.grants.filter fun g => decide (g.id ≠ id), events := events }
  | resolved (env : EffectEnv) (c : EffectCaller) (id : EffectOperationId)
      (r : EffectResolveInput) (events : List EffectEvent) (hc : c.pending = some (.resolve id r)) :
      Change t (.write env c) { t.resolve env.now id r with events := events }

variable {fnmatchcase}

theorem Change.refl (t : EffectLedger) (e : Event) : Change fnmatchcase t e t := .recorded e t.events

/-- The write transaction of a call that read first. -/
theorem change_of_writes (env : EffectEnv) (c : EffectCaller) (call : EffectCall)
    (hc : c.pending = some call) (t : EffectLedger) :
    Tx.wp (call.writes env c.actor) (fun _ t' => Change fnmatchcase t (.write env c) t')
      (fun _ => True) t := by
  unfold EffectCall.writes
  cases call with
  | grant request =>
    show Tx.wp (get >>= _) _ _ _
    rw [Tx.wp_bind, Tx.wp_get, Tx.wp_bind, Tx.wp_require]
    exact ⟨fun h => .granted _ (request.grant env.newId env.now) _ h.1, fun _ => trivial⟩
  | revoke id =>
    show Tx.wp (get >>= _) _ _ _
    rw [Tx.wp_bind, Tx.wp_get, Tx.wp_bind, Tx.wp_require]
    refine ⟨fun h => ?_, fun _ => trivial⟩
    by_cases hknown : ∃ g ∈ t.grants, g.id = id
    · exact .revoked _ id _ (h hknown)
    · -- nothing is deleted where no grant has the identifier
      have hsame : t.grants.filter (fun g => decide (g.id ≠ id)) = t.grants := by
        rw [List.filter_eq_self]
        intro g hg
        simpa using fun h => hknown ⟨g, hg, h⟩
      show Change _ t _ { t with grants := t.grants.filter fun g => decide (g.id ≠ id), events := _ }
      rw [hsame]
      exact .recorded _ _
  | resolve id request =>
    show Tx.wp (get >>= _) _ _ _
    rw [Tx.wp_bind, Tx.wp_get, Tx.wp_bind, Tx.wp_require]
    exact ⟨fun _ => .resolved env c id request _ hc, fun _ => trivial⟩

/-- **Every step is a `Change`.** -/
theorem change_of_step {s s' : Effects} {e : Event}
    (hids : (s.ledger.grants.map EffectGrant.id).Nodup)
    (h : step fnmatchcase s e = some s') : Change fnmatchcase s.ledger e s'.ledger := by
  cases e with
  | start env actor request =>
    obtain rfl := Option.some.inj h
    have hwp := wp_startEffect fnmatchcase env actor request hids
    show Change fnmatchcase _ _ (Tx.commit _ s.ledger)
    unfold Tx.commit
    cases hrun : startEffect fnmatchcase env actor request s.ledger with
    | ok r => exact .started env actor request (Tx.of_wp hwp hrun)
    | error _ => exact .refl _ _
  | check env actor call =>
    obtain ⟨_, rfl⟩ := TransitionSystem.of_guarded h
    exact .refl _ _
  | recover actor =>
    obtain rfl := Option.some.inj h
    exact .refl _ _
  | next env c =>
    simp only [step] at h
    split at h
    next =>
      obtain ⟨_, rfl⟩ := TransitionSystem.of_guarded h
      exact .refl _ _
    next => exact nomatch h
  | write env c =>
    simp only [step] at h
    split at h
    next call hc =>
      obtain ⟨_, rfl⟩ := TransitionSystem.of_guarded h
      show Change fnmatchcase _ _ (Tx.commit _ s.ledger)
      unfold Tx.commit
      cases hrun : call.writes env c.actor s.ledger with
      | ok r => exact Tx.of_wp (change_of_writes env c call hc s.ledger) hrun
      | error _ => exact .refl _ _
    next => exact nomatch h
  | crash c =>
    obtain ⟨_, rfl⟩ := TransitionSystem.of_guarded h
    exact .refl _ _

end Effects
