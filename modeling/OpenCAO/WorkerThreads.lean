import OpenCAO.Launches
import OpenCAO.ThreadLedger

/-!
# Threads of managed Workers

A managed Worker is one *thread* for its supervisor, however often its process has to be
replaced. The thread points at a *specification*, which names the runtime and the enrollment
that are current, and every runtime it has had is an *epoch* of it. Two numbers are counted:
the generation of the thread, which changes when the thread is finished or resumed, and the
connection generation inside of it, which changes when a runtime is replaced while the
thread goes on.

The operations of this module move these tables together with those of the launches and with
the ledger. The launches go on between them, and after them, in any order: a process of an
earlier epoch may still come with its ticket or its credential, a dispatcher may still write
the outcome of its turn, a lease may still run out.
-/

namespace Launches

/-! ## Statements on launches -/

/-- The runtime is over. -/
def RuntimeState.Over (r : RuntimeState) : Prop := r = .failed ∨ r = .missing ∨ r = .stopped

instance (r : RuntimeState) : Decidable r.Over := inferInstanceAs (Decidable (_ ∨ _ ∨ _))

/-- The enrollment has authority, or could still get it. -/
def Store.Competes (s : Store) (e : Enrollment) : Prop :=
  ¬ e.state.Terminal ∨ (∃ k ∈ s.credentials.rows, k.enrollment = e.id ∧ k.state = .active) ∨
    ∃ t ∈ s.tickets.rows, t.enrollment = e.id ∧ t.state = .pending

instance (s : Store) (e : Enrollment) : Decidable (s.Competes e) :=
  inferInstanceAs (Decidable (_ ∨ _ ∨ _))

/-- An enrollment is revoked, also one that has failed. -/
def Enrollment.revoke (ids : List String) (e : Enrollment) : Enrollment :=
  if e.id ∈ ids then
    { e with
      state := .revoked
      generation := if e.state = .revoked then e.generation else e.generation + 1 }
  else e

/-- Credentials of these enrollments are revoked. -/
def Credential.revoke (ids : List String) (k : Credential) : Credential :=
  if k.enrollment ∈ ids ∧ k.state = .active then { k with state := .revoked } else k

/-- Tickets of these enrollments are revoked. -/
def Ticket.revoke (ids : List String) (t : Ticket) : Ticket :=
  if t.enrollment ∈ ids ∧ t.state = .pending then { t with state := .revoked } else t

/-- The authority of routes is taken back, and their runtimes are stopped. -/
def revokeRoutes (enrollmentIds runtimeIds : List String) : Tx Store Error PUnit := do
  updateEnrollments (Enrollment.revoke enrollmentIds)
  updateCredentials (Credential.revoke enrollmentIds)
  updateTickets (Ticket.revoke enrollmentIds)
  updateRuntimes fun r => if r.id ∈ runtimeIds then { r with state := .stopped } else r

/-- What ends the route of a turn that was completed. -/
def spendRoute (enrollmentId runtimeId : String) : Tx Store Error PUnit := do
  updateCredentials (Credential.ended enrollmentId .revoked)
  updateEnrollments fun e =>
    if e.id = enrollmentId ∧ ¬ e.state.Terminal then { e with state := .revoked } else e
  updateRuntimes fun r =>
    if r.id = runtimeId ∧ ¬ r.state.Over then { r with state := .stopped } else r

end Launches

namespace WorkerThreads

/-! ## Tables -/

inductive SpecState
  | enabled
  | stopped
  | revoked
  deriving DecidableEq, Repr

inductive WorkerThreadState
  | active
  | archived
  | legacyStopped
  deriving DecidableEq, Repr

/-- A row of `managed_worker_specs`. -/
structure Spec where
  id : String
  attachmentId : String
  attachmentGeneration : ℕ
  principalId : String
  runtimeSessionId : String
  enrollmentId : String
  state : SpecState
  inputDigest : String
  idempotencyKey : String
  deriving DecidableEq, Repr

/-- A row of `managed_worker_threads`. -/
structure Thread where
  id : String
  managedSpecId : String
  state : WorkerThreadState
  generation : ℕ
  deriving DecidableEq, Repr

/-- A row of `managed_worker_thread_epochs`. -/
structure Epoch where
  id : String
  threadId : String
  generation : ℕ
  connectionGeneration : ℕ
  runtimeSessionId : String
  enrollmentId : String
  retiredAt : Option ℕ
  deriving DecidableEq, Repr

inductive Operation
  | newWorkerThread
  | instructWorkerThread
  | finishWorkerThread
  | resumeWorkerThread
  | deleteWorkerThread
  deriving DecidableEq, Repr

/-- What a command asks for. Digests of requests are compared, so that the request itself is
kept here. -/
structure Request where
  attachmentId : String
  workerThreadId : String
  expectedGeneration : Option ℕ
  idempotencyKey : String
  body : String
  deriving DecidableEq, Repr

/-- The state in an answer; a thread that is deleted has no row any more. -/
inductive AnsweredState
  | of (state : WorkerThreadState)
  | deleted
  deriving DecidableEq, Repr

/-- `_worker_thread_result`. -/
structure Answer where
  workerThreadId : String
  threadState : AnsweredState
  threadGeneration : ℕ
  deriving DecidableEq, Repr

/-- A row of `idempotency_results`. -/
structure ResultRow where
  actorId : String
  operation : Operation
  idempotencyKey : String
  request : Request
  result : Answer
  deriving DecidableEq, Repr

/-- The columns that are unique. -/
def Spec.Clash (a b : Spec) : Prop :=
  a.id = b.id ∨ a.principalId = b.principalId ∨ a.runtimeSessionId = b.runtimeSessionId ∨
    a.enrollmentId = b.enrollmentId ∨
    a.attachmentId = b.attachmentId ∧ a.attachmentGeneration = b.attachmentGeneration ∧
      (a.inputDigest = b.inputDigest ∨ a.idempotencyKey = b.idempotencyKey)

def Thread.Clash (a b : Thread) : Prop := a.id = b.id ∨ a.managedSpecId = b.managedSpecId

/-- The keys, and `managed_worker_thread_epochs_one_current`. -/
def Epoch.Clash (a b : Epoch) : Prop :=
  a.id = b.id ∨ a.runtimeSessionId = b.runtimeSessionId ∨ a.enrollmentId = b.enrollmentId ∨
    a.threadId = b.threadId ∧
      (a.generation = b.generation ∧ a.connectionGeneration = b.connectionGeneration ∨
        a.retiredAt = none ∧ b.retiredAt = none)

def ResultRow.Clash (a b : ResultRow) : Prop :=
  a.actorId = b.actorId ∧ a.operation = b.operation ∧ a.idempotencyKey = b.idempotencyKey

instance : DecidableRel Spec.Clash := fun _ _ => inferInstanceAs (Decidable (_ ∨ _))

instance : DecidableRel Thread.Clash := fun _ _ => inferInstanceAs (Decidable (_ ∨ _))

instance : DecidableRel Epoch.Clash := fun _ _ => inferInstanceAs (Decidable (_ ∨ _))

instance : DecidableRel ResultRow.Clash := fun _ _ => inferInstanceAs (Decidable (_ ∧ _))

/-- **The store.** -/
structure Store where
  launches : Launches.Store
  ledger : Ledger
  specs : UniqueRows Spec Spec.Clash
  threads : UniqueRows Thread Thread.Clash
  epochs : UniqueRows Epoch Epoch.Clash
  results : UniqueRows ResultRow ResultRow.Clash

def Store.empty : Store := ⟨.empty, .empty, .empty, .empty, .empty, .empty⟩

/-! ## Statements -/

namespace Store

def spec? (s : Store) (id : String) : Option Spec := s.specs.find? fun c => c.id = id

def thread? (s : Store) (id : String) : Option Thread := s.threads.find? fun t => t.id = id

/-- The epoch that is current. -/
def epoch? (s : Store) (t : Thread) : Option Epoch :=
  s.epochs.find? fun p => p.threadId = t.id ∧ p.generation = t.generation ∧ p.retiredAt = none

def epochsOf (s : Store) (threadId : String) : List Epoch :=
  s.epochs.rows.filter fun p => p.threadId = threadId

def result? (s : Store) (actorId : String) (operation : Operation) (key : String) :
    Option ResultRow :=
  s.results.find? fun r =>
    r.actorId = actorId ∧ r.operation = operation ∧ r.idempotencyKey = key

end Store

/-- Statements on the tables of the launches. -/
def launching (m : Tx Launches.Store Launches.Error PUnit) : Tx Store Error PUnit := do
  let s ← get
  match m s.launches with
  | .ok r => set { s with launches := r.2 }
  | .error _ => throw .integrity

def insertSpec (c : Spec) : Tx Store Error PUnit := do
  let s ← get
  let specs ← Tx.need (s.specs.insert c) .integrity
  set { s with specs := specs }

def insertThread (t : Thread) : Tx Store Error PUnit := do
  let s ← get
  let threads ← Tx.need (s.threads.insert t) .integrity
  set { s with threads := threads }

def insertEpoch (p : Epoch) : Tx Store Error PUnit := do
  let s ← get
  let epochs ← Tx.need (s.epochs.insert p) .integrity
  set { s with epochs := epochs }

def updateSpecs (f : Spec → Spec) : Tx Store Error PUnit := do
  let s ← get
  let specs ← Tx.need (s.specs.update f) .integrity
  set { s with specs := specs }

def updateThreads (f : Thread → Thread) : Tx Store Error PUnit := do
  let s ← get
  let threads ← Tx.need (s.threads.update f) .integrity
  set { s with threads := threads }

def updateEpochs (f : Epoch → Epoch) : Tx Store Error PUnit := do
  let s ← get
  let epochs ← Tx.need (s.epochs.update f) .integrity
  set { s with epochs := epochs }

/-- `_idempotent_get_tx`. -/
def recorded (actorId : String) (operation : Operation) (request : Request) :
    Tx Store Error (Option Answer) := do
  let s ← get
  match s.result? actorId operation request.idempotencyKey with
  | none => pure none
  | some r =>
    Tx.require (r.request = request) (.conflict .idempotency)
    pure (some r.result)

/-- `_idempotent_put`. -/
def record (actorId : String) (operation : Operation) (request : Request) (result : Answer) :
    Tx Store Error PUnit := do
  let s ← get
  match s.result? actorId operation request.idempotencyKey with
  | some r => Tx.require (r.request = request) (.conflict .idempotency)
  | none =>
    let results ← Tx.need
      (s.results.insert ⟨actorId, operation, request.idempotencyKey, request, result⟩) .integrity
    set { s with results := results }

/-! ## Routes -/

/-- `_revoke_worker_thread_epochs_tx`. -/
def revokeWorkerThreadEpochs (threadId : String) : Tx Store Error PUnit := do
  let s ← get
  launching (Launches.revokeRoutes ((s.epochsOf threadId).map Epoch.enrollmentId)
    ((s.epochsOf threadId).map Epoch.runtimeSessionId))

/-- A runtime and an enrollment for the next epoch. -/
structure Route where
  runtimeId : String
  enrollmentId : String
  epochId : String
  deriving DecidableEq, Repr

def enrollRoute (σ : Launches.Settings) (n : Route) (principalId : String) (now : ℕ) :
    Tx Store Error PUnit :=
  launching (Launches.enroll σ ⟨n.runtimeId, n.enrollmentId, principalId, 86400, now⟩)

/-- The epochs of a thread that are current are retired. -/
def Epoch.retire (threadId : String) (now : ℕ) (p : Epoch) : Epoch :=
  if p.threadId = threadId ∧ p.retiredAt = none then { p with retiredAt := some now } else p

/-- A thread enters a state, and its next generation, if it is as it was read. The source counts
the rows of such an update; in the transaction that has read the row it is always one. -/
def Thread.enter (t : Thread) (before after : WorkerThreadState) (u : Thread) : Thread :=
  if u.id = t.id ∧ u.state = before ∧ u.generation = t.generation then
    { u with state := after, generation := t.generation + 1 }
  else u

/-- `_retire_managed_worker_thread_tx`. -/
def retireManagedWorkerThread (managedSpecId : String) (finalState : WorkerThreadState)
    (now : ℕ) : Tx Store Error PUnit := do
  let s ← get
  match s.threads.find? fun t => t.managedSpecId = managedSpecId with
  | none => pure ⟨⟩
  | some t =>
    Tx.when (t.state ≠ finalState) do
      Tx.require (t.state = .active) (.conflict .workerThreadStateConflict)
      updateEpochs (Epoch.retire t.id now)
      updateThreads (Thread.enter t .active finalState)

/-! ## Who asks, and for which thread -/

/-- A conversation that gives commands. -/
structure Caller where
  id : String
  attachmentId : String
  attachmentGeneration : ℕ
  /-- It has the role, and is attached. -/
  attached : Bool
  /-- `_require_current_cao_attachment_actor_tx` accepts it. -/
  current : Bool
  deriving DecidableEq, Repr

def requireCaller (c : Caller) : Tx Store Error PUnit := do
  Tx.require (c.attached = true) .authorization
  Tx.require (c.current = true) .authorization

/-- What a command reads of its thread. -/
structure ThreadRow where
  thread : Thread
  spec : Spec
  principal : Principal
  source : Attachment
  epoch : Option Epoch
  deriving DecidableEq, Repr

namespace Store

/-- The rows that both queries join: the thread, its specification and principal, and the
attachment it was made for, when it is of the project of the caller. -/
def threadRow? (s : Store) (c : Caller) (threadId : String) (active : Bool) :
    Option ThreadRow := do
  let t ← s.thread? threadId
  let spec ← s.spec? t.managedSpecId
  let principal ← s.ledger.principals.find? fun p => p.id = spec.principalId
  let source ← s.ledger.attachments.find? fun a =>
    a.id = spec.attachmentId ∧ a.principalId = c.id
  let _ ← s.ledger.attachments.find? fun a =>
    a.id = c.attachmentId ∧ a.principalId = c.id ∧ a.generation = c.attachmentGeneration ∧
      a.projectScopeDigest = source.projectScopeDigest ∧ (active = true → a.active = true)
  pure ⟨t, spec, principal, source, s.epoch? t⟩

/-- `_managed_worker_thread_tx`. -/
def managedWorkerThread? (s : Store) (c : Caller) (threadId : String) : Option ThreadRow :=
  s.threadRow? c threadId true

/-- `_managed_worker_thread_for_delete_tx`. -/
def managedWorkerThreadForDelete? (s : Store) (c : Caller) (threadId : String) :
    Option ThreadRow := do
  let row ← s.threadRow? c threadId false
  let r ← s.launches.runtime? row.spec.runtimeSessionId
  let e ← s.launches.enrollment? row.spec.enrollmentId
  if r.principal = row.spec.principalId ∧ e.principal = row.spec.principalId ∧
      e.runtime = row.spec.runtimeSessionId then
    pure row
  else none

end Store

/-- `_require_worker_thread_generation`. -/
def requireWorkerThreadGeneration (t : Thread) (expected : Option ℕ) : Tx Store Error PUnit :=
  Tx.require (∀ generation ∈ expected, t.generation = generation)
    (.conflict .workerThreadGenerationConflict)

/-! ## A new thread -/

structure CreateCall where
  caller : Caller
  request : Request
  /-- The profile permits what is asked for. -/
  permitted : Bool
  inputDigest : String
  specId : String
  principalId : String
  threadId : String
  route : Route
  now : ℕ
  deriving DecidableEq, Repr

def insertPrincipal (p : Principal) : Tx Store Error PUnit := do
  let s ← get
  let principals ← Tx.need (s.ledger.principals.insert p) .integrity
  set { s with ledger := { s.ledger with principals := principals } }

/-- `_create_managed_worker_thread_tx`. -/
def createManagedWorkerThread (σ : Launches.Settings) (c : CreateCall) :
    Tx Store Error Answer := do
  Tx.require (c.permitted = true) .other
  let s ← get
  Tx.require (∃ a ∈ s.ledger.attachments, a.id = c.caller.attachmentId ∧
    a.principalId = c.caller.id ∧ a.generation = c.caller.attachmentGeneration ∧
    a.active = true) .authorization
  match s.specs.find? fun spec =>
      spec.attachmentId = c.caller.attachmentId ∧
        spec.attachmentGeneration = c.caller.attachmentGeneration ∧
        spec.idempotencyKey = c.request.idempotencyKey with
  | some spec =>
    Tx.require (spec.inputDigest = c.inputDigest) (.conflict .idempotency)
    let t ← Tx.need (s.threads.find? fun t => t.managedSpecId = spec.id) .other
    pure ⟨t.id, .of t.state, t.generation⟩
  | none =>
    insertPrincipal ⟨c.principalId, .worker, true⟩
    enrollRoute σ c.route c.principalId c.now
    insertSpec
      { id := c.specId
        attachmentId := c.caller.attachmentId
        attachmentGeneration := c.caller.attachmentGeneration
        principalId := c.principalId
        runtimeSessionId := c.route.runtimeId
        enrollmentId := c.route.enrollmentId
        state := .enabled
        inputDigest := c.inputDigest
        idempotencyKey := c.request.idempotencyKey }
    insertThread ⟨c.threadId, c.specId, .active, 1⟩
    insertEpoch ⟨c.route.epochId, c.threadId, 1, 1, c.route.runtimeId, c.route.enrollmentId, none⟩
    pure ⟨c.threadId, .of .active, 1⟩

/-- `new_worker_thread`. -/
def newWorkerThread (σ : Launches.Settings) (c : CreateCall) : Tx Store Error Answer := do
  requireCaller c.caller
  match ← recorded c.caller.id .newWorkerThread c.request with
  | some answer => pure answer
  | none =>
    let answer ← createManagedWorkerThread σ c
    record c.caller.id .newWorkerThread c.request answer
    pure answer

/-! ## Commands to a thread that goes on -/

/-- What is found of the lane of a Worker. -/
inductive Lane
  /-- An Attempt of it is executing, or the Assignment was never claimed: the route stays. -/
  | executing
  /-- An outcome is not settled. -/
  | unsettled
  /-- `_bind_ready_worker_runtime_tx` accepts the runtime. -/
  | bound
  /-- It does not. -/
  | unbound
  deriving DecidableEq, Repr

/-- A command to a managed Worker, as far as its admission goes. -/
structure Command where
  caller : Caller
  workerId : String
  workerThreadId : String
  /-- The generation that the Work is bound to. -/
  storedGeneration : Option ℕ
  expectedGeneration : Option ℕ
  lane : Lane
  route : Route
  now : ℕ
  deriving DecidableEq, Repr

/-- The row is the epoch `p`, and current. -/
def Epoch.IsCurrent (p q : Epoch) : Prop :=
  q.id = p.id ∧ q.threadId = p.threadId ∧ q.generation = p.generation ∧
    q.connectionGeneration = p.connectionGeneration ∧ q.retiredAt = none

instance (p q : Epoch) : Decidable (p.IsCurrent q) :=
  inferInstanceAs (Decidable (_ ∧ _ ∧ _ ∧ _ ∧ _))

/-- The row is the specification that points at the epoch. -/
def Epoch.PointedBy (p : Epoch) (specId : String) (c : Spec) : Prop :=
  c.id = specId ∧ c.state = .enabled ∧ c.runtimeSessionId = p.runtimeSessionId ∧
    c.enrollmentId = p.enrollmentId

instance (p : Epoch) (specId : String) (c : Spec) : Decidable (p.PointedBy specId c) :=
  inferInstanceAs (Decidable (_ ∧ _ ∧ _ ∧ _))

/-- Retire one epoch, if it is still current. -/
def retireEpoch (p : Epoch) (now : ℕ) (reason : Reason) : Tx Store Error PUnit := do
  let s ← get
  Tx.require (∃ q ∈ s.epochs.rows, p.IsCurrent q) (.conflict reason)
  updateEpochs fun q => if p.IsCurrent q then { q with retiredAt := some now } else q

/-- Point the specification at the next route, if it still points at the epoch. -/
def repointSpec (specId : String) (p : Epoch) (n : Route) (reason : Reason) :
    Tx Store Error PUnit := do
  let s ← get
  Tx.require (∃ c ∈ s.specs.rows, p.PointedBy specId c) (.conflict reason)
  updateSpecs fun c =>
    if p.PointedBy specId c then
      { c with runtimeSessionId := n.runtimeId, enrollmentId := n.enrollmentId }
    else c

/-- The epoch that follows another one in its generation. -/
def Epoch.next (p : Epoch) (n : Route) : Epoch :=
  ⟨n.epochId, p.threadId, p.generation, p.connectionGeneration + 1, n.runtimeId, n.enrollmentId,
    none⟩

/-- `_advance_worker_thread_connection_tx`, of a runtime that could not be bound. -/
def advanceWorkerThreadConnection (σ : Launches.Settings) (c : Command) (row : ThreadRow) :
    Tx Store Error ThreadRow := do
  let p ← Tx.need (row.epoch.filter fun p => 1 ≤ p.connectionGeneration)
    (.conflict .workerConnectionRecoveryRequired)
  retireEpoch p c.now .workerConnectionGenerationConflict
  launching (Launches.revokeRoutes [p.enrollmentId] [p.runtimeSessionId])
  enrollRoute σ c.route row.spec.principalId c.now
  insertEpoch (p.next c.route)
  repointSpec row.spec.id p c.route .workerConnectionGenerationConflict
  let s ← get
  Tx.need (s.managedWorkerThread? c.caller c.workerThreadId) .notFound

/-- `_admit_managed_worker_command_tx`, of a command that has selected its thread. -/
def admitManagedWorkerCommand (σ : Launches.Settings) (c : Command) :
    Tx Store Error ThreadRow := do
  let s ← get
  let row ← Tx.need (s.managedWorkerThread? c.caller c.workerThreadId) .notFound
  Tx.require (row.spec.principalId = c.workerId ∧ row.thread.state = .active ∧
    row.spec.state = .enabled ∧ ∃ p ∈ row.epoch, row.spec.runtimeSessionId = p.runtimeSessionId ∧
      row.spec.enrollmentId = p.enrollmentId) (.conflict .workerCommandBindingConflict)
  Tx.require (∀ generation ∈ c.storedGeneration.or c.expectedGeneration,
    row.thread.generation = generation) (.conflict .workerCommandGenerationConflict)
  Tx.require (∀ stored ∈ c.storedGeneration, ∀ expected ∈ c.expectedGeneration, stored = expected)
    (.conflict .workerCommandGenerationConflict)
  match c.lane with
  | .executing => pure row
  | .unsettled => throw (.conflict .workerCommandOutcomeUnsettled)
  | .bound => pure row
  | .unbound => advanceWorkerThreadConnection σ c row

/-- What the rest of a command makes of the ledger, or nothing where it raises. -/
abbrev Assignment := Ledger → Option Ledger

def assign (f : Assignment) : Tx Store Error PUnit := do
  let s ← get
  let ledger ← Tx.need (f s.ledger) .other
  set { s with ledger := ledger }

/-- A command about a Work that is there: to continue, to correct, to retry or to resume it. -/
def commandWorkerThread (σ : Launches.Settings) (c : Command) (f : Assignment) :
    Tx Store Error PUnit := do
  let _ ← admitManagedWorkerCommand σ c
  assign f

structure InstructCall where
  request : Request
  command : Command
  assignment : Assignment

/-- `instruct_worker_thread`. -/
def instructWorkerThread (σ : Launches.Settings) (c : InstructCall) : Tx Store Error Answer := do
  requireCaller c.command.caller
  let s ← get
  let row ← Tx.need (s.managedWorkerThread? c.command.caller c.request.workerThreadId) .notFound
  match ← recorded c.command.caller.id .instructWorkerThread c.request with
  | some answer => pure answer
  | none =>
    requireWorkerThreadGeneration row.thread c.request.expectedGeneration
    Tx.require (row.thread.state = .active ∧ row.spec.state = .enabled ∧ row.epoch ≠ none)
      (.conflict .workerThreadStateConflict)
    let _ ← admitManagedWorkerCommand σ
      { c.command with
        workerId := row.spec.principalId
        workerThreadId := row.thread.id
        storedGeneration := none
        expectedGeneration := c.request.expectedGeneration }
    assign c.assignment
    let answer : Answer := ⟨row.thread.id, .of .active, row.thread.generation⟩
    record c.command.caller.id .instructWorkerThread c.request answer
    pure answer

/-! ## Ends of threads -/

structure LifecycleCall where
  caller : Caller
  request : Request
  /-- The Boundaries whose opening event is the one expected. -/
  opened : List String
  route : Route
  now : ℕ
  deriving DecidableEq, Repr

/-- `_terminalize_worker_thread_for_delete_tx`. -/
def terminalizeWorkerThread (c : LifecycleCall) (row : ThreadRow)
    (finalState : WorkerThreadState) (blocked : Reason) (reasonCode : String) :
    Tx Store Error PUnit := do
  Tx.require (row.principal.role = .worker) (.conflict blocked)
  let s ← get
  Tx.require (∀ spec ∈ s.specs.rows, spec.principalId = row.spec.principalId →
    spec.id = row.spec.id ∧ ∃ t ∈ s.threads.rows, t.managedSpecId = spec.id ∧
      t.id = row.thread.id) (.conflict blocked)
  Tx.within Store.ledger (fun l s => { s with ledger := l }) (settleWorkerWork
    { actorId := c.caller.id
      principalId := row.spec.principalId
      projectScopeDigest := row.source.projectScopeDigest
      runtimeIds := (s.epochsOf row.thread.id).map Epoch.runtimeSessionId
      opened := c.opened
      blocked := blocked
      reasonCode := reasonCode
      now := c.now })
  revokeWorkerThreadEpochs row.thread.id
  updateEpochs (Epoch.retire row.thread.id c.now)
  Tx.when (row.thread.state = .active) do
    updateSpecs fun spec => if spec.id = row.spec.id then { spec with state := .stopped } else spec
    retireManagedWorkerThread row.spec.id finalState c.now

/-- The generation after the thread was terminalized. -/
def Thread.ended (t : Thread) : ℕ := if t.state = .active then t.generation + 1 else t.generation

/-- `finish_worker_thread`. -/
def finishWorkerThread (c : LifecycleCall) : Tx Store Error Answer := do
  requireCaller c.caller
  let s ← get
  let row ← Tx.need (s.managedWorkerThreadForDelete? c.caller c.request.workerThreadId) .notFound
  match ← recorded c.caller.id .finishWorkerThread c.request with
  | some answer => pure answer
  | none =>
    requireWorkerThreadGeneration row.thread c.request.expectedGeneration
    Tx.require (row.thread.state = .active) (.conflict .workerThreadStateConflict)
    terminalizeWorkerThread c row .archived .workerThreadFinishBlocked "worker_thread_finished"
    let answer : Answer := ⟨row.thread.id, .of .archived, row.thread.ended⟩
    record c.caller.id .finishWorkerThread c.request answer
    pure answer

/-- `resume_worker_thread`. -/
def resumeWorkerThread (σ : Launches.Settings) (c : LifecycleCall) : Tx Store Error Answer := do
  requireCaller c.caller
  let s ← get
  let row ← Tx.need (s.managedWorkerThread? c.caller c.request.workerThreadId) .notFound
  match ← recorded c.caller.id .resumeWorkerThread c.request with
  | some answer => pure answer
  | none =>
    requireWorkerThreadGeneration row.thread c.request.expectedGeneration
    Tx.require (row.thread.state = .archived ∧ row.spec.state = .stopped)
      (.conflict .workerThreadStateConflict)
    Tx.require (∀ p ∈ s.epochsOf row.thread.id, p.retiredAt ≠ none)
      (.conflict .workerThreadStateConflict)
    Tx.require (s.epochsOf row.thread.id ≠ []) (.conflict .workerThreadStateConflict)
    revokeWorkerThreadEpochs row.thread.id
    enrollRoute σ c.route row.spec.principalId c.now
    insertEpoch ⟨c.route.epochId, row.thread.id, row.thread.generation + 1, 1, c.route.runtimeId,
      c.route.enrollmentId, none⟩
    updateSpecs fun spec =>
      if spec.id = row.spec.id ∧ spec.state = .stopped then
        { spec with
          runtimeSessionId := c.route.runtimeId
          enrollmentId := c.route.enrollmentId
          state := .enabled }
      else spec
    updateThreads (row.thread.enter .archived .active)
    let answer : Answer := ⟨row.thread.id, .of .active, row.thread.generation + 1⟩
    record c.caller.id .resumeWorkerThread c.request answer
    pure answer

/-- `_delete_worker_thread_ledger_tx`. The epochs go with their thread. -/
def deleteWorkerThreadLedger (c : LifecycleCall) (row : ThreadRow) : Tx Store Error Answer := do
  let s ← get
  Tx.require (∀ p ∈ s.epochsOf row.thread.id, p.retiredAt ≠ none)
    (.conflict .workerThreadDeleteBlocked)
  revokeWorkerThreadEpochs row.thread.id
  updateSpecs fun spec => if spec.id = row.spec.id then { spec with state := .revoked } else spec
  modify fun s =>
    { s with
      ledger :=
        { s.ledger with
          principals := s.ledger.principals.map
            (fun p => if p.id = row.spec.principalId then { p with enabled := false } else p)
            fun a b h => by
              show a.id = b.id
              have h : (if a.id = row.spec.principalId then { a with enabled := false } else a).id =
                (if b.id = row.spec.principalId then { b with enabled := false } else b).id := h
              split at h <;> split at h <;> exact h } }
  let answer : Answer := ⟨row.thread.id, .deleted, row.thread.ended + 1⟩
  record c.caller.id .deleteWorkerThread c.request answer
  let s ← get
  Tx.require (∃ t ∈ s.threads.rows, t.id = row.thread.id ∧ t.generation = row.thread.ended)
    (.conflict .workerThreadGenerationConflict)
  set
    { s with
      threads := s.threads.delete fun t => t.id = row.thread.id
      epochs := s.epochs.delete fun p => p.threadId = row.thread.id }
  pure answer

/-- `delete_worker_thread`. A thread that is gone is only known by the record of its
deletion. -/
def deleteWorkerThread (c : LifecycleCall) : Tx Store Error Answer := do
  requireCaller c.caller
  let s ← get
  match s.thread? c.request.workerThreadId with
  | none =>
    let r ← Tx.need (s.result? c.caller.id .deleteWorkerThread c.request.idempotencyKey) .notFound
    Tx.require (r.request = c.request) .notFound
    pure r.result
  | some _ =>
    let row ← Tx.need (s.managedWorkerThreadForDelete? c.caller c.request.workerThreadId) .notFound
    match ← recorded c.caller.id .deleteWorkerThread c.request with
    | some answer => pure answer
    | none =>
      requireWorkerThreadGeneration row.thread c.request.expectedGeneration
      terminalizeWorkerThread c row .legacyStopped .workerThreadDeleteBlocked
        "worker_thread_deleted"
      deleteWorkerThreadLedger c row

/-! ## Recovery of a runtime that has failed -/

/-- A retry of an Attempt whose runtime is gone. -/
structure RecoveryCall where
  workerId : String
  runtimeSessionId : String
  /-- The thread that the Work is bound to. -/
  workerThreadId : String
  workerThreadGeneration : ℕ
  /-- The turn was completed without a report. -/
  completedTurn : Bool
  /-- The attachment, and what is proven of activity, deliveries and other Work. -/
  proven : Bool
  route : Route
  now : ℕ
  deriving DecidableEq, Repr

/-- `_runtime_recovery_retry_target_tx`. The four proofs of the source ask for a runtime that is
over, or waits after a turn that was completed, for an enrollment that is over or stale, or
ready after such a turn, and for no authority. -/
def runtimeRecoveryRetryTarget (σ : Launches.Settings) (c : RecoveryCall) :
    Tx Store Error PUnit := do
  let s ← get
  let spec ← Tx.need (s.specs.find? fun spec =>
    spec.runtimeSessionId = c.runtimeSessionId ∧ spec.principalId = c.workerId ∧
      spec.state = .enabled) (.conflict .workerInstructionOutcomeUnknown)
  let t ← Tx.need (s.threads.find? fun t =>
    t.managedSpecId = spec.id ∧ t.state = .active ∧ t.id = c.workerThreadId ∧
      t.generation = c.workerThreadGeneration) (.conflict .workerInstructionOutcomeUnknown)
  let p ← Tx.need ((s.epoch? t).filter fun p =>
    p.runtimeSessionId = spec.runtimeSessionId ∧ p.enrollmentId = spec.enrollmentId)
    (.conflict .workerInstructionOutcomeUnknown)
  let r ← Tx.need ((s.launches.runtime? c.runtimeSessionId).filter fun r =>
    r.principal = c.workerId) (.conflict .workerInstructionOutcomeUnknown)
  let e ← Tx.need ((s.launches.enrollmentOf? c.runtimeSessionId).filter fun e =>
    e.principal = c.workerId) (.conflict .workerInstructionOutcomeUnknown)
  Tx.require ((r.state.Over ∨ c.completedTurn = true ∧ r.state = .waiting) ∧
    (e.state.Terminal ∨ e.state = .stale ∨ c.completedTurn = true ∧ e.state = .ready) ∧
    (∀ k ∈ s.launches.credentials.rows, k.enrollment = e.id → k.state ≠ .active) ∧
    ∀ t ∈ s.launches.tickets.rows, t.enrollment = e.id → t.state ≠ .pending)
    (.conflict .workerInstructionOutcomeUnknown)
  Tx.require (c.proven = true) (.conflict .workerInstructionOutcomeUnknown)
  Tx.require (∀ e' ∈ s.launches.enrollments.rows, e'.principal = c.workerId →
    e'.id ≠ p.enrollmentId → ¬ s.launches.Competes e')
    (.conflict .workerInstructionOutcomeUnknown)
  Tx.when (c.completedTurn = true) (launching (Launches.spendRoute p.enrollmentId p.runtimeSessionId))
  retireEpoch p c.now .workerInstructionOutcomeUnknown
  enrollRoute σ c.route c.workerId c.now
  repointSpec spec.id p c.route .workerInstructionOutcomeUnknown
  insertEpoch (p.next c.route)

/-! ## The system -/

/-- What dispatchers write of a runtime. -/
inductive RuntimeWrite
  /-- A turn is reserved. -/
  | reserved (runtimeId : String)
  /-- A turn is over. -/
  | returned (runtimeId : String)
  /-- The result of a runtime that is not managed. -/
  | reported (runtimeId : String) (state : Launches.RuntimeState)
  deriving DecidableEq, Repr

def dispatch : RuntimeWrite → Tx Launches.Store Launches.Error PUnit
  | .reserved id => Launches.updateRuntimes fun r =>
      if r.id = id ∧ ¬ r.state.Over then { r with state := .busy } else r
  | .returned id => Launches.updateRuntimes fun r =>
      if r.id = id ∧ r.state = .busy then { r with state := .waiting } else r
  | .reported id state => do
      let s ← get
      Tx.require (∀ e ∈ s.enrollmentOf? id, e.managed = false) .conflict
      Launches.updateRuntimes (Launches.Runtime.setState id state)

inductive Event
  | launch (e : Launches.Event)
  /-- A runtime that is not of a managed Worker is registered. -/
  | register (r : Launches.Runtime)
  | dispatch (w : RuntimeWrite)
  /-- Other operations leave the ledger so. -/
  | ledger (l : Ledger)
  /-- Recorded results are pruned. -/
  | prune (old : ResultRow → Bool)
  | create (c : CreateCall)
  | instruct (c : InstructCall)
  | command (c : Command) (f : Assignment)
  | finish (c : LifecycleCall)
  | resume (c : LifecycleCall)
  | delete (c : LifecycleCall)
  | recover (c : RecoveryCall)

/-- What a call leaves. -/
def step (σ : Launches.Settings) (s : Store) : Event → Store
  | .launch e => { s with launches := Launches.step σ s.launches e }
  | .register r => Tx.commit (launching (Launches.insertRuntime r)) s
  | .dispatch w => Tx.commit (launching (dispatch w)) s
  | .ledger l => { s with ledger := l }
  | .prune old => { s with results := s.results.delete old }
  | .create c => Tx.commit (newWorkerThread σ c) s
  | .instruct c => Tx.commit (instructWorkerThread σ c) s
  | .command c f => Tx.commit (commandWorkerThread σ c f) s
  | .finish c => Tx.commit (finishWorkerThread c) s
  | .resume c => Tx.commit (resumeWorkerThread σ c) s
  | .delete c => Tx.commit (deleteWorkerThread c) s
  | .recover c => Tx.commit (runtimeRecoveryRetryTarget σ c) s

/-- **The calls of any number of parties**, in any order and at any time. -/
def system (σ : Launches.Settings) : TransitionSystem Store Event where
  init s := s = .empty
  step s e s' := s' = step σ s e

end WorkerThreads
