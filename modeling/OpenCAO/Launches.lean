import OpenCAO.Transaction
import OpenCAO.TransitionSystem
import OpenCAO.UniqueRows

/-!
# Launches of managed Workers

A managed Worker runs in a *runtime* that is enrolled. Every launch of its process is an
epoch of the enrollment: the launcher is issued a *ticket* for the next generation, the
bridge process exchanges it for a *credential* of this generation, and a process that
holds a credential of an earlier one is turned away wherever it comes back.

Four tables are moved by these operations, and the generation is compared with `+ 1` where
a ticket is used and with equality where a credential is. What the operations read of other
tables – the specification and the thread of a managed Worker, its Attempt, whether its
principal is enabled – is part of the call here, and so are the clock and what is drawn at
random. A call is one transaction; nothing is assumed of when it is made, nor of who makes
it.
-/

namespace Launches

/-! ## Tables -/

inductive RuntimeState
  | starting
  | ready
  | busy
  | waiting
  | stopped
  | failed
  | missing
  deriving DecidableEq, Repr

inductive EnrollmentState
  | awaitingHandshake
  | ready
  | stale
  | revoked
  | failed
  deriving DecidableEq, Repr

/-- An enrollment that is over. -/
def EnrollmentState.Terminal (e : EnrollmentState) : Prop := e = .revoked ∨ e = .failed

instance (e : EnrollmentState) : Decidable e.Terminal := inferInstanceAs (Decidable (_ ∨ _))

inductive TicketState
  | pending
  | consumed
  | expired
  | revoked
  deriving DecidableEq, Repr

inductive CredentialState
  | active
  | revoked
  | expired
  deriving DecidableEq, Repr

/-- A row of `runtime_sessions`. -/
structure Runtime where
  id : String
  principal : String
  state : RuntimeState
  leaseExpiresAt : ℕ
  deriving DecidableEq, Repr

/-- A row of `worker_enrollments`. -/
structure Enrollment where
  id : String
  principal : String
  runtime : String
  state : EnrollmentState
  generation : ℕ
  managed : Bool
  requiredToolsDigest : String
  discoveredToolsDigest : String
  protocolVersion : String
  heartbeatSequence : ℕ
  leaseExpiresAt : Option ℕ
  deriving DecidableEq, Repr

/-- A row of `runtime_enrollment_tickets`. -/
structure Ticket where
  id : String
  enrollment : String
  attempt : Option String
  generation : ℕ
  ticketHash : String
  state : TicketState
  expiresAt : ℕ
  deriving DecidableEq, Repr

/-- A row of `runtime_credentials`. -/
structure Credential where
  id : String
  enrollment : String
  principal : String
  generation : ℕ
  tokenHash : String
  state : CredentialState
  expiresAt : ℕ
  deriving DecidableEq, Repr

/-- Rows of one identifier. -/
def Runtime.Clash (a b : Runtime) : Prop := a.id = b.id

/-- The primary key, the column that is unique, and `worker_enrollments_one_nonterminal_principal`. -/
def Enrollment.Clash (a b : Enrollment) : Prop :=
  a.id = b.id ∨ a.runtime = b.runtime ∨
    a.principal = b.principal ∧ ¬ a.state.Terminal ∧ ¬ b.state.Terminal

def Ticket.Clash (a b : Ticket) : Prop := a.id = b.id ∨ a.ticketHash = b.ticketHash

/-- The keys, and `runtime_credentials_one_active_enrollment`. -/
def Credential.Clash (a b : Credential) : Prop :=
  a.id = b.id ∨ a.tokenHash = b.tokenHash ∨
    a.enrollment = b.enrollment ∧ a.state = .active ∧ b.state = .active

instance : DecidableRel Runtime.Clash := fun a b => inferInstanceAs (Decidable (a.id = b.id))

instance : DecidableRel Enrollment.Clash := fun _ _ => inferInstanceAs (Decidable (_ ∨ _))

instance : DecidableRel Ticket.Clash := fun _ _ => inferInstanceAs (Decidable (_ ∨ _))

instance : DecidableRel Credential.Clash := fun _ _ => inferInstanceAs (Decidable (_ ∨ _))

/-- **The store.** -/
structure Store where
  runtimes : UniqueRows Runtime Runtime.Clash
  enrollments : UniqueRows Enrollment Enrollment.Clash
  tickets : UniqueRows Ticket Ticket.Clash
  credentials : UniqueRows Credential Credential.Clash

def Store.empty : Store := ⟨.empty, .empty, .empty, .empty⟩

inductive Error
  | authentication
  | authorization
  | conflict
  | validation
  | staleGeneration
  | notFound
  | integrity
  deriving DecidableEq, Repr

/-- A raw token, by what `split(".", 2)` makes of it. -/
abbrev Token := List String

/-- What the operations are configured with, and how a token is verified. -/
structure Settings where
  runtimeEnrollmentTicketTtlSeconds : ℕ
  runtimeCredentialTtlSeconds : ℕ
  workerMcpRequiredTools : List String
  workerMcpToolContractDigest : String
  verifyToken : Token → String → Bool

/-- `_is_expired`: at the boundary second a lease has expired. -/
def IsExpired (now lease : ℕ) : Prop := lease ≤ now

instance (now lease : ℕ) : Decidable (IsExpired now lease) :=
  inferInstanceAs (Decidable (lease ≤ now))

/-- A lease that is there and has not expired. -/
def Lives (now : ℕ) (lease : Option ℕ) : Prop := ∃ t ∈ lease, ¬ IsExpired now t

instance (now : ℕ) (lease : Option ℕ) : Decidable (Lives now lease) :=
  match lease with
  | none => isFalse fun ⟨_, h, _⟩ => nomatch h
  | some t => decidable_of_iff (¬ IsExpired now t)
      ⟨fun h => ⟨t, rfl, h⟩, fun ⟨_, h, hlives⟩ => Option.some.inj h ▸ hlives⟩

/-- `utc_after`. -/
def utcAfter (now seconds : ℕ) : ℕ := now + seconds

/-! ## Statements -/

namespace Store

def runtime? (s : Store) (id : String) : Option Runtime := s.runtimes.find? fun r => r.id = id

def enrollment? (s : Store) (id : String) : Option Enrollment :=
  s.enrollments.find? fun e => e.id = id

/-- The enrollment of a runtime. -/
def enrollmentOf? (s : Store) (runtimeId : String) : Option Enrollment :=
  s.enrollments.find? fun e => e.runtime = runtimeId

def ticket? (s : Store) (id : String) : Option Ticket := s.tickets.find? fun t => t.id = id

def credential? (s : Store) (id : String) : Option Credential :=
  s.credentials.find? fun k => k.id = id

end Store

def insertRuntime (r : Runtime) : Tx Store Error PUnit := do
  let s ← get
  let runtimes ← Tx.need (s.runtimes.insert r) .integrity
  set { s with runtimes := runtimes }

def insertEnrollment (e : Enrollment) : Tx Store Error PUnit := do
  let s ← get
  let enrollments ← Tx.need (s.enrollments.insert e) .integrity
  set { s with enrollments := enrollments }

def insertTicket (t : Ticket) : Tx Store Error PUnit := do
  let s ← get
  let tickets ← Tx.need (s.tickets.insert t) .integrity
  set { s with tickets := tickets }

def insertCredential (k : Credential) : Tx Store Error PUnit := do
  let s ← get
  let credentials ← Tx.need (s.credentials.insert k) .integrity
  set { s with credentials := credentials }

def updateRuntimes (f : Runtime → Runtime) : Tx Store Error PUnit := do
  let s ← get
  let runtimes ← Tx.need (s.runtimes.update f) .integrity
  set { s with runtimes := runtimes }

def updateEnrollments (f : Enrollment → Enrollment) : Tx Store Error PUnit := do
  let s ← get
  let enrollments ← Tx.need (s.enrollments.update f) .integrity
  set { s with enrollments := enrollments }

def updateTickets (f : Ticket → Ticket) : Tx Store Error PUnit := do
  let s ← get
  let tickets ← Tx.need (s.tickets.update f) .integrity
  set { s with tickets := tickets }

def updateCredentials (f : Credential → Credential) : Tx Store Error PUnit := do
  let s ← get
  let credentials ← Tx.need (s.credentials.update f) .integrity
  set { s with credentials := credentials }

/-- The end of an enrollment that is not over. -/
def Enrollment.ended (id : String) (state : EnrollmentState) (e : Enrollment) : Enrollment :=
  if e.id = id ∧ ¬ e.state.Terminal then { e with state := state, generation := e.generation + 1 }
  else e

/-- The pending tickets of an enrollment get another state. -/
def Ticket.ended (enrollment : String) (state : TicketState) (t : Ticket) : Ticket :=
  if t.enrollment = enrollment ∧ t.state = .pending then { t with state := state } else t

/-- The active credential of an enrollment gets another state. -/
def Credential.ended (enrollment : String) (state : CredentialState) (k : Credential) :
    Credential :=
  if k.enrollment = enrollment ∧ k.state = .active then { k with state := state } else k

/-- **What ends an enrollment**: it enters a terminal state and the next generation, and its
credential and its tickets are taken back. -/
def endEnrollment (id : String) (state : EnrollmentState) (credential : CredentialState)
    (ticket : TicketState) : Tx Store Error PUnit := do
  updateEnrollments (Enrollment.ended id state)
  updateCredentials (Credential.ended id credential)
  updateTickets (Ticket.ended id ticket)

def Runtime.setState (id : String) (state : RuntimeState) (r : Runtime) : Runtime :=
  if r.id = id then { r with state := state } else r

/-! ## Enrolling -/

/-- A new runtime of a managed Worker. -/
structure EnrollCall where
  runtimeId : String
  enrollmentId : String
  principal : String
  leaseSeconds : ℕ
  now : ℕ
  deriving DecidableEq, Repr

/-- The rows that every path to a new enrollment inserts. -/
def enroll (σ : Settings) (c : EnrollCall) : Tx Store Error PUnit := do
  insertRuntime ⟨c.runtimeId, c.principal, .starting, utcAfter c.now c.leaseSeconds⟩
  insertEnrollment
    { id := c.enrollmentId
      principal := c.principal
      runtime := c.runtimeId
      state := .awaitingHandshake
      generation := 0
      managed := true
      requiredToolsDigest := σ.workerMcpToolContractDigest
      discoveredToolsDigest := ""
      protocolVersion := ""
      heartbeatSequence := 0
      leaseExpiresAt := some (utcAfter c.now c.leaseSeconds) }

/-! ## Tickets -/

structure IssueCall where
  runtimeId : String
  attemptId : Option String
  /-- The Attempt is one of the runtime. -/
  attemptBound : Bool
  /-- The Worker has no managed specification, or this runtime is the current epoch of its. -/
  specBound : Bool
  ticketId : String
  ticketHash : String
  now : ℕ
  deriving DecidableEq, Repr

/-- The states of a runtime that can be launched. -/
def RuntimeState.Launchable (r : RuntimeState) : Prop := r = .starting ∨ r = .ready ∨ r = .waiting

instance (r : RuntimeState) : Decidable r.Launchable := inferInstanceAs (Decidable (_ ∨ _))

/-- `issue_runtime_launch_ticket`, up to its commit. When artifacts of earlier tickets cannot
be removed after that, the call revokes its ticket in a transaction of its own, as
`revokeRuntimeLaunchTicket` does. -/
def issueRuntimeLaunchTicket (σ : Settings) (c : IssueCall) : Tx Store Error PUnit := do
  let s ← get
  let e ← Tx.need (if c.specBound then s.enrollmentOf? c.runtimeId else none) .conflict
  let r ← Tx.need (s.runtime? e.runtime) .conflict
  Tx.require (e.managed = true) .conflict
  Tx.require (c.attemptId ≠ none → c.attemptBound = true) .conflict
  Tx.require (¬ IsExpired c.now r.leaseExpiresAt ∧ Lives c.now e.leaseExpiresAt) .conflict
  Tx.require (¬ e.state.Terminal) .conflict
  Tx.require r.state.Launchable .conflict
  Tx.require (∀ t ∈ s.tickets.rows, t.enrollment = e.id → t.state ≠ .pending) .conflict
  Tx.require (r.state = .starting →
    ∀ k ∈ s.credentials.rows, k.enrollment = e.id → k.state ≠ .active) .conflict
  insertTicket
    { id := c.ticketId
      enrollment := e.id
      attempt := c.attemptId
      generation := e.generation + 1
      ticketHash := c.ticketHash
      state := .pending
      expiresAt := utcAfter c.now σ.runtimeEnrollmentTicketTtlSeconds }
  updateRuntimes fun r =>
    if r.id = c.runtimeId ∧ r.state.Launchable then
      { r with
        state := .busy
        leaseExpiresAt := utcAfter c.now σ.runtimeEnrollmentTicketTtlSeconds }
    else r

/-- The state a runtime goes back to when its launch is given up. -/
def recoveryState (e : EnrollmentState) : RuntimeState :=
  if e = .ready then .waiting else .starting

/-- `revoke_runtime_launch_ticket`. -/
def revokeRuntimeLaunchTicket (ticketId : String) : Tx Store Error PUnit := do
  let s ← get
  updateTickets fun t =>
    if t.id = ticketId ∧ t.state = .pending then { t with state := .revoked } else t
  match (s.ticket? ticketId).filter fun t => t.state = .pending with
  | none => pure ⟨⟩
  | some t =>
    match s.enrollment? t.enrollment with
    | none => pure ⟨⟩
    | some e =>
      updateRuntimes fun r =>
        if r.id = e.runtime ∧ r.state = .busy ∧ (s.enrollmentOf? r.id).any (¬ ·.state.Terminal) then
          { r with state := recoveryState e.state }
        else r

/-- What the call brings to an exchange. -/
structure ExchangeCall where
  ticket : Token
  credentialId : String
  tokenHash : String
  now : ℕ
  deriving DecidableEq, Repr

/-- The identifier in a ticket. -/
def ticketId : Token → Option String
  | ["cao", id, _] => if "ent_".toList.isPrefixOf id.toList then some id else none
  | _ => none

/-- The enrollment starts the generation of a ticket. -/
def Enrollment.begin (id : String) (generation lease : ℕ) (e : Enrollment) : Enrollment :=
  if e.id = id then
    { e with
      state := .awaitingHandshake
      generation := generation
      discoveredToolsDigest := ""
      protocolVersion := ""
      heartbeatSequence := 0
      leaseExpiresAt := some lease }
  else e

/-- The answer to an exchange. -/
structure Exchanged where
  runtimeId : String
  enrollmentId : String
  generation : ℕ
  heartbeatLeaseSeconds : ℕ
  deriving DecidableEq, Repr

/-- `exchange_runtime_launch_ticket`. -/
def exchangeRuntimeLaunchTicket (σ : Settings) (c : ExchangeCall) : Tx Store Error Exchanged := do
  let id ← Tx.need (ticketId c.ticket) .authentication
  let s ← get
  let t ← Tx.need (s.ticket? id) .authentication
  let e ← Tx.need (s.enrollment? t.enrollment) .authentication
  let r ← Tx.need ((s.runtime? e.runtime).filter fun r => r.state = .busy) .authentication
  Tx.require (t.state = .pending ∧ ¬ IsExpired c.now t.expiresAt ∧ Lives c.now e.leaseExpiresAt ∧
    ¬ IsExpired c.now r.leaseExpiresAt ∧ σ.verifyToken c.ticket t.ticketHash = true ∧
    ¬ e.state.Terminal ∧ t.generation = e.generation + 1) .authentication
  updateCredentials (Credential.ended e.id .revoked)
  insertCredential
    { id := c.credentialId
      enrollment := e.id
      principal := e.principal
      generation := t.generation
      tokenHash := c.tokenHash
      state := .active
      expiresAt := utcAfter c.now σ.runtimeCredentialTtlSeconds }
  updateTickets fun u =>
    if u.id = id ∧ u.state = .pending then { u with state := .consumed } else u
  updateEnrollments
    (Enrollment.begin e.id t.generation (utcAfter c.now σ.runtimeEnrollmentTicketTtlSeconds))
  pure
    { runtimeId := e.runtime
      enrollmentId := e.id
      generation := t.generation
      heartbeatLeaseSeconds := min (max σ.runtimeCredentialTtlSeconds 15) 86400 }

/-! ## A Worker that has been launched -/

inductive Role
  | cao
  | worker
  | other
  deriving DecidableEq, Repr

/-- What authentication has found of a caller; a holder of an old credential can come with what
was found when it was current. -/
structure Actor where
  id : String
  role : Role
  runtimeCredentialId : String
  enrollmentId : String
  runtimeSessionId : String
  enrollmentGeneration : Option ℕ
  /-- The principal is enabled. -/
  enabled : Bool
  /-- A credential of a resumed conversation, where the caller has one, is current. -/
  roleCurrent : Bool
  deriving DecidableEq, Repr

/-- `_require_role`. -/
def requireRole (actor : Actor) (role : Role) : Tx Store Error PUnit :=
  Tx.require (actor.role = role ∧ actor.roleCurrent = true) .authorization

/-- `_require_worker_runtime_actor_tx`, of a Worker that need not be ready. -/
def requireWorkerRuntimeActor (actor : Actor) (expectedRuntimeId : Option String) (now : ℕ) :
    Tx Store Error Enrollment := do
  requireRole actor .worker
  Tx.require (actor.runtimeCredentialId ≠ "" ∧ actor.enrollmentId ≠ "" ∧
    actor.runtimeSessionId ≠ "") .authorization
  Tx.require (∀ id ∈ expectedRuntimeId, actor.runtimeSessionId = id) .authorization
  let s ← get
  let e ← Tx.need ((s.enrollment? actor.enrollmentId).filter fun e =>
    e.principal = actor.id ∧ e.runtime = actor.runtimeSessionId) .authorization
  let r ← Tx.need (s.runtime? e.runtime) .authorization
  let k ← Tx.need ((s.credential? actor.runtimeCredentialId).filter fun k =>
    k.enrollment = e.id ∧ k.principal = e.principal) .authorization
  Tx.require (actor.enabled = true ∧ k.state = .active ∧ ¬ IsExpired now k.expiresAt ∧
    some e.generation = actor.enrollmentGeneration ∧
    some k.generation = actor.enrollmentGeneration ∧
    (¬ e.state.Terminal ∧ e.state ≠ .stale) ∧ Lives now e.leaseExpiresAt ∧
    ¬ IsExpired now r.leaseExpiresAt) .authorization
  pure e

structure DiscoveryCall where
  actor : Actor
  protocolVersion : String
  toolNames : List String
  now : ℕ
  deriving DecidableEq, Repr

/-- `record_mcp_tool_discovery`. -/
def recordMcpToolDiscovery (σ : Settings) (c : DiscoveryCall) : Tx Store Error PUnit :=
  Tx.when (c.actor.role = .worker) do
    Tx.require (∀ tool ∈ σ.workerMcpRequiredTools, tool ∈ c.toolNames) .conflict
    let e ← requireWorkerRuntimeActor c.actor none c.now
    updateEnrollments fun e' =>
      if e'.id = e.id ∧ e'.generation = e.generation then
        { e' with
          discoveredToolsDigest := σ.workerMcpToolContractDigest
          protocolVersion := c.protocolVersion }
      else e'

/-- `RuntimeHeartbeat`, with its caller and the runtime. -/
structure HeartbeatCall where
  actor : Actor
  runtimeId : String
  state : RuntimeState
  leaseSeconds : ℕ
  expectedEnrollmentGeneration : Option ℕ
  sequence : Option ℕ
  /-- The request has metadata. -/
  metadata : Bool
  now : ℕ
  deriving DecidableEq, Repr

/-- A heartbeat of the runtime row: a launch under way stays under way, and a runtime that is
gone stays gone. -/
def Runtime.heartbeat (id : String) (state : RuntimeState) (lease : ℕ) (r : Runtime) : Runtime :=
  if r.id = id ∧ r.state ∉ [RuntimeState.stopped, .failed, .missing] then
    { r with
      state := if r.state = .busy then r.state else state
      leaseExpiresAt := lease }
  else r

/-- A sequence number that was recorded, or that a new bridge process begins with. -/
def Replayed (sequence current : ℕ) : Prop := sequence = current ∨ sequence = 1 ∧ 1 < current

instance (sequence current : ℕ) : Decidable (Replayed sequence current) :=
  inferInstanceAs (Decidable (_ ∨ _))

/-- What the Worker path of a heartbeat writes before the runtime row. -/
def advanceHeartbeat (actor : Actor) (e : Enrollment) (sequence lease : ℕ) :
    Tx Store Error PUnit := do
  updateEnrollments fun e' =>
    if e'.id = e.id ∧ e'.generation = e.generation then
      { e' with
        state := .ready
        heartbeatSequence := sequence
        leaseExpiresAt := some lease }
    else e'
  updateCredentials fun k =>
    if k.id = actor.runtimeCredentialId ∧ k.state = .active then { k with expiresAt := lease } else k

/-- `heartbeat_runtime`. The deliveries of the bootstrap message and of what waits for the
runtime are not modelled. -/
def heartbeatRuntime (σ : Settings) (c : HeartbeatCall) : Tx Store Error PUnit := do
  let s ← get
  let r ← Tx.need (s.runtime? c.runtimeId) .notFound
  Tx.require (r.principal ≠ c.actor.id → c.actor.role = .cao ∧ c.actor.roleCurrent = true)
    .authorization
  Tx.require (c.actor.role = .worker → c.metadata = false) .validation
  if c.actor.role = .worker then
    let e ← requireWorkerRuntimeActor c.actor (some c.runtimeId) c.now
    let generation ← Tx.need c.expectedEnrollmentGeneration .validation
    let sequence ← Tx.need c.sequence .validation
    Tx.require (e.generation = generation) .staleGeneration
    Tx.require (e.requiredToolsDigest = σ.workerMcpToolContractDigest ∧
      e.discoveredToolsDigest = σ.workerMcpToolContractDigest ∧ e.protocolVersion ≠ "") .conflict
    Tx.require (c.state ∈ [RuntimeState.ready, .busy, .waiting]) .validation
    if Replayed sequence e.heartbeatSequence then
      pure ⟨⟩
    else
      Tx.require (sequence = e.heartbeatSequence + 1) .conflict
      advanceHeartbeat c.actor e sequence (utcAfter c.now c.leaseSeconds)
      updateRuntimes (Runtime.heartbeat c.runtimeId c.state (utcAfter c.now c.leaseSeconds))
  else
    updateRuntimes (Runtime.heartbeat c.runtimeId c.state (utcAfter c.now c.leaseSeconds))

/-! ## Ends -/

/-- `fail_runtime_enrollment`. -/
def failRuntimeEnrollment (runtimeId : String) : Tx Store Error PUnit := do
  let s ← get
  match s.enrollmentOf? runtimeId with
  | none => pure ⟨⟩
  | some e =>
    Tx.when (¬ e.state.Terminal) do
      endEnrollment e.id .failed .revoked .revoked
      updateRuntimes (Runtime.setState runtimeId .failed)

/-- `_stop_runtime_tx`. -/
def stopRuntime (runtimeId : String) : Tx Store Error PUnit := do
  let s ← get
  let _ ← Tx.need (s.runtime? runtimeId) .notFound
  match s.enrollmentOf? runtimeId with
  | none => pure ⟨⟩
  | some e => endEnrollment e.id .revoked .revoked .revoked
  updateRuntimes (Runtime.setState runtimeId .stopped)

/-- `expire_runtime_leases`, of one runtime whose lease has run out. -/
def expireRuntime (runtimeId : String) : Tx Store Error PUnit := do
  updateRuntimes (Runtime.setState runtimeId .missing)
  let s ← get
  match s.enrollmentOf? runtimeId with
  | none => pure ⟨⟩
  | some e => Tx.when (¬ e.state.Terminal) (endEnrollment e.id .failed .expired .expired)

/-- `expire_runtime_leases`. Here a lease has run out only after its second. -/
def expireRuntimeLeases (now : ℕ) : Tx Store Error PUnit := do
  let s ← get
  Tx.each expireRuntime ((s.runtimes.rows.filter fun r =>
    r.leaseExpiresAt < now ∧ r.state ∉ [RuntimeState.stopped, .failed, .missing]).map Runtime.id)

/-! ## The system -/

inductive Event
  | enroll (c : EnrollCall)
  | issue (c : IssueCall)
  | exchange (c : ExchangeCall)
  | revoke (ticketId : String)
  | discover (c : DiscoveryCall)
  | heartbeat (c : HeartbeatCall)
  | fail (runtimeId : String)
  | stop (runtimeId : String)
  | expire (now : ℕ)
  deriving DecidableEq, Repr

/-- What a call leaves. -/
def step (σ : Settings) (s : Store) : Event → Store
  | .enroll c => Tx.commit (enroll σ c) s
  | .issue c => Tx.commit (issueRuntimeLaunchTicket σ c) s
  | .exchange c => Tx.commit (exchangeRuntimeLaunchTicket σ c) s
  | .revoke ticketId => Tx.commit (revokeRuntimeLaunchTicket ticketId) s
  | .discover c => Tx.commit (recordMcpToolDiscovery σ c) s
  | .heartbeat c => Tx.commit (heartbeatRuntime σ c) s
  | .fail runtimeId => Tx.commit (failRuntimeEnrollment runtimeId) s
  | .stop runtimeId => Tx.commit (stopRuntime runtimeId) s
  | .expire now => Tx.commit (expireRuntimeLeases now) s

/-- **The calls of any number of parties**, in any order and at any time. -/
def system (σ : Settings) : TransitionSystem Store Event where
  init s := s = .empty
  step s e s' := s' = step σ s e

end Launches
