import OpenCAO.Transaction
import OpenCAO.TransitionSystem
import OpenCAO.UniqueRows

/-!
# Attachments of conversations

A native thread of a supervising conversation has one *attachment*, which carries its
authority; every process that speaks for the thread has a *connection* to it, and every
connection a *credential*. A process becomes connected with a *bootstrap capability*, which
is issued to it by the local owner and is good for one use.

Between the issue of a capability and its use other processes may attach, close or reopen
the conversation. A capability therefore carries what its issuer has observed – the
attachment with its generation, or that there is none – and is refused when this is no
longer so. The two generations differ: the one of an attachment counts its reopenings, and
the one of a connection counts the connections that an attachment has had.

What is read of other tables is part of the call, as is what is found of the peer process:
whether it lives, whether the wake runtime is of the right adapter, what else stands in the
way of a close.
-/

namespace Attachments

/-! ## Tables -/

inductive AttachmentState
  | active
  | stale
  | revoked
  | failed
  deriving DecidableEq, Repr

inductive ConnectionState
  | active
  | stale
  | revoked
  | expired
  | failed
  deriving DecidableEq, Repr

/-- The states of capabilities and of credentials. -/
inductive CredentialState
  | active
  | revoked
  | expired
  deriving DecidableEq, Repr

/-- A row of `cao_session_attachments`. -/
structure Attachment where
  id : String
  principal : String
  runtime : String
  nativeThreadId : String
  projectDigest : String
  projectScopeDigest : String
  state : AttachmentState
  generation : ℕ
  leaseExpiresAt : ℕ
  createdAt : ℕ
  deriving DecidableEq, Repr

/-- A row of `cao_attachment_connections`. -/
structure Connection where
  id : String
  attachment : String
  principal : String
  generation : ℕ
  connectionGeneration : ℕ
  peerPid : ℕ
  peerStartSignature : String
  proxyCatalogDigest : String
  proxyAbiVersion : ℕ
  state : ConnectionState
  leaseExpiresAt : ℕ
  deriving DecidableEq, Repr

/-- A row of `cao_conversation_credentials`. -/
structure Credential where
  id : String
  attachment : String
  connection : Option String
  principal : String
  generation : ℕ
  tokenHash : String
  state : CredentialState
  expiresAt : ℕ
  deriving DecidableEq, Repr

/-- A row of `cao_attachment_bootstrap_credentials`. -/
structure Bootstrap where
  id : String
  principal : String
  /-- The attachment that was observed, with its generation. -/
  observed : Option (String × ℕ)
  tokenHash : String
  peerPid : ℕ
  peerStartSignature : String
  nativeThreadId : String
  projectDigest : String
  proxyCatalogDigest : String
  proxyAbiVersion : ℕ
  state : CredentialState
  expiresAt : ℕ
  deriving DecidableEq, Repr

/-- The keys, and `cao_session_attachments_one_active_thread`. -/
def Attachment.Clash (a b : Attachment) : Prop :=
  a.id = b.id ∨ a.runtime = b.runtime ∨
    a.principal = b.principal ∧ a.nativeThreadId = b.nativeThreadId ∧ a.state = .active ∧
      b.state = .active

/-- The keys, and `cao_attachment_connections_one_active_peer`. -/
def Connection.Clash (a b : Connection) : Prop :=
  a.id = b.id ∨ a.attachment = b.attachment ∧ a.connectionGeneration = b.connectionGeneration ∨
    a.principal = b.principal ∧ a.peerPid = b.peerPid ∧
      a.peerStartSignature = b.peerStartSignature ∧ a.state = .active ∧ b.state = .active ∧
      0 < a.peerPid ∧ a.peerStartSignature ≠ ""

/-- The keys, and `cao_conversation_credentials_one_active_connection`. -/
def Credential.Clash (a b : Credential) : Prop :=
  a.id = b.id ∨ a.tokenHash = b.tokenHash ∨
    a.connection = b.connection ∧ a.connection ≠ none ∧ a.state = .active ∧ b.state = .active

def Bootstrap.Clash (a b : Bootstrap) : Prop := a.id = b.id ∨ a.tokenHash = b.tokenHash

instance : DecidableRel Attachment.Clash := fun _ _ => inferInstanceAs (Decidable (_ ∨ _))

instance : DecidableRel Connection.Clash := fun _ _ => inferInstanceAs (Decidable (_ ∨ _))

instance : DecidableRel Credential.Clash := fun _ _ => inferInstanceAs (Decidable (_ ∨ _))

instance : DecidableRel Bootstrap.Clash := fun _ _ => inferInstanceAs (Decidable (_ ∨ _))

/-- **The store**, with the catalog and the version that `metadata` has. -/
structure Store where
  attachments : UniqueRows Attachment Attachment.Clash
  connections : UniqueRows Connection Connection.Clash
  credentials : UniqueRows Credential Credential.Clash
  bootstraps : UniqueRows Bootstrap Bootstrap.Clash
  catalogDigest : Option String
  proxyAbiVersion : Option ℕ

def Store.empty : Store := ⟨.empty, .empty, .empty, .empty, none, none⟩

inductive Error
  | authentication
  | authorization
  | catalogRefreshRequired
  | conflict
  | validation
  | integrity
  deriving DecidableEq, Repr

/-- A raw token, by what `split(".", 2)` makes of it. -/
abbrev Token := List String

structure Settings where
  caoConversationCredentialTtlSeconds : ℕ
  caoAttachmentBootstrapCredentialTtlSeconds : ℕ
  verifyToken : Token → String → Bool

/-- `CAO_CONVERSATION_PROXY_ABI_VERSION`. -/
def caoConversationProxyAbiVersion : ℕ := 2

/-- `_is_sha256_digest`. -/
def isSha256Digest (value : String) : Bool :=
  value.toList.length = 64 ∧
    value.toList.all fun c => ('0' ≤ c ∧ c ≤ '9') ∨ ('a' ≤ c ∧ c ≤ 'f')

def utcAfter (now seconds : ℕ) : ℕ := now + seconds

/-! ## Statements -/

namespace Store

def attachment? (s : Store) (id : String) : Option Attachment :=
  s.attachments.find? fun a => a.id = id

def connection? (s : Store) (id : String) : Option Connection :=
  s.connections.find? fun c => c.id = id

def credential? (s : Store) (id : String) : Option Credential :=
  s.credentials.find? fun k => k.id = id

def bootstrap? (s : Store) (id : String) : Option Bootstrap :=
  s.bootstraps.find? fun b => b.id = id

end Store

/-- What the triggers ask of an active connection. -/
def Connection.Contract (c : Connection) : Prop :=
  0 < c.peerPid ∧ c.peerStartSignature ≠ "" ∧ isSha256Digest c.proxyCatalogDigest = true ∧
    c.proxyAbiVersion = caoConversationProxyAbiVersion

instance (c : Connection) : Decidable c.Contract := inferInstanceAs (Decidable (_ ∧ _))

/-- What the triggers ask of an active credential: its connection. -/
def Store.Bound (s : Store) (k : Credential) : Prop :=
  ∃ c ∈ s.connections.rows, k.connection = some c.id ∧ c.attachment = k.attachment ∧
    c.principal = k.principal ∧ c.generation = k.generation ∧ c.state = .active

instance (s : Store) (k : Credential) : Decidable (s.Bound k) :=
  inferInstanceAs (Decidable (∃ c ∈ s.connections.rows, _))

def insertAttachment (a : Attachment) : Tx Store Error PUnit := do
  let s ← get
  let attachments ← Tx.need (s.attachments.insert a) .integrity
  set { s with attachments := attachments }

def updateAttachments (f : Attachment → Attachment) : Tx Store Error PUnit := do
  let s ← get
  let attachments ← Tx.need (s.attachments.update f) .integrity
  set { s with attachments := attachments }

/-- `INSERT INTO cao_attachment_connections`, of an active connection. -/
def insertConnection (c : Connection) : Tx Store Error PUnit := do
  Tx.require c.Contract .integrity
  let s ← get
  let connections ← Tx.need (s.connections.insert c) .integrity
  set { s with connections := connections }

def updateConnections (f : Connection → Connection) : Tx Store Error PUnit := do
  let s ← get
  let connections ← Tx.need (s.connections.update f) .integrity
  set { s with connections := connections }

/-- `INSERT INTO cao_conversation_credentials`, of an active credential. -/
def insertCredential (k : Credential) : Tx Store Error PUnit := do
  let s ← get
  Tx.require (s.Bound k) .integrity
  let credentials ← Tx.need (s.credentials.insert k) .integrity
  set { s with credentials := credentials }

def updateCredentials (f : Credential → Credential) : Tx Store Error PUnit := do
  let s ← get
  let credentials ← Tx.need (s.credentials.update f) .integrity
  set { s with credentials := credentials }

def insertBootstrap (b : Bootstrap) : Tx Store Error PUnit := do
  let s ← get
  let bootstraps ← Tx.need (s.bootstraps.insert b) .integrity
  set { s with bootstraps := bootstraps }

def updateBootstraps (f : Bootstrap → Bootstrap) : Tx Store Error PUnit := do
  let s ← get
  let bootstraps ← Tx.need (s.bootstraps.update f) .integrity
  set { s with bootstraps := bootstraps }

/-- `UPDATE … SET state WHERE p AND state = 'active'`, of a capability. -/
def Bootstrap.withdraw (p : Bootstrap → Prop) [DecidablePred p] (b : Bootstrap) : Bootstrap :=
  if p b ∧ b.state = .active then { b with state := .revoked } else b

/-- `UPDATE … SET state WHERE p AND state = 'active'`, of a connection. -/
def Connection.lapse (p : Connection → Prop) [DecidablePred p] (state : ConnectionState)
    (c : Connection) : Connection :=
  if p c ∧ c.state = .active then { c with state := state } else c

/-- `UPDATE … SET state WHERE p AND state = 'active'`, of a credential. -/
def Credential.lapse (p : Credential → Prop) [DecidablePred p] (state : CredentialState)
    (k : Credential) : Credential :=
  if p k ∧ k.state = .active then { k with state := state } else k

/-! ## Issuing a capability -/

structure IssueCall where
  peerPid : ℕ
  peerStartSignature : String
  nativeThreadId : String
  projectDigest : String
  proxyCatalogDigest : String
  proxyAbiVersion : ℕ
  /-- The thread identifier is not empty, not too long, and has nothing in it that it may not. -/
  validThread : Bool
  /-- The enabled principal `cao`. -/
  principal : Option String
  capabilityId : String
  tokenHash : String
  now : ℕ
  deriving DecidableEq, Repr

/-- The row that `ORDER BY created_at DESC, id DESC` has first. -/
def Attachment.newer (a b : Attachment) : Attachment :=
  if a.createdAt < b.createdAt ∨ a.createdAt = b.createdAt ∧ a.id < b.id then b else a

/-- What is observed of a thread. -/
def Store.observed (s : Store) (principal nativeThreadId : String) : Option Attachment :=
  match s.attachments.rows.filter fun a =>
    a.principal = principal ∧ a.nativeThreadId = nativeThreadId with
  | [] => none
  | a :: rest => some (rest.foldl Attachment.newer a)

/-- `issue_owner_local_attachment_bootstrap`. -/
def issueOwnerLocalAttachmentBootstrap (σ : Settings) (c : IssueCall) :
    Tx Store Error PUnit := do
  Tx.require (0 < c.peerPid ∧ c.peerStartSignature ≠ "" ∧ c.validThread = true ∧
    isSha256Digest c.projectDigest = true ∧ isSha256Digest c.proxyCatalogDigest = true ∧
    c.proxyAbiVersion = caoConversationProxyAbiVersion) .authentication
  let s ← get
  Tx.require (s.catalogDigest = some c.proxyCatalogDigest ∧
    s.proxyAbiVersion = some c.proxyAbiVersion) .catalogRefreshRequired
  let principal ← Tx.need c.principal .authentication
  insertBootstrap
    { id := c.capabilityId
      principal := principal
      observed := (s.observed principal c.nativeThreadId).map fun a => (a.id, a.generation)
      tokenHash := c.tokenHash
      peerPid := c.peerPid
      peerStartSignature := c.peerStartSignature
      nativeThreadId := c.nativeThreadId
      projectDigest := c.projectDigest
      proxyCatalogDigest := c.proxyCatalogDigest
      proxyAbiVersion := c.proxyAbiVersion
      state := .active
      expiresAt := utcAfter c.now σ.caoAttachmentBootstrapCredentialTtlSeconds }

/-! ## Attaching -/

/-- `CAOSessionAttachment`, with its caller and what is drawn and found for it. -/
structure AttachCall where
  principal : String
  /-- The caller has the role `cao`. -/
  isCao : Bool
  capabilityId : String
  nativeThreadId : String
  projectDigest : String
  proxyCatalogDigest : String
  proxyAbiVersion : ℕ
  leaseSeconds : ℕ
  /-- Neither the thread identifier nor the metadata has a secret in it. -/
  clean : Bool
  /-- The peer is the process that the capability was issued to. -/
  peerLive : Bool
  /-- The runtime of the attachment is of the adapter `codex-app-server`. -/
  runtimeFits : Bool
  /-- The runtime that replaces an unavailable wake runtime. -/
  wakeRoute : Option String
  attachmentId : String
  runtimeId : String
  connectionId : String
  credentialId : String
  tokenHash : String
  now : ℕ
  deriving DecidableEq, Repr

/-- The checks of the capability. -/
def checkBootstrap (c : AttachCall) : Tx Store Error Bootstrap := do
  Tx.require (c.isCao = true ∧ c.capabilityId ≠ "") .authorization
  Tx.require (c.clean = true) .validation
  Tx.require (isSha256Digest c.proxyCatalogDigest = true ∧
    c.proxyAbiVersion = caoConversationProxyAbiVersion) .validation
  let s ← get
  let b ← Tx.need ((s.bootstrap? c.capabilityId).filter fun b =>
    b.principal = c.principal ∧ b.state = .active ∧ c.now < b.expiresAt) .authorization
  Tx.require (0 < b.peerPid ∧ b.peerStartSignature ≠ "" ∧ b.nativeThreadId = c.nativeThreadId ∧
    b.projectDigest = c.projectDigest) .authorization
  Tx.require (c.peerLive = true) .authorization
  Tx.require (b.proxyCatalogDigest = c.proxyCatalogDigest ∧
    b.proxyAbiVersion = c.proxyAbiVersion) .authorization
  Tx.require (s.catalogDigest = some c.proxyCatalogDigest ∧
    s.proxyAbiVersion = some c.proxyAbiVersion) .conflict
  pure b

/-- What the capability has observed is still so: the answer is the attachment, where there was
one. -/
def checkObservation (c : AttachCall) (b : Bootstrap) : Tx Store Error (Option Attachment) := do
  let s ← get
  match b.observed with
  | some (id, generation) =>
    let a ← Tx.need ((s.attachment? id).filter fun a => a.principal = c.principal) .conflict
    Tx.require (a.generation = generation) .conflict
    Tx.require (a.nativeThreadId = c.nativeThreadId ∧ a.projectScopeDigest = c.projectDigest ∧
      c.runtimeFits = true) .conflict
    pure (some a)
  | none =>
    Tx.require (s.observed c.principal c.nativeThreadId = none) .conflict
    pure none

/-- The attachment is revoked, and begins a new generation. -/
def Attachment.reopen (c : AttachCall) (id : String) (generation : ℕ) (a : Attachment) :
    Attachment :=
  if a.id = id ∧ a.principal = c.principal ∧ a.state = .revoked ∧ a.generation = generation then
    { a with
      runtime := c.runtimeId
      state := .active
      generation := generation + 1
      leaseExpiresAt := utcAfter c.now c.leaseSeconds }
  else a

def reopenAttachment (c : AttachCall) (a : Attachment) : Tx Store Error PUnit := do
  updateAttachments (Attachment.reopen c a.id a.generation)
  updateBootstraps (Bootstrap.withdraw fun b =>
    b.observed = some (a.id, a.generation) ∧ b.id ≠ c.capabilityId)

/-- The attachment stays in its generation. -/
def Attachment.renew (id : String) (lease : ℕ) (a : Attachment) : Attachment :=
  if a.id = id then { a with state := .active, leaseExpiresAt := lease } else a

/-- `_reconcile_cao_wake_route_tx`, of the attachment. -/
def Attachment.reroute (id : String) (route : Option String) (a : Attachment) : Attachment :=
  if a.id = id ∧ a.state = .active then { a with runtime := route.getD a.runtime } else a

def renewAttachment (c : AttachCall) (a : Attachment) : Tx Store Error PUnit := do
  updateAttachments
    (Attachment.renew a.id (max a.leaseExpiresAt (utcAfter c.now c.leaseSeconds)))
  updateAttachments (Attachment.reroute a.id c.wakeRoute)

/-- The attachment of a thread that had none. -/
def AttachCall.newAttachment (c : AttachCall) : Attachment where
  id := c.attachmentId
  principal := c.principal
  runtime := c.runtimeId
  nativeThreadId := c.nativeThreadId
  projectDigest := c.projectDigest
  projectScopeDigest := c.projectDigest
  state := .active
  generation := 0
  leaseExpiresAt := utcAfter c.now c.leaseSeconds
  createdAt := c.now

/-- The capability is bound to the attachment it has made. -/
def Bootstrap.bind (c : AttachCall) (b : Bootstrap) : Bootstrap :=
  if b.id = c.capabilityId ∧ b.observed = none ∧ b.state = .active then
    { b with observed := some (c.attachmentId, 0) }
  else b

def createAttachment (c : AttachCall) : Tx Store Error PUnit := do
  insertAttachment c.newAttachment
  updateBootstraps (Bootstrap.bind c)
  updateBootstraps (Bootstrap.withdraw fun b =>
    b.principal = c.principal ∧ b.nativeThreadId = c.nativeThreadId ∧ b.observed = none ∧
      b.id ≠ c.capabilityId)

/-- The attachment, and the generation that it is in now. -/
def openAttachment (c : AttachCall) : Option Attachment → Tx Store Error (String × ℕ)
  | none => do
    createAttachment c
    pure (c.attachmentId, 0)
  | some a =>
    if a.state = .revoked then do
      reopenAttachment c a
      pure (a.id, a.generation + 1)
    else do
      renewAttachment c a
      pure (a.id, a.generation)

/-- The connections of an attachment are counted. -/
def Store.nextConnectionGeneration (s : Store) (attachmentId : String) : ℕ :=
  ((s.connections.rows.filter fun c => c.attachment = attachmentId).map
    Connection.connectionGeneration).foldl max 0 + 1

/-- The connection of the peer, or a new one. -/
def openConnection (σ : Settings) (c : AttachCall) (b : Bootstrap) (attachmentId : String)
    (generation : ℕ) : Tx Store Error (String × ℕ) := do
  let s ← get
  let lease := utcAfter c.now (min c.leaseSeconds σ.caoConversationCredentialTtlSeconds)
  match s.connections.find? fun d => d.attachment = attachmentId ∧ d.principal = c.principal ∧
    d.generation = generation ∧ d.peerPid = b.peerPid ∧
    d.peerStartSignature = b.peerStartSignature ∧ d.state = .active with
  | some d =>
    Tx.require (d.proxyCatalogDigest = b.proxyCatalogDigest ∧
      d.proxyAbiVersion = b.proxyAbiVersion) .conflict
    Tx.require d.Contract .integrity
    updateConnections fun d' => if d'.id = d.id then { d' with leaseExpiresAt := lease } else d'
    pure (d.id, d.connectionGeneration)
  | none =>
    insertConnection
      { id := c.connectionId
        attachment := attachmentId
        principal := c.principal
        generation := generation
        connectionGeneration := s.nextConnectionGeneration attachmentId
        peerPid := b.peerPid
        peerStartSignature := b.peerStartSignature
        proxyCatalogDigest := b.proxyCatalogDigest
        proxyAbiVersion := b.proxyAbiVersion
        state := .active
        leaseExpiresAt := lease }
    pure (c.connectionId, s.nextConnectionGeneration attachmentId)

/-- `_issue_cao_conversation_credential_tx`. -/
def issueConversationCredential (σ : Settings) (c : AttachCall) (attachmentId connectionId : String)
    (generation : ℕ) : Tx Store Error PUnit := do
  updateCredentials (Credential.lapse (fun k => k.connection = some connectionId) .revoked)
  insertCredential
    { id := c.credentialId
      attachment := attachmentId
      connection := some connectionId
      principal := c.principal
      generation := generation
      tokenHash := c.tokenHash
      state := .active
      expiresAt := utcAfter c.now σ.caoConversationCredentialTtlSeconds }

/-- The answer to an attach. -/
structure Attached where
  attachmentId : String
  generation : ℕ
  connectionId : String
  connectionGeneration : ℕ
  contextCredentialId : String
  deriving DecidableEq, Repr

/-- `attach_cao_session`. -/
def attachCaoSession (σ : Settings) (c : AttachCall) : Tx Store Error Attached := do
  let b ← checkBootstrap c
  let existing ← checkObservation c b
  let (attachmentId, generation) ← openAttachment c existing
  updateBootstraps fun b => if b.id = c.capabilityId then { b with state := .revoked } else b
  let (connectionId, connectionGeneration) ← openConnection σ c b attachmentId generation
  issueConversationCredential σ c attachmentId connectionId generation
  pure ⟨attachmentId, generation, connectionId, connectionGeneration, c.credentialId⟩

/-! ## Authenticating -/

/-- What authentication finds of a conversation. -/
structure Actor where
  id : String
  conversationCredentialId : String
  attachmentId : String
  attachmentGeneration : ℕ
  connectionId : String
  connectionGeneration : ℕ
  deriving DecidableEq, Repr

/-- The identifier in a token of a conversation. -/
def credentialId : Token → Option String
  | ["cao", id, _] => if "csc_".toList.isPrefixOf id.toList then some id else none
  | _ => none

/-- `authenticate`, of a conversation: a credential that is active, of a connection that is
active, of the generation that its attachment is in. -/
def authenticate (σ : Settings) (s : Store) (token : Token) (enabled : Bool) (now : ℕ) :
    Option Actor := do
  let id ← credentialId token
  let k ← s.credential? id
  let connectionId ← k.connection
  let d ← s.connection? connectionId
  let a ← s.attachment? d.attachment
  if d.attachment = k.attachment ∧ d.principal = k.principal ∧ d.generation = k.generation ∧
      a.principal = d.principal ∧ k.state = .active ∧ now < k.expiresAt ∧ d.state = .active ∧
      now < d.leaseExpiresAt ∧ k.generation = a.generation ∧ a.state = .active ∧
      enabled = true ∧ σ.verifyToken token k.tokenHash = true then
    some ⟨k.principal, k.id, k.attachment, a.generation, d.id, d.connectionGeneration⟩
  else none

/-- `_require_current_cao_attachment_actor_tx`, of a conversation. -/
def Store.Current (s : Store) (actor : Actor) (enabled : Bool) (now : ℕ) : Prop :=
  ∃ k ∈ s.credentials.rows, ∃ d ∈ s.connections.rows, ∃ a ∈ s.attachments.rows,
    k.connection = some d.id ∧ d.attachment = k.attachment ∧ d.principal = k.principal ∧
    d.generation = k.generation ∧ a.id = d.attachment ∧ a.principal = d.principal ∧
    k.id = actor.conversationCredentialId ∧ k.principal = actor.id ∧
    k.attachment = actor.attachmentId ∧ k.state = .active ∧ now < k.expiresAt ∧
    k.generation = actor.attachmentGeneration ∧ d.id = actor.connectionId ∧
    d.connectionGeneration = actor.connectionGeneration ∧ d.state = .active ∧
    now < d.leaseExpiresAt ∧ a.generation = actor.attachmentGeneration ∧ a.state = .active ∧
    enabled = true

instance (s : Store) (actor : Actor) (enabled : Bool) (now : ℕ) :
    Decidable (s.Current actor enabled now) :=
  inferInstanceAs (Decidable (∃ k ∈ s.credentials.rows, _))

/-! ## Closing -/

/-- How the rest of a close comes out: the same close was answered before, something stands in
its way, or the Work of the conversation is canceled. -/
inductive CloseOutcome
  | cached
  | blocked
  | canceled
  deriving DecidableEq, Repr

structure CloseCall where
  actor : Actor
  enabled : Bool
  outcome : CloseOutcome
  now : ℕ
  deriving DecidableEq, Repr

/-- The attachment is revoked in its generation. -/
def Attachment.close (id : String) (generation : ℕ) (a : Attachment) : Attachment :=
  if a.id = id ∧ a.generation = generation ∧ a.state = .active then { a with state := .revoked }
  else a

/-- `close_cao_conversation`: whether it closes the conversation. -/
def closeCaoConversation (c : CloseCall) : Tx Store Error Bool := do
  Tx.require (c.actor.conversationCredentialId ≠ "" ∧ c.actor.attachmentId ≠ "") .authorization
  let s ← get
  Tx.require (s.Current c.actor c.enabled c.now) .authorization
  Tx.require (∃ a ∈ s.attachments.rows, a.id = c.actor.attachmentId ∧ a.principal = c.actor.id ∧
    a.generation = c.actor.attachmentGeneration ∧ a.state = .active) .authorization
  match c.outcome with
  | .cached => pure false
  | .blocked => throw .conflict
  | .canceled =>
    updateBootstraps (Bootstrap.withdraw fun b =>
      b.observed = some (c.actor.attachmentId, c.actor.attachmentGeneration))
    updateConnections (Connection.lapse (fun d => d.attachment = c.actor.attachmentId) .revoked)
    updateCredentials (Credential.lapse (fun k => k.attachment = c.actor.attachmentId) .revoked)
    updateAttachments (Attachment.close c.actor.attachmentId c.actor.attachmentGeneration)
    pure true

/-! ## Catalogs and leases -/

/-- `reconcile_conversation_tool_catalog`. -/
def reconcileConversationToolCatalog (catalogDigest releaseId : String) :
    Tx Store Error PUnit := do
  Tx.require (isSha256Digest catalogDigest = true ∧ isSha256Digest releaseId = true) .validation
  let s ← get
  Tx.when (s.catalogDigest ≠ some catalogDigest ∨
      s.proxyAbiVersion ≠ some caoConversationProxyAbiVersion) do
    let stale := (s.connections.rows.filter fun d => d.state = .active ∧
      (d.proxyCatalogDigest ≠ catalogDigest ∨
        d.proxyAbiVersion ≠ caoConversationProxyAbiVersion)).map Connection.id
    updateConnections (Connection.lapse (fun d => d.id ∈ stale) .stale)
    updateCredentials (Credential.lapse (fun k => ∃ id ∈ stale, k.connection = some id) .revoked)
    updateCredentials (Credential.lapse (fun k => k.connection = none) .revoked)
  modify fun s =>
    { s with
      catalogDigest := some catalogDigest
      proxyAbiVersion := some caoConversationProxyAbiVersion }

def expireConnection (id : String) : Tx Store Error PUnit := do
  updateConnections (Connection.lapse (fun d => d.id = id) .expired)
  updateCredentials (Credential.lapse (fun k => k.connection = some id) .expired)

/-- `expire_runtime_leases`, of connections. -/
def expireLeases (now : ℕ) : Tx Store Error PUnit := do
  let s ← get
  Tx.each expireConnection ((s.connections.rows.filter fun d =>
    d.state = .active ∧ d.leaseExpiresAt < now).map Connection.id)

/-! ## The system -/

inductive Event
  | issue (c : IssueCall)
  | attach (c : AttachCall)
  | close (c : CloseCall)
  | reconcile (catalogDigest releaseId : String)
  | expire (now : ℕ)
  deriving DecidableEq, Repr

/-- What a call leaves. -/
def step (σ : Settings) (s : Store) : Event → Store
  | .issue c => Tx.commit (issueOwnerLocalAttachmentBootstrap σ c) s
  | .attach c => Tx.commit (attachCaoSession σ c) s
  | .close c => Tx.commit (closeCaoConversation c) s
  | .reconcile catalogDigest releaseId =>
    Tx.commit (reconcileConversationToolCatalog catalogDigest releaseId) s
  | .expire now => Tx.commit (expireLeases now) s

/-- **The calls of any number of peers.** -/
def system (σ : Settings) : TransitionSystem Store Event where
  init s := s = .empty
  step s e s' := s' = step σ s e

end Attachments
