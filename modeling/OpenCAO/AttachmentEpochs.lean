import OpenCAO.Attachments
import OpenCAO.Epochs

/-!
# The epochs of an attachment

However the calls of the peers of a thread interleave, a thread has one attachment, its
generation rises only when it is reopened, its connections are numbered upwards, and a
connection has one credential, which is of no use once the attachment is in another
generation. A capability is used once, and only while what its issuer has observed is so.

A call is made of moves, each of which changes one table. No order between the moves of a
call matters for what is kept: a credential is bound to columns of its connection that
never change, and the comparison with the attachment is made anew by every authentication.
-/

namespace Attachments

variable {σ : Settings} {s s' : Store}

/-! ## Rows -/

/-- What an update may do to an attachment: nothing to its generation, unless it is revoked
and opened again. -/
structure Attachment.Next (a a' : Attachment) : Prop where
  id : a'.id = a.id
  principal : a'.principal = a.principal
  nativeThreadId : a'.nativeThreadId = a.nativeThreadId
  generation : a'.generation = a.generation ∧ (a.state = .revoked → a'.state = .revoked) ∨
    a.state = .revoked ∧ a'.state = .active ∧ a'.generation = a.generation + 1

/-- The columns of a connection that never change. -/
structure Connection.Follows (d d' : Connection) : Prop where
  id : d'.id = d.id
  attachment : d'.attachment = d.attachment
  principal : d'.principal = d.principal
  generation : d'.generation = d.generation
  connectionGeneration : d'.connectionGeneration = d.connectionGeneration

/-- A credential is what it was, or no longer active. -/
structure Credential.Follows (k k' : Credential) : Prop where
  id : k'.id = k.id
  attachment : k'.attachment = k.attachment
  connection : k'.connection = k.connection
  principal : k'.principal = k.principal
  generation : k'.generation = k.generation
  state : k'.state = .active → k.state = .active

/-- A capability is what it was, or no longer active. -/
structure Bootstrap.Follows (b b' : Bootstrap) : Prop where
  id : b'.id = b.id
  state : b'.state = .active → b.state = .active

theorem Attachment.Next.refl (a : Attachment) : a.Next a :=
  ⟨rfl, rfl, rfl, .inl ⟨rfl, fun h => h⟩⟩

theorem Connection.Follows.refl (d : Connection) : d.Follows d := ⟨rfl, rfl, rfl, rfl, rfl⟩

theorem Credential.Follows.refl (k : Credential) : k.Follows k :=
  ⟨rfl, rfl, rfl, rfl, rfl, fun h => h⟩

theorem Bootstrap.Follows.refl (b : Bootstrap) : b.Follows b := ⟨rfl, fun h => h⟩

theorem Connection.lapse_follows (p : Connection → Prop) [DecidablePred p]
    (state : ConnectionState) (d : Connection) : d.Follows (d.lapse p state) := by
  unfold Connection.lapse
  split
  · exact ⟨rfl, rfl, rfl, rfl, rfl⟩
  · exact .refl d

theorem Credential.lapse_follows (p : Credential → Prop) [DecidablePred p]
    {state : CredentialState} (hstate : state ≠ .active) (k : Credential) :
    k.Follows (k.lapse p state) := by
  unfold Credential.lapse
  split
  · exact ⟨rfl, rfl, rfl, rfl, rfl, fun h => absurd h hstate⟩
  · exact .refl k

theorem Bootstrap.withdraw_follows (p : Bootstrap → Prop) [DecidablePred p] (b : Bootstrap) :
    b.Follows (b.withdraw p) := by
  unfold Bootstrap.withdraw
  split
  · exact ⟨rfl, CredentialState.noConfusion⟩
  · exact .refl b

theorem Bootstrap.bind_follows (c : AttachCall) (b : Bootstrap) : b.Follows (b.bind c) := by
  unfold Bootstrap.bind
  split
  case isTrue h => exact ⟨rfl, fun _ => h.2.2⟩
  case isFalse => exact .refl b

theorem Attachment.reopen_next (c : AttachCall) (id : String) (generation : ℕ) (a : Attachment) :
    a.Next (a.reopen c id generation) := by
  unfold Attachment.reopen
  split
  case isTrue h => exact ⟨rfl, rfl, rfl, .inr ⟨h.2.2.1, rfl, congrArg (· + 1) h.2.2.2.symm⟩⟩
  case isFalse => exact .refl a

theorem Attachment.close_next (id : String) (generation : ℕ) (a : Attachment) :
    a.Next (a.close id generation) := by
  unfold Attachment.close
  split
  · exact ⟨rfl, rfl, rfl, .inl ⟨rfl, fun _ => rfl⟩⟩
  · exact .refl a

theorem Attachment.reroute_next (id : String) (route : Option String) (a : Attachment) :
    a.Next (a.reroute id route) := by
  unfold Attachment.reroute
  split
  · exact ⟨rfl, rfl, rfl, .inl ⟨rfl, fun h => h⟩⟩
  · exact .refl a

/-- An attachment that is renewed is not a revoked one. -/
theorem Attachment.renew_next {id : String} {lease : ℕ} {a : Attachment}
    (h : a.id = id → a.state ≠ .revoked) : a.Next (a.renew id lease) := by
  unfold Attachment.renew
  split
  case isTrue hid => exact ⟨rfl, rfl, rfl, .inl ⟨rfl, fun hstate => absurd hstate (h hid)⟩⟩
  case isFalse => exact .refl a

/-! ## Moves -/

/-- **What a call is made of.** -/
inductive Moves : Store → Store → Prop
  | catalog (s : Store) (catalogDigest : Option String) (version : Option ℕ) :
      Moves s { s with catalogDigest := catalogDigest, proxyAbiVersion := version }
  /-- A capability is issued. -/
  | bootstrapped (s : Store) (b : Bootstrap) (bootstraps : UniqueRows Bootstrap Bootstrap.Clash)
      (hinsert : s.bootstraps.insert b = some bootstraps) :
      Moves s { s with bootstraps := bootstraps }
  | bootstraps (s : Store) (f : Bootstrap → Bootstrap)
      (bootstraps : UniqueRows Bootstrap Bootstrap.Clash) (hf : ∀ b : Bootstrap, b.Follows (f b))
      (hrows : bootstraps.rows = s.bootstraps.rows.map f) :
      Moves s { s with bootstraps := bootstraps }
  /-- A thread without an attachment is attached. -/
  | created (s : Store) (a : Attachment)
      (attachments : UniqueRows Attachment Attachment.Clash)
      (hnone : ∀ b ∈ s.attachments.rows,
        ¬ (b.principal = a.principal ∧ b.nativeThreadId = a.nativeThreadId))
      (hinsert : s.attachments.insert a = some attachments) :
      Moves s { s with attachments := attachments }
  | attachments (s : Store) (f : Attachment → Attachment)
      (attachments : UniqueRows Attachment Attachment.Clash)
      (hf : ∀ a ∈ s.attachments.rows, a.Next (f a))
      (hrows : attachments.rows = s.attachments.rows.map f) :
      Moves s { s with attachments := attachments }
  /-- A connection is opened. -/
  | connected (s : Store) (d : Connection) (a : Attachment)
      (connections : UniqueRows Connection Connection.Clash) (ha : a ∈ s.attachments.rows)
      (howner : a.id = d.attachment) (hgeneration : d.generation = a.generation)
      (habove : ∀ e ∈ s.connections.rows, e.attachment = d.attachment →
        e.connectionGeneration < d.connectionGeneration)
      (hinsert : s.connections.insert d = some connections) :
      Moves s { s with connections := connections }
  | connections (s : Store) (f : Connection → Connection)
      (connections : UniqueRows Connection Connection.Clash)
      (hf : ∀ d : Connection, d.Follows (f d))
      (hrows : connections.rows = s.connections.rows.map f) :
      Moves s { s with connections := connections }
  /-- A credential is issued. -/
  | credentialed (s : Store) (k : Credential)
      (credentials : UniqueRows Credential Credential.Clash) (hbound : s.Bound k)
      (hinsert : s.credentials.insert k = some credentials) :
      Moves s { s with credentials := credentials }
  | credentials (s : Store) (f : Credential → Credential)
      (credentials : UniqueRows Credential Credential.Clash)
      (hf : ∀ k : Credential, k.Follows (f k))
      (hrows : credentials.rows = s.credentials.rows.map f) :
      Moves s { s with credentials := credentials }

/-! ## What the statements leave -/

theorem updateAttachments_ensures (f : Attachment → Attachment) :
    Tx.Ensures s (updateAttachments f) fun _ t => ∃ attachments,
      attachments.rows = s.attachments.rows.map f ∧ t = { s with attachments := attachments } := by
  unfold updateAttachments
  exact .get (.need fun attachments h => ⟨attachments, UniqueRows.rows_update h, rfl⟩)

theorem updateConnections_ensures (f : Connection → Connection) :
    Tx.Ensures s (updateConnections f) fun _ t => ∃ connections,
      connections.rows = s.connections.rows.map f ∧ t = { s with connections := connections } := by
  unfold updateConnections
  exact .get (.need fun connections h => ⟨connections, UniqueRows.rows_update h, rfl⟩)

theorem updateCredentials_ensures (f : Credential → Credential) :
    Tx.Ensures s (updateCredentials f) fun _ t => ∃ credentials,
      credentials.rows = s.credentials.rows.map f ∧ t = { s with credentials := credentials } := by
  unfold updateCredentials
  exact .get (.need fun credentials h => ⟨credentials, UniqueRows.rows_update h, rfl⟩)

theorem updateBootstraps_ensures (f : Bootstrap → Bootstrap) :
    Tx.Ensures s (updateBootstraps f) fun _ t => ∃ bootstraps,
      bootstraps.rows = s.bootstraps.rows.map f ∧ t = { s with bootstraps := bootstraps } := by
  unfold updateBootstraps
  exact .get (.need fun bootstraps h => ⟨bootstraps, UniqueRows.rows_update h, rfl⟩)

/-- A transaction that leaves the attachments alone. -/
def Beside (s t : Store) : Prop :=
  Relation.ReflTransGen Moves s t ∧ t.attachments = s.attachments

theorem Beside.refl (s : Store) : Beside s s := ⟨.refl, rfl⟩

theorem Beside.trans {a b c : Store} (hab : Beside a b) (hbc : Beside b c) : Beside a c :=
  ⟨hab.1.trans hbc.1, hbc.2.trans hab.2⟩

theorem updateConnections_beside {f : Connection → Connection}
    (hf : ∀ d : Connection, d.Follows (f d)) :
    Tx.Ensures s (updateConnections f) fun _ t => Beside s t :=
  (updateConnections_ensures f).mono fun _ _ ⟨connections, hrows, h⟩ =>
    h ▸ ⟨.single (.connections s f connections hf hrows), rfl⟩

theorem updateCredentials_beside {f : Credential → Credential}
    (hf : ∀ k : Credential, k.Follows (f k)) :
    Tx.Ensures s (updateCredentials f) fun _ t => Beside s t :=
  (updateCredentials_ensures f).mono fun _ _ ⟨credentials, hrows, h⟩ =>
    h ▸ ⟨.single (.credentials s f credentials hf hrows), rfl⟩

theorem updateBootstraps_beside {f : Bootstrap → Bootstrap}
    (hf : ∀ b : Bootstrap, b.Follows (f b)) :
    Tx.Ensures s (updateBootstraps f) fun _ t => Beside s t ∧
      t.bootstraps.rows = s.bootstraps.rows.map f ∧ t.connections = s.connections :=
  (updateBootstraps_ensures f).mono fun _ _ ⟨bootstraps, hrows, h⟩ =>
    h ▸ ⟨⟨.single (.bootstraps s f bootstraps hf hrows), rfl⟩, hrows, rfl⟩

/-! ## Capabilities -/

theorem of_bootstrap? {id : String} {b : Bootstrap} (h : s.bootstrap? id = some b) :
    b ∈ s.bootstraps.rows ∧ b.id = id := by
  obtain ⟨hb, hid⟩ := UniqueRows.of_find? h
  exact ⟨hb, of_decide_eq_true hid⟩

theorem of_attachment? {id : String} {a : Attachment} (h : s.attachment? id = some a) :
    a ∈ s.attachments.rows ∧ a.id = id := by
  obtain ⟨ha, hid⟩ := UniqueRows.of_find? h
  exact ⟨ha, of_decide_eq_true hid⟩

theorem of_credential? {id : String} {k : Credential} (h : s.credential? id = some k) :
    k ∈ s.credentials.rows ∧ k.id = id := by
  obtain ⟨hk, hid⟩ := UniqueRows.of_find? h
  exact ⟨hk, of_decide_eq_true hid⟩

theorem bootstrap_eq {a b : Bootstrap} (ha : a ∈ s.bootstraps.rows) (hb : b ∈ s.bootstraps.rows)
    (h : a.id = b.id) : a = b :=
  s.bootstraps.eq_of_clash (fun _ _ h => h.imp Eq.symm Eq.symm) ha hb (.inl h)

theorem attachment_eq {a b : Attachment} (ha : a ∈ s.attachments.rows)
    (hb : b ∈ s.attachments.rows) (h : a.id = b.id) : a = b := by
  refine s.attachments.eq_of_clash (fun a b h => ?_) ha hb (.inl h)
  rcases h with h | h | ⟨hp, ht, ha, hb⟩
  · exact .inl h.symm
  · exact .inr (.inl h.symm)
  · exact .inr (.inr ⟨hp.symm, ht.symm, hb, ha⟩)

/-- The newest of some attachments is one of them. -/
theorem newest_mem (a : Attachment) (rest : List Attachment) :
    rest.foldl Attachment.newer a ∈ a :: rest := by
  induction rest generalizing a with
  | nil => exact List.mem_singleton_self a
  | cons b rest ih =>
    have hnewer : a.newer b = a ∨ a.newer b = b := by
      unfold Attachment.newer
      split
      · exact .inr rfl
      · exact .inl rfl
    rcases List.mem_cons.mp (ih (a.newer b)) with h | h
    · rw [List.foldl_cons, h]
      rcases hnewer with h | h
      · rw [h]
        exact List.mem_cons_self
      · rw [h]
        exact List.mem_cons_of_mem a List.mem_cons_self
    · exact List.mem_cons_of_mem a (List.mem_cons_of_mem b h)

theorem of_observed {principal thread : String} {a : Attachment}
    (h : s.observed principal thread = some a) :
    a ∈ s.attachments.rows ∧ a.principal = principal ∧ a.nativeThreadId = thread := by
  unfold Store.observed at h
  split at h
  · cases h
  case h_2 first rest hrows =>
    have hmem := newest_mem first rest
    rw [Option.some.inj h, ← hrows, List.mem_filter] at hmem
    exact ⟨hmem.1, of_decide_eq_true hmem.2⟩

theorem of_observed_none {principal thread : String} (h : s.observed principal thread = none)
    {a : Attachment} (ha : a ∈ s.attachments.rows) :
    ¬ (a.principal = principal ∧ a.nativeThreadId = thread) := by
  unfold Store.observed at h
  split at h
  case h_1 hrows =>
    intro hsame
    have hmem : a ∈ s.attachments.rows.filter fun a =>
        a.principal = principal ∧ a.nativeThreadId = thread :=
      List.mem_filter.mpr ⟨ha, decide_eq_true hsame⟩
    rw [hrows] at hmem
    exact List.not_mem_nil hmem
  · cases h

/-- **What the issuer of a capability has observed is so.** -/
structure Observes (s : Store) (b : Bootstrap) : Prop where
  present : ∀ id generation, b.observed = some (id, generation) → ∃ a ∈ s.attachments.rows,
    a.id = id ∧ a.generation = generation ∧ a.principal = b.principal ∧
      a.nativeThreadId = b.nativeThreadId
  absent : b.observed = none → ∀ a ∈ s.attachments.rows,
    ¬ (a.principal = b.principal ∧ a.nativeThreadId = b.nativeThreadId)

/-- The capability that an attach is made with. -/
structure Carries (s : Store) (c : AttachCall) (b : Bootstrap) : Prop where
  mem : b ∈ s.bootstraps.rows
  id : b.id = c.capabilityId
  state : b.state = .active
  principal : b.principal = c.principal
  nativeThreadId : b.nativeThreadId = c.nativeThreadId

theorem checkBootstrap_reads (c : AttachCall) : Tx.Reads (Carries s c) s (checkBootstrap c) := by
  unfold checkBootstrap
  refine Tx.Ensures.require fun _ => .require fun _ => .require fun _ => .get ?_
  refine .need fun b hb => .require fun hpeer => .require fun _ => .require fun _ => ?_
  refine .require fun _ => ⟨rfl, ?_⟩
  obtain ⟨hfind, hkept⟩ := Option.filter_eq_some_iff.mp hb
  obtain ⟨hprincipal, hstate, -⟩ := of_decide_eq_true hkept
  obtain ⟨hmem, hid⟩ := of_bootstrap? hfind
  exact ⟨hmem, hid, hstate, hprincipal, hpeer.2.2.1⟩

/-- The attachment of an attach, where its thread has one. -/
structure Finds (s : Store) (c : AttachCall) (b : Bootstrap) (existing : Option Attachment) :
    Prop where
  present : ∀ a, existing = some a → a ∈ s.attachments.rows ∧ a.principal = c.principal ∧
    a.nativeThreadId = c.nativeThreadId ∧ b.observed = some (a.id, a.generation)
  absent : existing = none → b.observed = none ∧ ∀ a ∈ s.attachments.rows,
    ¬ (a.principal = c.principal ∧ a.nativeThreadId = c.nativeThreadId)

theorem checkObservation_reads (c : AttachCall) (b : Bootstrap) :
    Tx.Reads (Finds s c b) s (checkObservation c b) := by
  unfold checkObservation
  refine Tx.Ensures.get ?_
  split
  case h_1 id generation hobserved =>
    refine .need fun a ha => .require fun hgeneration => .require fun hsame => ⟨rfl, ?_⟩
    obtain ⟨hfind, hkept⟩ := Option.filter_eq_some_iff.mp ha
    obtain ⟨hmem, hid⟩ := of_attachment? hfind
    refine ⟨fun a' h => ?_, fun h => by cases h⟩
    obtain rfl := Option.some.inj h
    exact ⟨hmem, of_decide_eq_true hkept, hsame.1, by rw [hobserved, hid, hgeneration]⟩
  case h_2 hobserved =>
    refine .require fun hnone => ⟨rfl, fun a h => (by cases h), fun _ => ⟨hobserved, ?_⟩⟩
    exact fun a ha => of_observed_none hnone ha

theorem Finds.observes {c : AttachCall} {b : Bootstrap} {existing : Option Attachment}
    (h : Finds s c b existing) (hb : Carries s c b) : Observes s b := by
  cases existing with
  | none =>
    obtain ⟨hobserved, hnone⟩ := h.absent rfl
    refine ⟨fun id generation hsome => ?_, fun _ a ha => ?_⟩
    · rw [hobserved] at hsome
      cases hsome
    · rw [hb.principal, hb.nativeThreadId]
      exact hnone a ha
  | some a =>
    obtain ⟨hmem, hprincipal, hthread, hobserved⟩ := h.present a rfl
    refine ⟨fun id generation hsome => ?_, fun hnone => ?_⟩
    · rw [hobserved] at hsome
      obtain ⟨rfl, rfl⟩ := Prod.mk.inj (Option.some.inj hsome)
      exact ⟨a, hmem, rfl, rfl, hprincipal.trans hb.principal.symm,
        hthread.trans hb.nativeThreadId.symm⟩
    · rw [hobserved] at hnone
      cases hnone

theorem issue_ensures (c : IssueCall) :
    Tx.Ensures s (issueOwnerLocalAttachmentBootstrap σ c) fun _ t => Beside s t ∧
      ∃ b ∈ t.bootstraps.rows, b.id = c.capabilityId ∧ b.state = .active ∧ Observes s b := by
  unfold issueOwnerLocalAttachmentBootstrap insertBootstrap
  refine .require fun _ => .get (.require fun _ => .need fun principal _ => .get ?_)
  refine .need fun bootstraps hinsert => ?_
  refine ⟨⟨.single (.bootstrapped s _ bootstraps hinsert), rfl⟩, _,
    UniqueRows.mem_insert hinsert, rfl, rfl, fun id generation hsome => ?_, fun hnone a ha => ?_⟩
  · obtain ⟨a, hobserved, h⟩ := Option.map_eq_some_iff.mp hsome
    obtain ⟨rfl, rfl⟩ := Prod.mk.inj h
    obtain ⟨ha, hprincipal, hthread⟩ := of_observed hobserved
    exact ⟨a, ha, rfl, rfl, hprincipal, hthread⟩
  · exact of_observed_none (Option.map_eq_none_iff.mp hnone) ha

/-! ## Attaching -/

/-- **What a call does to the attachments**: at most one is added, and a generation rises only
where a revoked attachment is opened. -/
def Raised (s t : Store) : Prop :=
  ∃ f es, t.attachments.rows = s.attachments.rows.map f ++ es ∧
    ∀ a ∈ s.attachments.rows, a.Next (f a)

theorem Raised.of_eq {t : Store} (h : t.attachments = s.attachments) : Raised s t :=
  ⟨id, [], by rw [h, List.map_id, List.append_nil], fun a _ => .refl a⟩

theorem Raised.beside {t u : Store} (h : Raised s t) (hu : Beside t u) : Raised s u := by
  obtain ⟨f, es, hrows, hf⟩ := h
  exact ⟨f, es, by rw [hu.2, hrows], hf⟩

/-- An attachment is open in a generation. -/
def Opened (s t : Store) (c : AttachCall) (r : String × ℕ) : Prop :=
  Relation.ReflTransGen Moves s t ∧ Raised s t ∧ ∃ a ∈ t.attachments.rows, a.id = r.1 ∧
    a.generation = r.2 ∧ a.principal = c.principal

theorem Opened.beside {t u : Store} {c : AttachCall} {r : String × ℕ} (h : Opened s t c r)
    (hu : Beside t u) : Opened s u c r := by
  obtain ⟨hmoves, hraised, hopen⟩ := h
  exact ⟨hmoves.trans hu.1, hraised.beside hu, hu.2 ▸ hopen⟩

theorem createAttachment_ensures {c : AttachCall} (hnone : ∀ a ∈ s.attachments.rows,
    ¬ (a.principal = c.principal ∧ a.nativeThreadId = c.nativeThreadId)) :
    Tx.Ensures s (createAttachment c) fun _ t => Opened s t c (c.attachmentId, 0) := by
  unfold createAttachment insertAttachment
  refine .bind (P := fun _ t => Opened s t c (c.attachmentId, 0)) (.get ?_) fun _ t ht => ?_
  · refine .need fun attachments hinsert => ?_
    refine ⟨.single (.created s c.newAttachment attachments hnone hinsert),
      ⟨id, [c.newAttachment], ?_, fun a _ => .refl a⟩, c.newAttachment,
      UniqueRows.mem_insert hinsert, rfl, rfl, rfl⟩
    rw [List.map_id]
    exact UniqueRows.rows_insert hinsert
  · refine (updateBootstraps_beside (Bootstrap.bind_follows c)).bind fun _ u hu => ?_
    refine (updateBootstraps_beside (Bootstrap.withdraw_follows _)).mono fun _ v hv => ?_
    exact ht.beside (hu.1.trans hv.1)

theorem reopenAttachment_ensures {c : AttachCall} {a : Attachment}
    (ha : a ∈ s.attachments.rows) (hprincipal : a.principal = c.principal)
    (hstate : a.state = .revoked) :
    Tx.Ensures s (reopenAttachment c a) fun _ t => Opened s t c (a.id, a.generation + 1) := by
  unfold reopenAttachment
  refine (updateAttachments_ensures _).bind fun _ t ht => ?_
  obtain ⟨attachments, hrows, rfl⟩ := ht
  refine (updateBootstraps_beside (Bootstrap.withdraw_follows _)).mono fun _ v hv => ?_
  have hnext : ∀ b ∈ s.attachments.rows, b.Next (b.reopen c a.id a.generation) := fun b _ =>
    Attachment.reopen_next c _ _ b
  refine Opened.beside ⟨.single (.attachments s _ attachments hnext hrows), ⟨_, [], ?_, hnext⟩,
    a.reopen c a.id a.generation, ?_, ?_⟩ hv.1
  · rw [List.append_nil]
    exact hrows
  · show _ ∈ attachments.rows
    rw [hrows]
    exact List.mem_map_of_mem ha
  · unfold Attachment.reopen
    rw [if_pos ⟨rfl, hprincipal, hstate, rfl⟩]
    exact ⟨rfl, rfl, hprincipal⟩

/-- What is renewed and rerouted stays in its generation. -/
theorem Attachment.renewed_same (id : String) (lease : ℕ) (route : Option String)
    (a : Attachment) : ((a.renew id lease).reroute id route).id = a.id ∧
      ((a.renew id lease).reroute id route).principal = a.principal ∧
      ((a.renew id lease).reroute id route).nativeThreadId = a.nativeThreadId ∧
      ((a.renew id lease).reroute id route).generation = a.generation ∧
      (a.id ≠ id → (a.renew id lease).reroute id route = a) := by
  unfold Attachment.renew Attachment.reroute
  by_cases h : a.id = id <;> simp [h]

theorem renewAttachment_ensures {c : AttachCall} {a : Attachment}
    (ha : a ∈ s.attachments.rows) (hprincipal : a.principal = c.principal)
    (hstate : a.state ≠ .revoked) :
    Tx.Ensures s (renewAttachment c a) fun _ t => Opened s t c (a.id, a.generation) := by
  unfold renewAttachment
  generalize max a.leaseExpiresAt (utcAfter c.now c.leaseSeconds) = lease
  refine (updateAttachments_ensures _).bind fun _ t ht => ?_
  obtain ⟨renewed, hrenewed, rfl⟩ := ht
  refine (updateAttachments_ensures _).mono fun _ t ht => ?_
  obtain ⟨rerouted, hrerouted, rfl⟩ := ht
  have hrows : rerouted.rows = s.attachments.rows.map fun b =>
      (b.renew a.id lease).reroute a.id c.wakeRoute := by
    rw [hrerouted, show _ = List.map _ s.attachments.rows from hrenewed, List.map_map]
    rfl
  have hrenew : ∀ b ∈ s.attachments.rows, b.Next (b.renew a.id lease) := fun b hb =>
    Attachment.renew_next fun hid => by
      rw [attachment_eq hb ha hid]
      exact hstate
  have hraised : ∀ b ∈ s.attachments.rows,
      b.Next ((b.renew a.id lease).reroute a.id c.wakeRoute) := fun b hb => by
    obtain ⟨hid, hp, hthread, hgeneration, hother⟩ :=
      Attachment.renewed_same a.id lease c.wakeRoute b
    refine ⟨hid, hp, hthread, .inl ⟨hgeneration, fun hrevoked => ?_⟩⟩
    rw [hother fun h => hstate (attachment_eq hb ha h ▸ hrevoked)]
    exact hrevoked
  obtain ⟨hid, hp, -, hgeneration, -⟩ := Attachment.renewed_same a.id lease c.wakeRoute a
  refine ⟨.tail (.single (.attachments s _ renewed hrenew hrenewed)) (.attachments _ _ rerouted
    (fun b _ => Attachment.reroute_next a.id c.wakeRoute b) hrerouted),
    ⟨fun b => (b.renew a.id lease).reroute a.id c.wakeRoute, [], ?_, hraised⟩,
    (a.renew a.id lease).reroute a.id c.wakeRoute, ?_, hid, hgeneration, hp.trans hprincipal⟩
  · rw [List.append_nil]
    exact hrows
  · show _ ∈ rerouted.rows
    rw [hrows]
    exact List.mem_map.mpr ⟨a, ha, rfl⟩

theorem openAttachment_ensures {c : AttachCall} {b : Bootstrap} {existing : Option Attachment}
    (h : Finds s c b existing) : Tx.Ensures s (openAttachment c existing) fun r t =>
      Opened s t c r := by
  unfold openAttachment
  split
  · exact (createAttachment_ensures (h.absent rfl).2).bind fun _ t ht => ht
  case h_2 a =>
    obtain ⟨ha, hprincipal, -⟩ := h.present a rfl
    refine .ite (fun hstate => ?_) fun hstate => ?_
    · exact (reopenAttachment_ensures ha hprincipal hstate).bind fun _ t ht => ht
    · exact (renewAttachment_ensures ha hprincipal hstate).bind fun _ t ht => ht

/-- Every number of a connection is below the next. -/
theorem lt_nextConnectionGeneration {attachmentId : String} {d : Connection}
    (hd : d ∈ s.connections.rows) (howner : d.attachment = attachmentId) :
    d.connectionGeneration < s.nextConnectionGeneration attachmentId := by
  have hmax : ∀ (l : List ℕ) (m n : ℕ), n ∈ m :: l → n ≤ l.foldl max m := fun l => by
    induction l with
    | nil => exact fun m n h => Nat.le_of_eq (List.mem_singleton.mp h)
    | cons x l ih =>
      intro m n h
      rw [List.foldl_cons]
      rcases List.mem_cons.mp h with rfl | h
      · exact Nat.le_trans (Nat.le_max_left _ _) (ih _ _ List.mem_cons_self)
      · rcases List.mem_cons.mp h with rfl | h
        · exact Nat.le_trans (Nat.le_max_right _ _) (ih _ _ List.mem_cons_self)
        · exact ih _ _ (List.mem_cons_of_mem _ h)
  unfold Store.nextConnectionGeneration
  refine Nat.lt_succ_of_le (hmax _ _ _ (List.mem_cons_of_mem _ (List.mem_map_of_mem ?_)))
  exact List.mem_filter.mpr ⟨hd, decide_eq_true howner⟩

theorem openConnection_ensures {c : AttachCall} {b : Bootstrap} {a : Attachment}
    (ha : a ∈ s.attachments.rows) : Tx.Ensures s (openConnection σ c b a.id a.generation) fun _ t =>
      Beside s t ∧ t.bootstraps = s.bootstraps := by
  unfold openConnection
  refine .get ?_
  split
  case h_1 d _ =>
    refine .require fun _ => .require fun _ => (updateConnections_ensures _).bind fun _ t ht => ?_
    obtain ⟨connections, hrows, rfl⟩ := ht
    refine ⟨⟨.single (.connections s _ connections (fun d' => ?_) hrows), rfl⟩, rfl⟩
    split
    · exact ⟨rfl, rfl, rfl, rfl, rfl⟩
    · exact .refl d'
  · unfold insertConnection
    refine .bind (P := fun _ t => Beside s t ∧ t.bootstraps = s.bootstraps)
      (.require fun _ => .get (.need fun connections hinsert => ?_)) fun _ t ht => ht
    exact ⟨⟨.single (.connected s _ a connections ha rfl rfl
      (fun d hd howner => lt_nextConnectionGeneration hd howner) hinsert), rfl⟩, rfl⟩

theorem issueConversationCredential_ensures (c : AttachCall) (attachmentId connectionId : String)
    (generation : ℕ) :
    Tx.Ensures s (issueConversationCredential σ c attachmentId connectionId generation) fun _ t =>
      Beside s t ∧ t.bootstraps = s.bootstraps := by
  unfold issueConversationCredential insertCredential
  refine (updateCredentials_ensures _).bind fun _ t ht => ?_
  obtain ⟨revoked, hrows, rfl⟩ := ht
  refine .get (.require fun hbound => .need fun credentials hinsert => ?_)
  refine ⟨⟨.tail (.single (.credentials s _ revoked
    (Credential.lapse_follows _ (by decide)) hrows)) ?_, rfl⟩, rfl⟩
  exact .credentialed _ _ credentials hbound hinsert

/-- **What an attach does**: what its capability has observed is so, and the capability is used
up. -/
theorem attach_ensures (c : AttachCall) : Tx.Ensures s (attachCaoSession σ c) fun _ t =>
    (Relation.ReflTransGen Moves s t ∧ Raised s t) ∧
    (∃ b ∈ s.bootstraps.rows, b.id = c.capabilityId ∧ b.state = .active ∧ Observes s b) ∧
    ∀ b ∈ t.bootstraps.rows, b.id = c.capabilityId → b.state ≠ .active := by
  unfold attachCaoSession
  refine (checkBootstrap_reads c).bind fun b hb => (checkObservation_reads c b).bind fun existing
    hexisting => ?_
  refine (openAttachment_ensures hexisting).bind fun r t ht => ?_
  have hconsume : ∀ b' : Bootstrap, b'.Follows
      (if b'.id = c.capabilityId then { b' with state := .revoked } else b') := fun b' => by
    split
    · exact ⟨rfl, CredentialState.noConfusion⟩
    · exact .refl b'
  refine (updateBootstraps_beside hconsume).bind fun _ u hu => ?_
  obtain ⟨hmoves, hraised, a, ha, hid, hgeneration, -⟩ := ht.beside hu.1
  rw [← hid, ← hgeneration]
  refine (openConnection_ensures ha).bind fun q v hv => ?_
  refine (issueConversationCredential_ensures c _ _ _).bind fun _ w hw => ?_
  have hbeside := hv.1.trans hw.1
  refine ⟨⟨hmoves.trans hbeside.1, hraised.beside hbeside⟩,
    ⟨b, hb.mem, hb.id, hb.state, hexisting.observes hb⟩, ?_⟩
  rw [hw.2, hv.2, hu.2.1]
  refine List.forall_mem_map.mpr fun b' _ hsame => ?_
  rw [(hconsume b').id] at hsame
  rw [if_pos hsame]
  exact CredentialState.noConfusion

/-! ## Closing, catalogs and leases -/

theorem close_ensures (c : CloseCall) : Tx.Ensures s (closeCaoConversation c) fun closed t =>
    (Relation.ReflTransGen Moves s t ∧ Raised s t) ∧ (closed = true →
      ∃ a ∈ t.attachments.rows, a.id = c.actor.attachmentId ∧
        a.generation = c.actor.attachmentGeneration ∧ a.state = .revoked) := by
  unfold closeCaoConversation
  refine .require fun _ => .get (.require fun _ => .require fun hattachment => ?_)
  obtain ⟨a, ha, hid, -, hgeneration, hstate⟩ := hattachment
  split
  · exact ⟨⟨.refl, .of_eq rfl⟩, fun h => by cases h⟩
  · exact Tx.ensures_throw _
  · refine (updateBootstraps_beside (Bootstrap.withdraw_follows _)).bind fun _ t ht => ?_
    refine (updateConnections_beside (Connection.lapse_follows _ _)).bind fun _ u hu => ?_
    refine (updateCredentials_beside (Credential.lapse_follows _ (by decide))).bind fun _ v hv => ?_
    refine (updateAttachments_ensures _).bind fun _ w hw => ?_
    obtain ⟨attachments, hrows, rfl⟩ := hw
    have hbeside := (ht.1.trans hu).trans hv
    have hnext : ∀ b : Attachment,
        b.Next (b.close c.actor.attachmentId c.actor.attachmentGeneration) :=
      Attachment.close_next _ _
    refine ⟨⟨hbeside.1.tail (.attachments v _ attachments (fun b _ => hnext b) hrows), _, [], ?_,
      fun b _ => hnext b⟩, fun _ => ⟨a.close c.actor.attachmentId c.actor.attachmentGeneration,
      ?_, ?_⟩⟩
    · rw [List.append_nil, ← hbeside.2]
      exact hrows
    · show _ ∈ attachments.rows
      rw [hrows, hbeside.2]
      exact List.mem_map_of_mem ha
    · unfold Attachment.close
      rw [if_pos ⟨hid, hgeneration, hstate⟩]
      exact ⟨hid, hgeneration, rfl⟩

theorem reconcile_ensures (catalogDigest releaseId : String) :
    Tx.Ensures s (reconcileConversationToolCatalog catalogDigest releaseId) fun _ t =>
      Beside s t := by
  unfold reconcileConversationToolCatalog
  refine .require fun _ => .get (.bind (P := fun _ t => Beside s t) ?_ fun _ t ht => ?_)
  · unfold Tx.when
    refine .ite (fun _ => ?_) fun _ => .refl s
    refine (updateConnections_beside (Connection.lapse_follows _ _)).bind fun _ t ht => ?_
    refine (updateCredentials_beside (Credential.lapse_follows _ (by decide))).bind fun _ u hu => ?_
    refine (updateCredentials_beside (Credential.lapse_follows _ (by decide))).mono fun _ v hv => ?_
    exact (ht.trans hu).trans hv
  · exact ht.trans ⟨.single (.catalog t _ _), rfl⟩

theorem expire_ensures (now : ℕ) : Tx.Ensures s (expireLeases now) fun _ t => Beside s t := by
  unfold expireLeases
  refine .get (Tx.wp_each (I := fun t => Beside s t) _ (fun id _ t ht => ?_) (.refl s))
  unfold expireConnection
  refine Tx.Ensures.bind (updateConnections_beside (Connection.lapse_follows _ _)) fun _ u hu => ?_
  refine (updateCredentials_beside (Credential.lapse_follows _ (by decide))).mono fun _ v hv => ?_
  exact (ht.trans hu).trans hv

/-- **A step is made of moves**, and raises a generation only where an attachment is opened. -/
theorem step_moves (s : Store) (e : Event) :
    Relation.ReflTransGen Moves s (step σ s e) ∧ Raised s (step σ s e) := by
  have hcommit : ∀ {α : Type} {m : Tx Store Error α},
      Tx.Ensures s m (fun _ t => Relation.ReflTransGen Moves s t ∧ Raised s t) →
      Relation.ReflTransGen Moves s (Tx.commit m s) ∧ Raised s (Tx.commit m s) := fun h =>
    Tx.commit_of_wp (I := fun t => Relation.ReflTransGen Moves s t ∧ Raised s t)
      ⟨.refl, .of_eq rfl⟩ h
  have hbeside : ∀ {t : Store}, Beside s t → Relation.ReflTransGen Moves s t ∧ Raised s t :=
    fun h => ⟨h.1, .of_eq h.2⟩
  cases e with
  | issue c => exact hcommit ((issue_ensures c).mono fun _ _ h => hbeside h.1)
  | attach c => exact hcommit ((attach_ensures c).mono fun _ _ h => h.1)
  | close c => exact hcommit ((close_ensures c).mono fun _ _ h => h.1)
  | reconcile catalogDigest releaseId =>
    exact hcommit ((reconcile_ensures catalogDigest releaseId).mono fun _ _ h => hbeside h)
  | expire now => exact hcommit ((expire_ensures now).mono fun _ _ h => hbeside h)

/-! ## The invariant -/

/-- A principal's thread. -/
def Attachment.thread (a : Attachment) : String × String := (a.principal, a.nativeThreadId)

/-- **The epochs of a file are in order.** -/
structure Inv (s : Store) : Prop where
  /-- A thread has one attachment. -/
  thread : Epochs.Single Attachment.thread (fun _ => True) s.attachments.rows
  /-- A connection belongs to an attachment that is not behind it. -/
  owned : ∀ d ∈ s.connections.rows,
    ∃ a ∈ s.attachments.rows, a.id = d.attachment ∧ d.generation ≤ a.generation
  /-- Connections are numbered upwards. -/
  rising : Epochs.Rising Connection.attachment Connection.connectionGeneration s.connections.rows
  /-- An active credential is one of a connection, and of its generation. -/
  bound : ∀ k ∈ s.credentials.rows, k.state = .active → ∃ d ∈ s.connections.rows,
    k.connection = some d.id ∧ d.attachment = k.attachment ∧ d.generation = k.generation

theorem Inv.empty : Inv .empty :=
  ⟨Epochs.single_nil, List.forall_mem_nil _, Epochs.rising_nil, List.forall_mem_nil _⟩

theorem Attachment.Next.le {a a' : Attachment} (h : a.Next a') :
    a.generation ≤ a'.generation := by
  rcases h.generation with ⟨hsame, -⟩ | ⟨-, -, hnext⟩
  · exact Nat.le_of_eq hsame.symm
  · rw [hnext]
    exact Nat.le_succ _

/-- **Every move keeps the invariant.** -/
theorem Inv.moves (hs : Inv s) (h : Moves s s') : Inv s' := by
  cases h with
  | catalog catalogDigest version => exact ⟨hs.thread, hs.owned, hs.rising, hs.bound⟩
  | bootstrapped b bootstraps _ => exact ⟨hs.thread, hs.owned, hs.rising, hs.bound⟩
  | bootstraps f bootstraps _ _ => exact ⟨hs.thread, hs.owned, hs.rising, hs.bound⟩
  | created a attachments hnone hinsert =>
    have hrows := UniqueRows.rows_insert hinsert
    refine ⟨?_, fun d hd => ?_, hs.rising, hs.bound⟩
    · show Epochs.Single _ _ attachments.rows
      rw [hrows]
      exact hs.thread.append fun b hb hsame =>
        absurd ⟨congrArg Prod.fst hsame, congrArg Prod.snd hsame⟩ (hnone b hb)
    · obtain ⟨b, hb, h⟩ := hs.owned d hd
      exact ⟨b, UniqueRows.mem_insert_of_mem hinsert hb, h⟩
  | attachments f attachments hf hrows =>
    refine ⟨?_, fun d hd => ?_, hs.rising, hs.bound⟩
    · show Epochs.Single _ _ attachments.rows
      rw [hrows]
      -- the update is looked at on the rows of the table only
      refine List.pairwise_map.mpr (List.Pairwise.imp_of_mem (fun {a b} ha hb hab hsame => ?_)
        hs.thread)
      refine hab ?_
      rw [show a.thread = (f a).thread from
          Prod.ext (hf a ha).principal.symm (hf a ha).nativeThreadId.symm,
        show b.thread = (f b).thread from
          Prod.ext (hf b hb).principal.symm (hf b hb).nativeThreadId.symm, hsame]
    · obtain ⟨a, ha, hid, hle⟩ := hs.owned d hd
      refine ⟨f a, ?_, (hf a ha).id.trans hid, Nat.le_trans hle (hf a ha).le⟩
      show _ ∈ attachments.rows
      rw [hrows]
      exact List.mem_map_of_mem ha
  | connected d a connections ha howner hgeneration habove hinsert =>
    have hrows := UniqueRows.rows_insert hinsert
    refine ⟨hs.thread, ?_, ?_, fun k hk hactive => ?_⟩
    · show ∀ d ∈ connections.rows, _
      rw [hrows, List.forall_mem_append, List.forall_mem_singleton]
      exact ⟨hs.owned, a, ha, howner, Nat.le_of_eq hgeneration⟩
    · show Epochs.Rising _ _ connections.rows
      rw [hrows]
      exact hs.rising.append habove
    · obtain ⟨e, he, h⟩ := hs.bound k hk hactive
      exact ⟨e, UniqueRows.mem_insert_of_mem hinsert he, h⟩
  | connections f connections hf hrows =>
    refine ⟨hs.thread, ?_, ?_, fun k hk hactive => ?_⟩
    · show ∀ d ∈ connections.rows, _
      rw [hrows, List.forall_mem_map]
      intro d hd
      rw [(hf d).attachment, (hf d).generation]
      exact hs.owned d hd
    · show Epochs.Rising _ _ connections.rows
      rw [hrows]
      exact hs.rising.map (fun d => (hf d).attachment) fun d => (hf d).connectionGeneration
    · obtain ⟨e, he, hid, hattachment, hgeneration⟩ := hs.bound k hk hactive
      refine ⟨f e, ?_, by rw [(hf e).id, hid], by rw [(hf e).attachment, hattachment],
        by rw [(hf e).generation, hgeneration]⟩
      show _ ∈ connections.rows
      rw [hrows]
      exact List.mem_map_of_mem he
  | credentialed k credentials hbound hinsert =>
    refine ⟨hs.thread, hs.owned, hs.rising, ?_⟩
    show ∀ k ∈ credentials.rows, _
    rw [UniqueRows.rows_insert hinsert, List.forall_mem_append, List.forall_mem_singleton]
    obtain ⟨d, hd, hid, hattachment, -, hgeneration, -⟩ := hbound
    exact ⟨hs.bound, fun _ => ⟨d, hd, hid, hattachment, hgeneration⟩⟩
  | credentials f credentials hf hrows =>
    refine ⟨hs.thread, hs.owned, hs.rising, ?_⟩
    show ∀ k ∈ credentials.rows, _
    rw [hrows, List.forall_mem_map]
    intro k hk hactive
    rw [(hf k).connection, (hf k).attachment, (hf k).generation]
    exact hs.bound k hk ((hf k).state hactive)

theorem inv_of_reachable (h : (system σ).Reachable s) : Inv s := by
  refine TransitionSystem.Reachable.invariant (T := system σ) (I := Inv) ?_ ?_ h
  · rintro s rfl
    exact .empty
  · intro s e s' _ hs hstep
    have hmoves : Relation.ReflTransGen Moves s (step σ s e) := (step_moves s e).1
    rw [← show s' = step σ s e from hstep] at hmoves
    clear hstep
    induction hmoves with
    | refl => exact hs
    | tail _ hmove ih => exact ih.moves hmove

/-! ## What stays -/

/-- What identifies a connection. -/
def Connection.identity (d : Connection) : String × String × ℕ × ℕ :=
  (d.id, d.attachment, d.generation, d.connectionGeneration)

/-- **What a later state keeps**: an attachment does not go back, and one that is revoked opens
in a later generation; connections are added behind those that are there; a capability that is
used up is not restored. -/
structure Later (s s' : Store) : Prop where
  attachments : ∀ a ∈ s.attachments.rows, ∃ a' ∈ s'.attachments.rows, a'.id = a.id ∧
    (a.generation < a'.generation ∨
      a'.generation = a.generation ∧ (a.state = .revoked → a'.state = .revoked))
  connections : ∃ more, s'.connections.rows.map Connection.identity =
    s.connections.rows.map Connection.identity ++ more
  bootstraps : ∀ b ∈ s.bootstraps.rows, ∃ b' ∈ s'.bootstraps.rows, b'.id = b.id ∧
    (b'.state = .active → b.state = .active)

theorem Later.refl (s : Store) : Later s s :=
  ⟨fun a ha => ⟨a, ha, rfl, .inr ⟨rfl, fun h => h⟩⟩, ⟨[], (List.append_nil _).symm⟩,
    fun b hb => ⟨b, hb, rfl, fun h => h⟩⟩

theorem Later.trans {a b c : Store} (hab : Later a b) (hbc : Later b c) : Later a c := by
  refine ⟨fun x hx => ?_, ?_, fun x hx => ?_⟩
  · obtain ⟨y, hy, hid, hgeneration⟩ := hab.attachments x hx
    obtain ⟨z, hz, hid', hgeneration'⟩ := hbc.attachments y hy
    refine ⟨z, hz, hid'.trans hid, ?_⟩
    rcases hgeneration with hlt | ⟨heq, hstays⟩
    · rcases hgeneration' with hlt' | ⟨heq', -⟩
      · exact .inl (Nat.lt_trans hlt hlt')
      · exact .inl (heq' ▸ hlt)
    · rcases hgeneration' with hlt' | ⟨heq', hstays'⟩
      · exact .inl (heq ▸ hlt')
      · exact .inr ⟨heq'.trans heq, fun h => hstays' (hstays h)⟩
  · obtain ⟨more, hmore⟩ := hab.connections
    obtain ⟨more', hmore'⟩ := hbc.connections
    exact ⟨more ++ more', by rw [hmore', hmore, List.append_assoc]⟩
  · obtain ⟨y, hy, hid, hactive⟩ := hab.bootstraps x hx
    obtain ⟨z, hz, hid', hactive'⟩ := hbc.bootstraps y hy
    exact ⟨z, hz, hid'.trans hid, fun h => hactive (hactive' h)⟩

theorem Connection.Follows.identity {d d' : Connection} (h : d.Follows d') :
    d'.identity = d.identity := by
  unfold Connection.identity
  rw [h.id, h.attachment, h.generation, h.connectionGeneration]

theorem Moves.later (h : Moves s s') : Later s s' := by
  have hself := Later.refl s
  cases h with
  | catalog catalogDigest version =>
    exact ⟨hself.attachments, hself.connections, hself.bootstraps⟩
  | bootstrapped b bootstraps hinsert =>
    exact ⟨hself.attachments, hself.connections, fun b' hb' =>
      ⟨b', UniqueRows.mem_insert_of_mem hinsert hb', rfl, fun h => h⟩⟩
  | bootstraps f bootstraps hf hrows =>
    refine ⟨hself.attachments, hself.connections, fun b hb => ⟨f b, ?_, (hf b).id, (hf b).state⟩⟩
    show _ ∈ bootstraps.rows
    rw [hrows]
    exact List.mem_map_of_mem hb
  | created a attachments _ hinsert =>
    exact ⟨fun b hb => ⟨b, UniqueRows.mem_insert_of_mem hinsert hb, rfl, .inr ⟨rfl, fun h => h⟩⟩,
      hself.connections, hself.bootstraps⟩
  | attachments f attachments hf hrows =>
    refine ⟨fun a ha => ⟨f a, ?_, (hf a ha).id, ?_⟩, hself.connections, hself.bootstraps⟩
    · show _ ∈ attachments.rows
      rw [hrows]
      exact List.mem_map_of_mem ha
    · rcases (hf a ha).generation with h | ⟨-, -, hnext⟩
      · exact .inr h
      · exact .inl (hnext ▸ Nat.lt_succ_self _)
  | connected d a connections _ _ _ _ hinsert =>
    refine ⟨hself.attachments, ⟨[d.identity], ?_⟩, hself.bootstraps⟩
    show connections.rows.map _ = _
    rw [UniqueRows.rows_insert hinsert, List.map_append, List.map_singleton]
  | connections f connections hf hrows =>
    refine ⟨hself.attachments, ⟨[], ?_⟩, hself.bootstraps⟩
    show connections.rows.map _ = _
    rw [hrows, List.map_map, List.append_nil]
    exact List.map_congr_left fun d _ => (hf d).identity
  | credentialed k credentials _ _ =>
    exact ⟨hself.attachments, hself.connections, hself.bootstraps⟩
  | credentials f credentials _ _ =>
    exact ⟨hself.attachments, hself.connections, hself.bootstraps⟩

theorem later_of_moves (h : Relation.ReflTransGen Moves s s') : Later s s' := by
  induction h with
  | refl => exact .refl s
  | tail _ hmove ih => exact ih.trans hmove.later

theorem later_of_runs (h : (system σ).Reachable s) (hrun : (system σ).Runs s s') :
    Later s s' := by
  refine TransitionSystem.Runs.lift (R := Later) .refl .trans (fun s e s' _ hstep => ?_) h hrun
  rw [show s' = step σ s e from hstep]
  exact later_of_moves (step_moves s e).1

/-! ## The fence -/

/-- **A file whose attachments are fenced.** -/
structure Fenced (s : Store) : Prop where
  thread : ∀ a ∈ s.attachments.rows, ∀ b ∈ s.attachments.rows, a.principal = b.principal →
    a.nativeThreadId = b.nativeThreadId → a = b
  /-- The connections of an attachment are numbered upwards. -/
  rising : s.connections.rows.Pairwise fun d e => d.attachment = e.attachment →
    d.connectionGeneration < e.connectionGeneration
  oneActive : ∀ j ∈ s.credentials.rows, ∀ k ∈ s.credentials.rows, j.connection = k.connection →
    j.state = .active → k.state = .active → j = k
  bound : ∀ k ∈ s.credentials.rows, k.state = .active → ∃ d ∈ s.connections.rows,
    k.connection = some d.id ∧ k.attachment = d.attachment ∧ k.generation = d.generation

theorem Inv.fenced (hs : Inv s) : Fenced s where
  thread a ha b hb hp ht := hs.thread.eq_of ha hb (Prod.ext hp ht) trivial trivial
  rising := hs.rising
  oneActive j hj k hk hsame hactivej hactivek := by
    refine s.credentials.eq_of_clash (fun a b h => ?_) hj hk
      (.inr (.inr ⟨hsame, ?_, hactivej, hactivek⟩))
    · rcases h with h | h | ⟨h, hsome, ha, hb⟩
      · exact .inl h.symm
      · exact .inr (.inl h.symm)
      · exact .inr (.inr ⟨h.symm, h ▸ hsome, hb, ha⟩)
    · obtain ⟨d, -, hid, -⟩ := hs.bound j hj hactivej
      rw [hid]
      exact Option.some_ne_none d.id
  bound k hk hactive := by
    obtain ⟨d, hd, hid, hattachment, hgeneration⟩ := hs.bound k hk hactive
    exact ⟨d, hd, hid, hattachment.symm, hgeneration.symm⟩

/-- **Whoever is authenticated is so in the generation that the attachment is in.** -/
theorem authenticate_current {token : Token} {enabled : Bool} {now : ℕ} {actor : Actor}
    (h : authenticate σ s token enabled now = some actor) : ∃ a ∈ s.attachments.rows,
      a.id = actor.attachmentId ∧ a.state = .active ∧ actor.attachmentGeneration = a.generation ∧
      ∃ k ∈ s.credentials.rows, k.id = actor.conversationCredentialId ∧
        k.generation = a.generation := by
  unfold authenticate at h
  obtain ⟨id, -, h⟩ := Option.bind_eq_some_iff.mp h
  obtain ⟨k, hk, h⟩ := Option.bind_eq_some_iff.mp h
  obtain ⟨connectionId, -, h⟩ := Option.bind_eq_some_iff.mp h
  obtain ⟨d, -, h⟩ := Option.bind_eq_some_iff.mp h
  obtain ⟨a, ha, h⟩ := Option.bind_eq_some_iff.mp h
  obtain ⟨⟨hattachment, -, -, -, -, -, -, -, hgeneration, hstate, -, -⟩, h⟩ :=
    Option.ite_none_right_eq_some.mp h
  obtain rfl := Option.some.inj h
  obtain ⟨hmem, hid⟩ := of_attachment? ha
  exact ⟨a, hmem, hid.trans hattachment, hstate, rfl, k, (of_credential? hk).1, rfl, hgeneration⟩

/-- An older generation is not authenticated, nor is one that was closed. -/
theorem authenticate_later {u : Store} (hlater : Later s u) {a : Attachment}
    (ha : a ∈ s.attachments.rows) {token : Token} {enabled : Bool} {now : ℕ} {actor : Actor}
    (h : authenticate σ u token enabled now = some actor) (hid : actor.attachmentId = a.id) :
    a.generation ≤ actor.attachmentGeneration ∧
      (a.state = .revoked → a.generation < actor.attachmentGeneration) := by
  obtain ⟨b, hb, hbid, hstate, hgeneration, -⟩ := authenticate_current h
  obtain ⟨a', ha', hid', hnext⟩ := hlater.attachments a ha
  obtain rfl := attachment_eq ha' hb (hid'.trans (hid.symm.trans hbid.symm))
  rw [hgeneration]
  rcases hnext with hlt | ⟨heq, hstays⟩
  · exact ⟨Nat.le_of_lt hlt, fun _ => hlt⟩
  · refine ⟨Nat.le_of_eq heq.symm, fun hrevoked => ?_⟩
    rw [hstays hrevoked] at hstate
    cases hstate

/-- A capability that is not active is refused. -/
theorem attach_refused {c : AttachCall} {b : Bootstrap} (hb : b ∈ s.bootstraps.rows)
    (hid : b.id = c.capabilityId) (hstate : b.state ≠ .active) :
    ∃ error, attachCaoSession σ c s = .error error := by
  refine Tx.fails_of_wp (E := fun _ => True) ((attach_ensures c).mono fun _ u h => ?_)
  obtain ⟨-, ⟨b', hb', hid', hactive, -⟩, -⟩ := h
  obtain rfl := bootstrap_eq hb' hb (hid'.trans hid.symm)
  exact hstate hactive

def sampleDigest : String := "0123456789abcdef0123456789abcdef0123456789abcdef0123456789abcdef"

def sampleSettings : Settings where
  caoConversationCredentialTtlSeconds := 86400
  caoAttachmentBootstrapCredentialTtlSeconds := 86400
  verifyToken token hash := decide (token = ["cao", "csc_1", "secret"] ∧ hash = "scrypt_1")

def sampleIssue : IssueCall where
  peerPid := 7
  peerStartSignature := "boot"
  nativeThreadId := "thread"
  projectDigest := sampleDigest
  proxyCatalogDigest := sampleDigest
  proxyAbiVersion := 2
  validThread := true
  principal := some "cao"
  capabilityId := "cab_1"
  tokenHash := "scrypt"
  now := 0

def sampleAttach : AttachCall where
  principal := "cao"
  isCao := true
  capabilityId := "cab_1"
  nativeThreadId := "thread"
  projectDigest := sampleDigest
  proxyCatalogDigest := sampleDigest
  proxyAbiVersion := 2
  leaseSeconds := 86400
  clean := true
  peerLive := true
  runtimeFits := true
  wakeRoute := none
  attachmentId := "cat_1"
  runtimeId := "run_1"
  connectionId := "cac_1"
  credentialId := "csc_1"
  tokenHash := "scrypt_1"
  now := 5

/-- A capability was issued. -/
def sampleOffered : Store :=
  [.reconcile sampleDigest sampleDigest, .issue sampleIssue].foldl (step sampleSettings) .empty

/-- A thread was attached. -/
def sampleAttached : Store := step sampleSettings sampleOffered (.attach sampleAttach)

end Attachments
