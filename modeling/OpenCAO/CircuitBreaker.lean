import OpenCAO.ProviderCircuits

/-!
# The breaker, where it opens

What the circuits are for can be said of a run without looking at a query: a
limit that was recorded is covered by the circuit of its scope; while this circuit
is not closed, nothing of the scope is dispatched but its probe; the sequence of a
circuit never falls; and only what names the probe exactly can release it, mark it
or close it.

All but the first holds in every run. The first does not. A circuit is opened only
for a Worker whose spec has a catalog target, and the one function that creates
managed Workers inserts none: it was the identity of a Worker under an earlier
policy, and only a migration fills it in. So no rate limit of a Worker that the
service created opens a circuit, and its siblings are dispatched as before.
-/

namespace Provider

/-! ## Probes -/

/-- The columns of a circuit that name its probe. -/
structure Probe where
  runtimeId : Option RuntimeId
  attemptId : Option AttemptId
  messageId : Option MessageId
  deriving DecidableEq, Repr

/-- The probe that a circuit has recorded. -/
def Circuit.probe? (c : Circuit) : Option Probe :=
  if c.state = .halfOpen ∨ c.state = .blocked then
    some ⟨c.probeRuntimeSessionId, c.probeAttemptId, c.probeMessageId⟩
  else none

/-- The probe that a dispatch would be. -/
def Dispatch.probe (d : Dispatch) : Probe := ⟨some d.runtimeId, d.attemptId, some d.messageId⟩

theorem Circuit.probe?_of_open {c : Circuit} (h : c.state = .open_) : c.probe? = none := by
  simp [probe?, h]

theorem Circuit.probe?_block {c : Circuit} (h : c.state = .halfOpen) (now : Instant) :
    (c.block now).probe? = c.probe? := by
  simp [probe?, block, h]

/-- **What a step may make of a circuit**: its sequence does not fall, and a probe
that it has recorded stays, unless the circuit is closed, opened again by a newer
limit, or released for just this probe. -/
structure Circuit.Follows (releases : Probe → Prop) (c c' : Circuit) : Prop where
  sequence : c.sourceBoundarySequence ≤ c'.sourceBoundarySequence
  probe : ∀ p, c.probe? = some p → c'.probe? = some p ∨ c'.state = .closed ∨
    c.sourceBoundarySequence < c'.sourceBoundarySequence ∧ c'.probe? = none ∨ releases p

theorem Circuit.Follows.refl (releases : Probe → Prop) (c : Circuit) : c.Follows releases c :=
  ⟨Nat.le_refl _, fun _ h => .inl h⟩

/-- Every circuit of a store is followed by one of the other. -/
def Store.Follows (releases : Probe → Prop) (s s' : Store) : Prop :=
  ∀ scope c, s.circuits scope = some c → ∃ c', s'.circuits scope = some c' ∧ c.Follows releases c'

theorem Store.Follows.refl (releases : Probe → Prop) (s : Store) : s.Follows releases s :=
  fun _ c h => ⟨c, h, .refl releases c⟩

/-- One circuit is written. -/
theorem Store.follows_setCircuit {releases : Probe → Prop} {s : Store} {scope : Scope} {c' : Circuit}
    (h : ∀ c, s.circuits scope = some c → c.Follows releases c') :
    s.Follows releases (s.setCircuit scope c') := by
  intro scope' c hc
  by_cases hscope : scope' = scope
  · subst hscope
    exact ⟨c', Function.update_self .., h c hc⟩
  · exact ⟨c, (Function.update_of_ne hscope _ _).trans hc, .refl releases c⟩

/-! ## What the functions do -/

namespace Store

variable {env : Env} {s : Store}

/-- **What a claim does**: nothing, or it half-opens a circuit that is open for a
candidate. Where it allows a dispatch of a scope whose circuit is not closed, the
dispatch is the probe. -/
inductive Claimed (env : Env) (s : Store) (runtimeId : RuntimeId) (messageId : MessageId)
    (attemptId : Option AttemptId) : Decision × Store → Prop where
  | deferred (until_ : Instant) :
      Claimed env s runtimeId messageId attemptId (.deferred until_, s)
  | outside (h : ∀ spec, s.tables.spec? runtimeId = some spec → spec.adapter = .claude →
      ∀ c, s.circuits spec.providerScopeDigest = some c → c.state = .closed) :
      Claimed env s runtimeId messageId attemptId (.allowed, s)
  | again (spec : Spec) (c : Circuit) (hspec : s.tables.spec? runtimeId = some spec)
      (hc : s.circuits spec.providerScopeDigest = some c) (hstate : c.state = .halfOpen)
      (hvalid : s.validProbe env spec.providerScopeDigest c runtimeId messageId attemptId = true) :
      Claimed env s runtimeId messageId attemptId (.allowed, s)
  | reserved (spec : Spec) (c : Circuit) (candidate : Candidate)
      (hspec : s.tables.spec? runtimeId = some spec)
      (hc : s.circuits spec.providerScopeDigest = some c) (hstate : c.state = .open_)
      (hcandidate : probeCandidate env s.tables spec.providerScopeDigest c runtimeId messageId
        attemptId = some candidate) :
      Claimed env s runtimeId messageId attemptId (.allowed,
        { s.setCircuit spec.providerScopeDigest (c.reserve env.now runtimeId messageId attemptId
            candidate.instructionSequence) with
          tables := s.tables.addEvent runtimeId none none .rateLimitProbeReserved })

theorem claimed (env : Env) (s : Store) (runtimeId : RuntimeId) (messageId : MessageId)
    (attemptId : Option AttemptId) :
    Claimed env s runtimeId messageId attemptId (s.claim env runtimeId messageId attemptId) := by
  unfold claim
  cases hspec : s.tables.spec? runtimeId with
  | none => exact .outside fun spec h => by rw [hspec] at h; exact nomatch h
  | some spec =>
    have hsame : ∀ spec', s.tables.spec? runtimeId = some spec' → spec' = spec := fun spec' h => by
      rw [hspec] at h
      exact (Option.some.inj h).symm
    dsimp only
    by_cases hadapter : spec.adapter = .claude
    swap
    · rw [if_pos hadapter]
      exact .outside fun spec' h hclaude => absurd (hsame spec' h ▸ hclaude) hadapter
    rw [if_neg (not_not.mpr hadapter)]
    cases hc : s.circuits spec.providerScopeDigest with
    | none =>
      refine .outside fun spec' h _ c hc' => ?_
      rw [hsame spec' h, hc] at hc'
      exact nomatch hc'
    | some c =>
      dsimp only
      by_cases hclosed : c.state = .closed
      · rw [if_pos hclosed]
        refine .outside fun spec' h _ c' hc' => ?_
        rw [hsame spec' h, hc] at hc'
        exact Option.some.inj hc' ▸ hclosed
      rw [if_neg hclosed]
      by_cases henabled : spec.state = .enabled
      swap
      · rw [if_pos henabled]
        exact .deferred _
      rw [if_neg (not_not.mpr henabled)]
      by_cases hhalf : c.state = .halfOpen
      · rw [if_pos hhalf]
        split
        · exact .again spec c hspec hc hhalf ‹_›
        · exact .deferred _
      rw [if_neg hhalf]
      by_cases houtcome : c.probeOutcomeState = .none
      swap
      · rw [if_pos houtcome]
        exact .deferred _
      rw [if_neg (not_not.mpr houtcome)]
      cases hcandidate : probeCandidate env s.tables spec.providerScopeDigest c runtimeId
          messageId attemptId with
      | none => exact .deferred _
      | some candidate =>
        dsimp only
        split
        · exact .reserved spec c candidate hspec hc ‹_› hcandidate
        · exact .deferred _

/-- **What a release does**: nothing, or it opens the circuit whose probe it names. -/
theorem release_cases (env : Env) (s : Store) (runtimeId : RuntimeId) (messageId : MessageId)
    (attemptId : Option AttemptId) :
    s.release env runtimeId messageId attemptId = s ∨
      ∃ scope c, s.circuits scope = some c ∧
        c.probe? = some ⟨some runtimeId, attemptId, some messageId⟩ ∧
        s.release env runtimeId messageId attemptId = s.setCircuit scope (c.release env.now) := by
  unfold release
  cases s.tables.spec? runtimeId with
  | none => exact .inl rfl
  | some spec =>
    dsimp only
    split_ifs with hadapter
    · exact .inl rfl
    cases hc : s.circuits spec.providerScopeDigest with
    | none => exact .inl rfl
    | some c =>
      dsimp only
      split_ifs with h
      · refine .inr ⟨spec.providerScopeDigest, c, hc, ?_, rfl⟩
        rw [Circuit.probe?, if_pos h.1, h.2.1, h.2.2.2.1, h.2.2.2.2]
      · exact .inl rfl

/-- **What a close does**: nothing, or it closes the circuit whose probe it names. -/
theorem close_cases (env : Env) (s : Store) (runtimeId : RuntimeId) (attemptId : AttemptId)
    (actorId : PrincipalId) :
    s.close env runtimeId attemptId actorId = s ∨
      ∃ scope c messageId, s.circuits scope = some c ∧
        c.probe? = some ⟨some runtimeId, some attemptId, messageId⟩ ∧
        s.close env runtimeId attemptId actorId =
          { s.setCircuit scope (c.close env.now) with
            tables := s.tables.addEvent runtimeId (some actorId) none .rateLimitClosedOnProgress } := by
  unfold close
  cases s.tables.spec? runtimeId with
  | none => exact .inl rfl
  | some spec =>
    dsimp only
    split_ifs with hadapter
    · exact .inl rfl
    cases hc : s.circuits spec.providerScopeDigest with
    | none => exact .inl rfl
    | some c =>
      dsimp only
      split_ifs with h
      · refine .inr ⟨spec.providerScopeDigest, c, c.probeMessageId, hc, ?_, rfl⟩
        rw [Circuit.probe?, if_pos h.1, h.2.1, h.2.2.1]
      · exact .inl rfl

/-- **What a mark does to a circuit**: nothing, or it blocks it, half open for a probe
of the runtime. -/
theorem markUnknown_cases (env : Env) (s : Store) (runtimeId : RuntimeId) (scope : Scope) :
    (s.markUnknown env runtimeId).circuits scope = s.circuits scope ∨
      ∃ c, s.circuits scope = some c ∧ c.state = .halfOpen ∧
        c.probeRuntimeSessionId = some runtimeId ∧
        (s.markUnknown env runtimeId).circuits scope = some (c.block env.now) := by
  show (s.circuits scope).map _ = _ ∨ ∃ c, _ ∧ _ ∧ _ ∧ (s.circuits scope).map _ = _
  cases s.circuits scope with
  | none => exact .inl rfl
  | some c =>
    simp only [Option.map_some]
    split_ifs with h
    · exact .inr ⟨c, rfl, h.1, h.2.2.1, rfl⟩
    · exact .inl rfl

/-- **What a record does**: nothing, or it opens a circuit for a limit that the
circuit of the scope, if there is one, does not cover. -/
theorem recordLimit_cases (env : Env) (s : Store) (runtimeId : RuntimeId) (boundaryId : BoundaryId)
    (workItemId : WorkId) :
    s.recordLimit env runtimeId boundaryId workItemId = s ∨
      ∃ row, (limitRows s.tables runtimeId boundaryId workItemId).head? = some row ∧
        (∀ c, s.circuits row.scope = some c → ¬ c.Covers row) ∧
        s.recordLimit env runtimeId boundaryId workItemId =
          { s.setCircuit row.scope (.opened env runtimeId row) with
            tables := s.tables.addEvent runtimeId none none
              (.rateLimitOpened (env.now + env.cooldownSeconds)) } := by
  unfold recordLimit
  cases hrow : (limitRows s.tables runtimeId boundaryId workItemId).head? with
  | none => exact .inl rfl
  | some row =>
    dsimp only
    split_ifs with hadapter hcovers
    · exact .inl rfl
    · exact .inl rfl
    · refine .inr ⟨row, rfl, fun c hc h => hcovers ?_, rfl⟩
      rw [hc]
      simpa using h

end Store

/-! ## The instruction of a probe -/

/-- The conversation of the source was closed after its Boundary. -/
theorem lt_of_takeoverSequence {env : Env} {t : Tables} {scope : Scope} {c : Circuit}
    {attachmentId : AttachmentId} {sequence : ℕ}
    (h : takeoverSequence env t scope c attachmentId = some sequence) :
    c.sourceBoundarySequence < sequence := by
  unfold takeoverSequence at h
  split at h
  · rename_i spec attachment closed hrows
    obtain ⟨-, hsequence⟩ := Option.ite_none_right_eq_some.mp h
    obtain rfl := Option.some.inj hsequence
    have hmem : (spec, attachment, closed) ∈ takeoverRows env t scope c attachmentId :=
      hrows ▸ List.mem_singleton_self _
    simp only [takeoverRows, Rows.mem_join] at hmem
    obtain ⟨_, -, -, _, -, -, _, -, -, _, -, -, _, -, -, _, -, -, recorded, -, ⟨hrecorded, -⟩,
      disposed, -, ⟨-, -, hdisposed⟩, canceled, -, ⟨-, -, hcanceled⟩, closed', -,
      ⟨-, -, hclosed⟩, _, -, -, hrow⟩ := hmem
    have hsame : closed = closed' := by
      split at hrow
      · split_ifs at hrow
        · exact (Prod.mk.inj (Prod.mk.inj (List.mem_singleton.mp hrow)).2).2
        · exact absurd hrow List.not_mem_nil
      · exact absurd hrow List.not_mem_nil
    subst hsame
    omega
  · exact nomatch h

/-- The floor is not below the Boundary. -/
theorem le_of_instructionFloor {env : Env} {t : Tables} {scope : Scope} {c : Circuit}
    {runtimeId : RuntimeId} {floor : ℕ} (h : instructionFloor env t scope c runtimeId = some floor) :
    c.sourceBoundarySequence ≤ floor := by
  unfold instructionFloor at h
  split at h
  · exact nomatch h
  · split at h
    · exact Nat.le_of_eq (Option.some.inj h)
    · exact Nat.le_of_lt (lt_of_takeoverSequence h)

/-- **The instruction of a candidate is an event that its message caused, and it is
newer than the Boundary of the circuit.** -/
theorem newer_of_probeCandidate {env : Env} {t : Tables} {scope : Scope} {c : Circuit}
    {runtimeId : RuntimeId} {messageId : MessageId} {attemptId : Option AttemptId}
    {candidate : Candidate}
    (h : probeCandidate env t scope c runtimeId messageId attemptId = some candidate) :
    c.sourceBoundarySequence < candidate.instructionSequence ∧
      ∃ e ∈ t.events, e.sequence = candidate.instructionSequence ∧
        e.causationId = some messageId := by
  unfold probeCandidate at h
  split at h
  · exact nomatch h
  · rename_i floor hfloor
    split at h
    · rename_i candidate' hrows
      obtain rfl := Option.some.inj h
      have hmem : candidate' ∈
          candidateRows env t scope c runtimeId messageId attemptId floor :=
        hrows ▸ List.mem_singleton_self _
      simp only [candidateRows, Rows.mem_join] at hmem
      obtain ⟨_, -, -, message, -, ⟨hmessage, -⟩, _, -, -, _, -, -, _, -, -, _, -, -, _, -, -,
        _, -, -, _, -, -, _, -, -, e, he, ⟨hcause, -, hlt, -⟩, hrow⟩ := hmem
      obtain rfl := List.mem_singleton.mp hrow
      have hle := le_of_instructionFloor hfloor
      exact ⟨by dsimp only; omega, e, he, rfl, hmessage ▸ hcause⟩
    · exact nomatch h

/-! ## What the functions keep -/

/-- What is followed after a step that kept the probe is followed from before it. -/
theorem Circuit.Follows.of_kept {releases : Probe → Prop} {c c' c'' : Circuit}
    (hseq : c.sourceBoundarySequence = c'.sourceBoundarySequence)
    (hprobe : ∀ p, c.probe? = some p → c'.probe? = some p) (h : c'.Follows releases c'') :
    c.Follows releases c'' :=
  ⟨hseq ▸ h.sequence, fun p hp => hseq ▸ h.probe p (hprobe p hp)⟩

/-- A release, of the probe that it names. -/
theorem Store.follows_release (env : Env) (s : Store) (runtimeId : RuntimeId)
    (messageId : MessageId) (attemptId : Option AttemptId) :
    s.Follows (fun p => p = ⟨some runtimeId, attemptId, some messageId⟩)
      (s.release env runtimeId messageId attemptId) := by
  obtain h | ⟨scope, c, hc, hprobe, h⟩ := release_cases env s runtimeId messageId attemptId
  · rw [h]
    exact .refl _ s
  · rw [h]
    refine follows_setCircuit fun c' hc' => ⟨?_, fun p hp => ?_⟩
    · rw [← Option.some.inj (hc.symm.trans hc')]
      exact Nat.le_refl _
    · rw [← Option.some.inj (hc.symm.trans hc'), hprobe] at hp
      exact .inr (.inr (.inr (Option.some.inj hp).symm))

/-- A close. -/
theorem Store.follows_close (releases : Probe → Prop) (env : Env) (s : Store)
    (runtimeId : RuntimeId) (attemptId : AttemptId) (actorId : PrincipalId) :
    s.Follows releases (s.close env runtimeId attemptId actorId) := by
  obtain h | ⟨scope, c, messageId, hc, -, h⟩ := close_cases env s runtimeId attemptId actorId
  · rw [h]
    exact .refl _ s
  · rw [h]
    refine follows_setCircuit (s := s) fun c' hc' => ⟨?_, fun _ _ => .inr (.inl rfl)⟩
    rw [← Option.some.inj (hc.symm.trans hc')]
    exact Nat.le_refl _

/-- A mark. -/
theorem Store.follows_markUnknown (releases : Probe → Prop) (env : Env) (s : Store)
    (runtimeId : RuntimeId) : s.Follows releases (s.markUnknown env runtimeId) := by
  intro scope c hc
  obtain h | ⟨c', hc', hhalf, -, h⟩ := markUnknown_cases env s runtimeId scope
  · exact ⟨c, h.trans hc, .refl releases c⟩
  · obtain rfl := Option.some.inj (hc'.symm.trans hc)
    exact ⟨_, h, Nat.le_refl _, fun p hp => .inl ((Circuit.probe?_block hhalf env.now).trans hp)⟩

/-- A record. -/
theorem Store.follows_recordLimit (releases : Probe → Prop) (env : Env) (s : Store)
    (runtimeId : RuntimeId) (boundaryId : BoundaryId) (workItemId : WorkId) :
    s.Follows releases (s.recordLimit env runtimeId boundaryId workItemId) := by
  obtain h | ⟨row, -, hcovers, h⟩ := recordLimit_cases env s runtimeId boundaryId workItemId
  · rw [h]
    exact .refl _ s
  · rw [h]
    refine follows_setCircuit (s := s) fun c hc => ?_
    have hlt : c.sourceBoundarySequence < row.boundarySequence :=
      Nat.lt_of_not_le fun hle => hcovers c hc (.inr hle)
    exact ⟨Nat.le_of_lt hlt, fun _ _ => .inr (.inr (.inl ⟨hlt, rfl⟩))⟩

/-- A claim keeps every probe. -/
theorem Store.kept_claim (env : Env) (s : Store) (runtimeId : RuntimeId) (messageId : MessageId)
    (attemptId : Option AttemptId) (scope : Scope) (c : Circuit) (hc : s.circuits scope = some c) :
    ∃ c', (s.claim env runtimeId messageId attemptId).2.circuits scope = some c' ∧
      c.sourceBoundarySequence = c'.sourceBoundarySequence ∧
      ∀ p, c.probe? = some p → c'.probe? = some p := by
  generalize hclaim : s.claim env runtimeId messageId attemptId = answer
  cases hclaim ▸ claimed env s runtimeId messageId attemptId with
  | deferred => exact ⟨c, hc, rfl, fun _ h => h⟩
  | outside => exact ⟨c, hc, rfl, fun _ h => h⟩
  | again => exact ⟨c, hc, rfl, fun _ h => h⟩
  | reserved spec c₀ candidate _ hc₀ hopen =>
    by_cases hscope : scope = spec.providerScopeDigest
    · subst hscope
      obtain rfl := Option.some.inj (hc₀.symm.trans hc)
      refine ⟨_, Function.update_self .., rfl, fun p hp => ?_⟩
      rw [Circuit.probe?_of_open hopen] at hp
      exact nomatch hp
    · exact ⟨c, (Function.update_of_ne hscope _ _).trans hc, rfl, fun _ h => h⟩

/-- **What a dispatch does.** It is refused, put off, given up with the probe that it
claimed, or reserved. -/
inductive Store.Dispatched (env : Env) (s : Store) (d : Dispatch) : Bool × Store → Prop where
  | refused : Dispatched env s d (false, s)
  | deferred (until_ : Instant) (s' : Store)
      (h : s.claim env d.runtimeId d.messageId d.attemptId = (.deferred until_, s')) :
      Dispatched env s d (false, s')
  | released (s' : Store)
      (h : s.claim env d.runtimeId d.messageId d.attemptId = (.allowed, s')) :
      Dispatched env s d (false, s'.release env d.runtimeId d.messageId d.attemptId)
  | reserved (s' : Store) (deliveries : List Delivery)
      (h : s.claim env d.runtimeId d.messageId d.attemptId = (.allowed, s')) :
      Dispatched env s d
        (true, { s' with tables := { s'.tables with deliveries := deliveries } })

theorem Store.dispatched (env : Env) (s : Store) (d : Dispatch) :
    Dispatched env s d (s.dispatch env d) := by
  unfold dispatch
  split
  · exact .refused
  · split
    · exact .deferred _ _ ‹_›
    · split
      · exact .reserved _ _ ‹_›
      · exact .released _ ‹_›

/-- A dispatch releases a probe only if it is the probe itself and is not reserved. -/
theorem Store.follows_dispatch (env : Env) (s : Store) (d : Dispatch) :
    s.Follows (fun p => (s.dispatch env d).1 = false ∧ p = d.probe) (s.dispatch env d).2 := by
  have hkept := s.kept_claim env d.runtimeId d.messageId d.attemptId
  generalize hdispatch : s.dispatch env d = answer
  cases hdispatch ▸ s.dispatched env d with
  | refused => exact .refl _ s
  | deferred until_ s' h =>
    rw [h] at hkept
    intro scope c hc
    obtain ⟨c', hc', hseq, hprobe⟩ := hkept scope c hc
    exact ⟨c', hc', .of_kept hseq hprobe (.refl _ c')⟩
  | released s' h =>
    rw [h] at hkept
    intro scope c hc
    obtain ⟨c', hc', hseq, hprobe⟩ := hkept scope c hc
    obtain ⟨c'', hc'', hfollows⟩ :=
      s'.follows_release env d.runtimeId d.messageId d.attemptId scope c' hc'
    refine ⟨c'', hc'', .of_kept hseq hprobe ⟨hfollows.sequence, fun p hp => ?_⟩⟩
    exact (hfollows.probe p hp).imp_right (Or.imp_right (Or.imp_right fun h => ⟨rfl, h⟩))
  | reserved s' deliveries h =>
    rw [h] at hkept
    intro scope c hc
    obtain ⟨c', hc', hseq, hprobe⟩ := hkept scope c hc
    exact ⟨c', hc', .of_kept hseq hprobe (.refl _ c')⟩

/-- **A circuit that is not closed admits a dispatch as its probe.** The instruction of
the probe is newer than the limit, and where a probe was recorded, it is this one. -/
structure Circuit.Admits (t : Tables) (d : Dispatch) (c c' : Circuit) : Prop where
  state : c'.state = .halfOpen
  probe : c'.probe? = some d.probe
  sequence : c'.sourceBoundarySequence = c.sourceBoundarySequence
  newer : c.sourceBoundarySequence < c'.probeInstructionSequence
  instruction : ∃ e ∈ t.events, e.sequence = c'.probeInstructionSequence ∧
    e.causationId = some d.messageId
  same : ∀ p, c.probe? = some p → p = d.probe

/-- A probe that is valid is admitted again. -/
theorem Circuit.admits_of_validProbe {env : Env} {s : Store} {scope : Scope} {d : Dispatch}
    {c : Circuit} (h : s.validProbe env scope c d.runtimeId d.messageId d.attemptId = true) :
    c.Admits s.tables d c := by
  unfold Store.validProbe at h
  split_ifs at h with hfields
  push Not at hfields
  obtain ⟨hstate, -, hruntime, hattempt, hmessage, -, hnewer⟩ := hfields
  have hprobe : c.probe? = some d.probe := by
    rw [probe?, if_pos (.inl hstate), hruntime, hattempt, hmessage]
    rfl
  split at h
  · exact nomatch h
  · rename_i candidate hcandidate
    have hsequence := of_decide_eq_true (Bool.and_eq_true_iff.mp h).1
    obtain ⟨-, e, he, hinstruction⟩ := newer_of_probeCandidate hcandidate
    exact
      { state := hstate
        probe := hprobe
        sequence := rfl
        newer := by omega
        instruction := ⟨e, he, hsequence ▸ hinstruction⟩
        same := fun p hp => Option.some.inj (hp.symm.trans hprobe) }

/-- A candidate is admitted by a circuit that is open. -/
theorem Circuit.admits_reserve {env : Env} {t : Tables} {scope : Scope} {d : Dispatch}
    {c : Circuit} {candidate : Candidate} (hopen : c.state = .open_)
    (h : probeCandidate env t scope c d.runtimeId d.messageId d.attemptId = some candidate) :
    c.Admits t d
      (c.reserve env.now d.runtimeId d.messageId d.attemptId candidate.instructionSequence) where
  state := rfl
  probe := rfl
  sequence := rfl
  newer := (newer_of_probeCandidate h).1
  instruction := (newer_of_probeCandidate h).2
  same p hp := by
    rw [Circuit.probe?_of_open hopen] at hp
    exact nomatch hp

/-- **What a dispatch that is reserved needs of the circuit of its scope.** -/
theorem Store.admits_of_reserved {env : Env} {s : Store} {d : Dispatch} {spec : Spec} {c : Circuit}
    (h : (s.dispatch env d).1 = true) (hspec : s.tables.spec? d.runtimeId = some spec)
    (hclaude : spec.adapter = .claude) (hc : s.circuits spec.providerScopeDigest = some c)
    (hclosed : c.state ≠ .closed) :
    ∃ c', (s.dispatch env d).2.circuits spec.providerScopeDigest = some c' ∧
      c.Admits s.tables d c' := by
  generalize hdispatch : s.dispatch env d = answer at h
  cases hdispatch ▸ s.dispatched env d with
  | refused => exact nomatch h
  | deferred => exact nomatch h
  | released => exact nomatch h
  | reserved s' deliveries hclaim =>
    dsimp only
    generalize hanswer : s.claim env d.runtimeId d.messageId d.attemptId = answer' at hclaim
    cases hanswer ▸ claimed env s d.runtimeId d.messageId d.attemptId with
    | deferred => exact nomatch (Prod.mk.inj hclaim).1
    | outside houtside => exact absurd (houtside spec hspec hclaude c hc) hclosed
    | again spec' c' hspec' hc' _ hvalid =>
      obtain rfl := (Prod.mk.inj hclaim).2
      obtain rfl := Option.some.inj (hspec.symm.trans hspec')
      obtain rfl := Option.some.inj (hc.symm.trans hc')
      exact ⟨c, hc, Circuit.admits_of_validProbe hvalid⟩
    | reserved spec' c' candidate hspec' hc' hopen hcandidate =>
      obtain rfl := (Prod.mk.inj hclaim).2
      obtain rfl := Option.some.inj (hspec.symm.trans hspec')
      obtain rfl := Option.some.inj (hc.symm.trans hc')
      exact ⟨_, Function.update_self .., Circuit.admits_reserve hopen hcandidate⟩

/-! ## What changes nothing -/

/-- A release of another probe. -/
theorem Store.release_others {env : Env} {s : Store} {runtimeId : RuntimeId}
    {messageId : MessageId} {attemptId : Option AttemptId} {scope : Scope}
    (h : ∀ c, s.circuits scope = some c →
      c.probe? ≠ some ⟨some runtimeId, attemptId, some messageId⟩) :
    (s.release env runtimeId messageId attemptId).circuits scope = s.circuits scope := by
  obtain hrelease | ⟨scope', c, hc, hprobe, hrelease⟩ :=
    release_cases env s runtimeId messageId attemptId
  · rw [hrelease]
  · have hne : scope ≠ scope' := fun heq => h c (heq ▸ hc) hprobe
    rw [hrelease]
    exact Function.update_of_ne hne _ _

theorem Store.release_nothing {env : Env} {s : Store} {runtimeId : RuntimeId}
    {messageId : MessageId} {attemptId : Option AttemptId}
    (h : ∀ scope c, s.circuits scope = some c →
      c.probe? ≠ some ⟨some runtimeId, attemptId, some messageId⟩) :
    s.release env runtimeId messageId attemptId = s := by
  obtain hrelease | ⟨scope, c, hc, hprobe, -⟩ := release_cases env s runtimeId messageId attemptId
  · exact hrelease
  · exact absurd hprobe (h scope c hc)

/-- A close by a report of another probe. -/
theorem Store.close_others {env : Env} {s : Store} {runtimeId : RuntimeId} {attemptId : AttemptId}
    {actorId : PrincipalId} {scope : Scope}
    (h : ∀ c p, s.circuits scope = some c → c.probe? = some p →
      ¬ (p.runtimeId = some runtimeId ∧ p.attemptId = some attemptId)) :
    (s.close env runtimeId attemptId actorId).circuits scope = s.circuits scope := by
  obtain hclose | ⟨scope', c, messageId, hc, hprobe, hclose⟩ :=
    close_cases env s runtimeId attemptId actorId
  · rw [hclose]
  · have hne : scope ≠ scope' := fun heq => h c _ (heq ▸ hc) hprobe ⟨rfl, rfl⟩
    rw [hclose]
    exact Function.update_of_ne hne _ _

theorem Store.close_nothing {env : Env} {s : Store} {runtimeId : RuntimeId} {attemptId : AttemptId}
    {actorId : PrincipalId}
    (h : ∀ scope c p, s.circuits scope = some c → c.probe? = some p →
      ¬ (p.runtimeId = some runtimeId ∧ p.attemptId = some attemptId)) :
    s.close env runtimeId attemptId actorId = s := by
  obtain hclose | ⟨scope, c, messageId, hc, hprobe, -⟩ :=
    close_cases env s runtimeId attemptId actorId
  · exact hclose
  · exact absurd ⟨rfl, rfl⟩ (h scope c _ hc hprobe)

/-- A mark of another runtime. -/
theorem Store.markUnknown_others {env : Env} {s : Store} {runtimeId : RuntimeId} {scope : Scope}
    (h : ∀ c p, s.circuits scope = some c → c.probe? = some p → p.runtimeId ≠ some runtimeId) :
    (s.markUnknown env runtimeId).circuits scope = s.circuits scope := by
  obtain hmark | ⟨c, hc, hhalf, hruntime, -⟩ := markUnknown_cases env s runtimeId scope
  · exact hmark
  · exact absurd hruntime (h c _ hc (by rw [Circuit.probe?, if_pos (.inl hhalf)]))

theorem Store.markUnknown_nothing {env : Env} {s : Store} {runtimeId : RuntimeId}
    (h : ∀ scope c p, s.circuits scope = some c → c.probe? = some p →
      p.runtimeId ≠ some runtimeId) : s.markUnknown env runtimeId = s := by
  have hcircuits : (s.markUnknown env runtimeId).circuits = s.circuits :=
    funext fun scope => markUnknown_others (h scope)
  exact congrArg (Store.mk s.tables) hcircuits

end Provider
