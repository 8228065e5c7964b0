import OpenCAO.CircuitBreaker
import Mathlib.Data.List.MinMax
import Mathlib.Data.List.Pairwise

/-!
# The breaker over whole runs

A limit that was recorded has to be covered by the circuit of its scope, from then
on. It is, exactly if the query of the limit finds the Worker: its spec has a
catalog target and is bound to the runtime that failed, and the Work is the
Worker's and is supervised from an attachment like its own
(`Recovery.Covered`). Everything else that the breaker is for holds in every run.

A spec that the service inserts has no catalog target, and no transaction gives it
one. In a run that begins without other specs the breaker is kept, then, as long
as no Worker is limited.
-/

namespace Provider

/-! ## Where a circuit comes from -/

theorem Tables.lt_nextSequence {t : Tables} {e : Event} (he : e ∈ t.events) :
    e.sequence < t.nextSequence :=
  Nat.lt_succ_of_le (List.le_max_of_le' 0 (List.mem_map_of_mem he) (Nat.le_refl _))

/-- The Boundary of the circuit is recorded, in the event whose sequence it has. -/
def Circuit.Sourced (t : Tables) (c : Circuit) : Prop :=
  ∃ e ∈ t.events, e.sequence = c.sourceBoundarySequence ∧ e.boundaryId? = c.sourceBoundaryId

def Store.Sourced (s : Store) : Prop :=
  ∀ scope c, s.circuits scope = some c → c.Sourced s.tables

theorem Circuit.Sourced.mono {t t' : Tables} {c : Circuit} (h : c.Sourced t)
    (hevents : t.events ⊆ t'.events) : c.Sourced t' := by
  obtain ⟨e, he, hsource⟩ := h
  exact ⟨e, hevents he, hsource⟩

namespace Store

variable {s : Store}

/-- Events are added, and a circuit is written that is sourced. -/
theorem Sourced.setCircuit {t : Tables} {scope : Scope} {c : Circuit} (hs : s.Sourced)
    (hevents : s.tables.events ⊆ t.events) (hc : c.Sourced t) :
    Sourced { s.setCircuit scope c with tables := t } := by
  intro scope' c' hc'
  by_cases hscope : scope' = scope
  · subst hscope
    have hsame : Function.update s.circuits scope' (some c) scope' = some c' := hc'
    rw [Function.update_self] at hsame
    exact Option.some.inj hsame ▸ hc
  · exact (hs scope' c' ((Function.update_of_ne hscope _ _).symm.trans hc')).mono hevents

/-- Events are added. -/
theorem Sourced.tables {t : Tables} (hs : s.Sourced) (hevents : s.tables.events ⊆ t.events) :
    Sourced { s with tables := t } :=
  fun scope c hc => (hs scope c hc).mono hevents

/-- **The functions source every circuit, add events and keep the specs.** -/
structure Sources (s s' : Store) : Prop where
  sourced : s.Sourced → s'.Sourced
  events : s.tables.events ⊆ s'.tables.events
  specs : s'.tables.specs = s.tables.specs

theorem Sources.refl (s : Store) : s.Sources s := ⟨id, List.Subset.refl _, rfl⟩

theorem Sources.trans {s₁ s₂ s₃ : Store} (h : s₁.Sources s₂) (h' : s₂.Sources s₃) :
    s₁.Sources s₃ :=
  ⟨h'.sourced ∘ h.sourced, List.Subset.trans h.events h'.events, h'.specs.trans h.specs⟩

theorem sources_release (env : Env) (s : Store) (runtimeId : RuntimeId) (messageId : MessageId)
    (attemptId : Option AttemptId) : s.Sources (s.release env runtimeId messageId attemptId) := by
  obtain h | ⟨scope, c, hc, -, h⟩ := release_cases env s runtimeId messageId attemptId
  · rw [h]
    exact .refl s
  · rw [h]
    exact ⟨fun hs => hs.setCircuit (List.Subset.refl _) (hs scope c hc), List.Subset.refl _, rfl⟩

theorem sources_close (env : Env) (s : Store) (runtimeId : RuntimeId) (attemptId : AttemptId)
    (actorId : PrincipalId) : s.Sources (s.close env runtimeId attemptId actorId) := by
  obtain h | ⟨scope, c, messageId, hc, -, h⟩ := close_cases env s runtimeId attemptId actorId
  · rw [h]
    exact .refl s
  · rw [h]
    have hevents := List.subset_cons_self ⟨s.tables.nextSequence, runtimeId, some actorId, none,
      .rateLimitClosedOnProgress⟩ s.tables.events
    exact ⟨fun hs => hs.setCircuit hevents ((hs scope c hc).mono hevents), hevents, rfl⟩

theorem sources_markUnknown (env : Env) (s : Store) (runtimeId : RuntimeId) :
    s.Sources (s.markUnknown env runtimeId) := by
  refine ⟨fun hs scope c hc => ?_, List.Subset.refl _, rfl⟩
  obtain h | ⟨c', hc', -, -, h⟩ := markUnknown_cases env s runtimeId scope
  · exact hs scope c (h.symm.trans hc)
  · obtain rfl := Option.some.inj (h.symm.trans hc)
    exact hs scope c' hc'

theorem sources_claim (env : Env) (s : Store) (runtimeId : RuntimeId) (messageId : MessageId)
    (attemptId : Option AttemptId) : s.Sources (s.claim env runtimeId messageId attemptId).2 := by
  generalize hclaim : s.claim env runtimeId messageId attemptId = answer
  cases hclaim ▸ claimed env s runtimeId messageId attemptId with
  | deferred => exact .refl s
  | outside => exact .refl s
  | again => exact .refl s
  | reserved spec c candidate _ hc =>
    have hevents := List.subset_cons_self ⟨s.tables.nextSequence, runtimeId, none, none,
      .rateLimitProbeReserved⟩ s.tables.events
    exact ⟨fun hs => hs.setCircuit hevents ((hs _ c hc).mono hevents), hevents, rfl⟩

theorem sources_dispatch (env : Env) (s : Store) (d : Dispatch) :
    s.Sources (s.dispatch env d).2 := by
  have hclaim := s.sources_claim env d.runtimeId d.messageId d.attemptId
  generalize hdispatch : s.dispatch env d = answer
  cases hdispatch ▸ s.dispatched env d with
  | refused => exact .refl s
  | deferred until_ s' h => rwa [h] at hclaim
  | released s' h =>
    rw [h] at hclaim
    exact hclaim.trans (s'.sources_release env d.runtimeId d.messageId d.attemptId)
  | reserved s' deliveries h =>
    rw [h] at hclaim
    exact hclaim.trans ⟨fun hs => hs.tables (List.Subset.refl _), List.Subset.refl _, rfl⟩

end Store

/-- What the row of a limit says is recorded. -/
theorem exists_event_of_limitRow {t : Tables} {runtimeId : RuntimeId} {boundaryId : BoundaryId}
    {workItemId : WorkId} {row : LimitRow}
    (h : row ∈ limitRows t runtimeId boundaryId workItemId) :
    ∃ e ∈ t.events, e.sequence = row.boundarySequence ∧ e.boundaryId? = some row.boundaryId := by
  simp only [limitRows, Rows.mem_join] at h
  obtain ⟨_, -, -, _, -, -, boundary, -, -, _, -, -, _, -, -, _, -, -, e, he, ⟨hrecords, -⟩,
    hrow⟩ := h
  obtain rfl := List.mem_singleton.mp hrow
  exact ⟨e, he, rfl, hrecords.2⟩

theorem Store.sources_recordLimit (env : Env) (s : Store) (runtimeId : RuntimeId)
    (boundaryId : BoundaryId) (workItemId : WorkId) :
    s.Sources (s.recordLimit env runtimeId boundaryId workItemId) := by
  obtain h | ⟨row, hrow, -, h⟩ := recordLimit_cases env s runtimeId boundaryId workItemId
  · rw [h]
    exact .refl s
  · rw [h]
    have hevents := List.subset_cons_self ⟨s.tables.nextSequence, runtimeId, none, none,
      .rateLimitOpened (env.now + env.cooldownSeconds)⟩ s.tables.events
    obtain ⟨e, he, hsource⟩ := exists_event_of_limitRow (List.mem_of_head? hrow)
    exact ⟨fun hs => hs.setCircuit hevents ⟨e, hevents he, hsource⟩, hevents, rfl⟩

/-! ## What a recovery opens -/

/-- **The query of a rate limit finds the Worker of a recovery.** Its spec is bound to
the runtime that failed, and has a catalog target; the Work is assigned to it, and
supervised from an attachment of the principal and the project of its own. -/
def Recovery.Covered (r : Recovery) (t : Tables) : Prop :=
  ∃ spec ∈ t.specs, (spec.runtimeSessionId = r.runtimeId ∧
      spec.principalId = r.attempt.workerId ∧ spec.catalogTargetId ≠ "") ∧
  ∃ work ∈ t.works, (work.id = r.attempt.workItemId ∧
      work.assignedWorkerId = r.attempt.workerId) ∧
  ∃ attachment ∈ t.attachments, attachment.id = spec.attachmentId ∧
  ∃ supervisor ∈ t.attachments, some supervisor.id = work.supervisorAttachmentId ∧
      supervisor.principalId = attachment.principalId ∧
      supervisor.projectScopeDigest = attachment.projectScopeDigest ∧
      supervisor.principalId = work.supervisorId

/-- The rows that the query finds of the Boundary that a recovery records. -/
def Recovery.limitRows (r : Recovery) (t : Tables) : List LimitRow :=
  Provider.limitRows (r.record t) r.runtimeId r.boundaryId r.attempt.workItemId

namespace Recovery

variable {r : Recovery} {t : Tables}

/-- The event that a recovery adds. -/
def event (r : Recovery) (t : Tables) : Event where
  sequence := t.nextSequence
  aggregateId := r.attempt.workItemId
  actorId := some r.attempt.workerId
  causationId := none
  data := .boundaryRecorded r.boundaryId .failure r.runtimeState r.generation

theorem events_record : (r.record t).events = r.event t :: t.events := rfl

/-- The one event of the Boundary is the one that the recovery adds. -/
theorem countEvents_record (hfresh : r.Fresh t) :
    (r.record t).countEvents (fun e => e.RecordsId r.attempt.workItemId r.boundaryId) = 1 := by
  have hold : t.events.countP
      (fun e => decide (e.RecordsId r.attempt.workItemId r.boundaryId)) = 0 :=
    List.countP_eq_zero.mpr fun e he h => hfresh.2 e he (of_decide_eq_true h).2
  have hnew : (r.event t).RecordsId r.attempt.workItemId r.boundaryId := ⟨rfl, rfl⟩
  rw [Tables.countEvents, events_record, List.countP_cons_of_pos, hold]
  exact decide_eq_true hnew

/-- Where the Worker is found, there is a row. -/
theorem exists_limitRow (hfresh : r.Fresh t) (hattempt : r.attempt ∈ t.attempts)
    (hruntime : r.attempt.runtimeSessionId = some r.runtimeId) (h : r.Covered t) :
    ∃ row, row ∈ r.limitRows t := by
  obtain ⟨spec, hspec, ⟨hbound, hworker, htarget⟩, work, hwork, ⟨hid, hassigned⟩,
    attachment, hattachment, hown, supervisor, hsupervisor, hsupervises⟩ := h
  simp only [limitRows, Provider.limitRows, Rows.mem_join, List.mem_singleton]
  refine ⟨_, spec, hspec, ⟨hbound, htarget⟩, r.attempt, hattempt,
    ⟨hbound ▸ hruntime, hworker.symm, rfl⟩, r.boundary, List.mem_cons_self,
    ⟨rfl, rfl, rfl, rfl, rfl, rfl, rfl⟩, work, hwork, ⟨hid, hassigned⟩,
    attachment, hattachment, hown, supervisor, hsupervisor, hsupervises, _, List.mem_cons_self,
    ⟨⟨rfl, rfl⟩, countEvents_record hfresh⟩, rfl⟩

/-- **What a row says**: the Worker is found, and the row has its scope, and the sequence
of the event that the recovery adds. -/
theorem limitRow_spec (hfresh : r.Fresh t) {row : LimitRow} (h : row ∈ r.limitRows t) :
    r.Covered t ∧ row.boundaryId = r.boundaryId ∧ row.boundarySequence = t.nextSequence ∧
      ∃ spec ∈ t.specs, spec.principalId = r.attempt.workerId ∧ row.adapter = spec.adapter ∧
        row.scope = spec.providerScopeDigest := by
  simp only [limitRows, Provider.limitRows, Rows.mem_join] at h
  obtain ⟨spec, hspec, ⟨hbound, htarget⟩, attempt, -, ⟨-, hworker, hworkItem⟩, boundary,
    hboundary, ⟨hboundaryId, -, -, hsource, -⟩, work, hwork, ⟨hid, hassigned⟩, attachment,
    hattachment, hown, supervisor, hsupervisor, hsupervises, e, he, ⟨hrecords, -⟩, hrow⟩ := h
  obtain rfl : boundary = r.boundary := by
    obtain heq | hmem := List.mem_cons.mp hboundary
    · exact heq
    · exact absurd hboundaryId (hfresh.1 boundary hmem)
  have hsequence : e.sequence = t.nextSequence := by
    obtain rfl | hmem := List.mem_cons.mp he
    · rfl
    · exact absurd hrecords.2 (hfresh.2 e hmem)
  obtain rfl := List.mem_singleton.mp hrow
  have hprincipal : spec.principalId = r.attempt.workerId := hworker.symm.trans hsource.symm
  refine ⟨⟨spec, hspec, ⟨hbound, hprincipal, htarget⟩, work, hwork,
    ⟨hid.trans hworkItem, hassigned.trans hsource.symm⟩, attachment, hattachment, hown,
    supervisor, hsupervisor, hsupervises⟩, rfl, hsequence, spec, hspec, hprincipal, rfl, rfl⟩

end Recovery

/-- The circuit of the scope covers the limit. -/
def Store.Guards (s : Store) (l : Limit) : Prop :=
  ∃ c, s.circuits l.scope = some c ∧ l.sequence ≤ c.sourceBoundarySequence

theorem Store.Guards.follows {releases : Probe → Prop} {s s' : Store} {l : Limit}
    (h : s.Guards l) (hfollows : s.Follows releases s') : s'.Guards l := by
  obtain ⟨c, hc, hle⟩ := h
  obtain ⟨c', hc', hcc'⟩ := hfollows l.scope c hc
  exact ⟨c', hc', Nat.le_trans hle hcc'.sequence⟩

namespace Breaker

/-- The Worker of a limit is managed. -/
theorem exists_spec_of_limit {t : Tables} {r : Recovery} {l : Limit} (h : limit? t r = some l) :
    ∃ spec ∈ t.specs, spec.principalId = r.attempt.workerId ∧ spec.adapter = .claude ∧
      l = ⟨spec.providerScopeDigest, t.nextSequence⟩ := by
  obtain ⟨spec, hfind, rfl⟩ := Option.map_eq_some_iff.mp h
  have hspec : spec.principalId = r.attempt.workerId ∧ spec.adapter = .claude := by
    simpa using List.find?_some hfind
  exact ⟨spec, List.mem_of_find?_eq_some hfind, hspec.1, hspec.2, rfl⟩

/-- No circuit covers a limit that is about to be recorded. -/
theorem not_guards_of_limit {s : Store} {r : Recovery} {l : Limit} (hs : s.Sourced)
    (h : limit? s.tables r = some l) : ¬ s.Guards l := by
  rintro ⟨c, hc, hle⟩
  obtain ⟨_, -, -, -, rfl⟩ := exists_spec_of_limit h
  obtain ⟨e, he, hsequence, -⟩ := hs _ c hc
  have hlt := Tables.lt_nextSequence he
  dsimp only at hle
  omega

/-- Two specs of one principal are one. -/
theorem spec_unique {t : Tables} (hspecs : t.specs.Pairwise fun a b => ¬ a.Clash b)
    {a b : Spec} (ha : a ∈ t.specs) (hb : b ∈ t.specs) (h : a.principalId = b.principalId) :
    a = b := by
  by_contra hne
  have : Std.Symm fun a b : Spec => ¬ a.Clash b :=
    ⟨fun x y hxy hyx => hxy (hyx.imp Eq.symm Eq.symm)⟩
  exact hspecs.forall ha hb hne (.inl h)

/-- **A recovery covers the limit that it records exactly if the query finds the
Worker.** -/
theorem guards_recover_iff {env : Env} {s : Store} {r : Recovery} {l : Limit}
    (hspecs : s.tables.specs.Pairwise fun a b => ¬ a.Clash b) (hs : s.Sourced)
    (hattempt : r.attempt ∈ s.tables.attempts)
    (hruntime : r.attempt.runtimeSessionId = some r.runtimeId) (hfresh : r.Fresh s.tables)
    (hl : limit? s.tables r = some l) : (s.recover env r).Guards l ↔ r.Covered s.tables := by
  constructor
  · intro h
    by_contra hcovered
    have hrows : (r.limitRows s.tables).head? = none := by
      rw [List.head?_eq_none_iff, List.eq_nil_iff_forall_not_mem]
      exact fun row hrow => hcovered (Recovery.limitRow_spec hfresh hrow).1
    refine not_guards_of_limit hs hl ?_
    have hsame : s.recover env r = { s with tables := r.record s.tables } := by
      unfold Store.recover Store.recordLimit
      rw [show (limitRows _ _ _ _).head? = none from hrows]
    rw [hsame] at h
    exact h
  · intro hcovered
    obtain ⟨spec, hspec, hprincipal, hclaude, rfl⟩ := exists_spec_of_limit hl
    obtain ⟨first, hfirst⟩ := Recovery.exists_limitRow hfresh hattempt hruntime hcovered
    obtain ⟨row, hrow⟩ : ∃ row, (r.limitRows s.tables).head? = some row :=
      Option.ne_none_iff_exists'.mp fun h => by
        rw [List.head?_eq_none_iff.mp h] at hfirst
        exact List.not_mem_nil hfirst
    obtain ⟨-, hboundary, hsequence, spec', hspec', hprincipal', hadapter, hscope⟩ :=
      Recovery.limitRow_spec hfresh (List.mem_of_head? hrow)
    obtain rfl := spec_unique hspecs hspec hspec' (hprincipal.trans hprincipal'.symm)
    unfold Store.recover Store.recordLimit
    rw [show (limitRows _ _ _ _).head? = some row from hrow]
    dsimp only
    rw [if_neg (by rw [hadapter, hclaude]; exact not_not.mpr rfl)]
    split
    · rename_i hcovers
      obtain ⟨c, hc, hcovers⟩ := (Option.any_eq_true _ _).mp hcovers
      refine ⟨c, hscope ▸ hc, ?_⟩
      obtain hsource | hle := of_decide_eq_true hcovers
      · -- the identifier of the Boundary is new
        obtain ⟨e, he, -, hid⟩ := hs _ c hc
        exact absurd (hid.trans (hsource.trans (congrArg some hboundary))) (hfresh.2 e he)
      · exact hsequence ▸ hle
    · refine ⟨.opened env r.runtimeId row, ?_, hsequence.ge⟩
      rw [← hscope]
      exact Function.update_self ..

/-! ## Steps -/

/-- The step releases the probe: in its own transaction, or as the dispatch of just
this probe, which is not reserved. -/
def Event.Releases (s : Store) : Event → Probe → Prop
  | .release _ runtimeId messageId attemptId, p => p = ⟨some runtimeId, attemptId, some messageId⟩
  | .dispatch env d, p => (s.dispatch env d).1 = false ∧ p = d.probe
  | _, _ => False

/-- What a release, a mark or a close names of the probe. -/
def Event.names? : Event → Option (Probe → Prop)
  | .release _ runtimeId messageId attemptId =>
    some fun p => p = ⟨some runtimeId, attemptId, some messageId⟩
  | .markUnknown _ runtimeId => some fun p => p.runtimeId = some runtimeId
  | .close _ runtimeId attemptId _ =>
    some fun p => p.runtimeId = some runtimeId ∧ p.attemptId = some attemptId
  | _ => none

/-- **What the breaker keeps in one step.** -/
structure Guarded (s : Breaker) (e : Event) (s' : Breaker) : Prop where
  /-- Every limit that was recorded, now or before, is covered by the circuit of its scope. -/
  limits : ∀ l ∈ s'.limits, s'.store.Guards l
  /-- A dispatch that is reserved is outside every scope whose circuit is not closed, or it is
  the probe of the circuit. -/
  admits : ∀ env d spec c, e = .dispatch env d → (s.store.dispatch env d).1 = true →
    s.store.tables.spec? d.runtimeId = some spec → spec.adapter = .claude →
    s.store.circuits spec.providerScopeDigest = some c → c.state ≠ .closed →
    ∃ c', s'.store.circuits spec.providerScopeDigest = some c' ∧ c.Admits s.store.tables d c'
  /-- The sequence of a circuit does not fall, and its probe stays until the circuit is closed,
  opened by a newer limit, or released for this probe. -/
  follows : s.store.Follows (e.Releases s.store) s'.store
  /-- A release, a mark or a close that does not name the probe of a circuit leaves the circuit
  as it is. -/
  others : ∀ names, e.names? = some names → ∀ scope,
    (∀ c p, s.store.circuits scope = some c → c.probe? = some p → ¬ names p) →
    s'.store.circuits scope = s.store.circuits scope
  /-- If it names no probe, nothing changes. -/
  nothing : ∀ names, e.names? = some names →
    (∀ scope c p, s.store.circuits scope = some c → c.probe? = some p → ¬ names p) → s' = s

/-- A limit that the step records is of a Worker that the query of the limit finds. -/
def Covered (s : Breaker) : Event → Prop
  | .recover _ r => ∀ l, limit? s.store.tables r = some l → r.Covered s.store.tables
  | _ => True

/-- The step records no limit. -/
def Unlimited (s : Breaker) : Event → Prop
  | .recover _ r => limit? s.store.tables r = none
  | _ => True

/-- The specs are told apart, and every circuit is sourced. -/
structure Sound (s : Breaker) : Prop where
  specs : s.store.tables.specs.Pairwise fun a b => ¬ a.Clash b
  sourced : s.store.Sourced

theorem Sound.of_sources {s s' : Breaker} (hs : s.Sound) (h : s.store.Sources s'.store) :
    s'.Sound :=
  ⟨h.specs ▸ hs.specs, h.sourced hs.sourced⟩

theorem sources_recover (env : Env) (s : Store) (r : Recovery) : s.Sources (s.recover env r) := by
  have hevents : s.tables.events ⊆ (r.record s.tables).events := List.subset_cons_self _ _
  have hrecord : s.Sources { s with tables := r.record s.tables } :=
    ⟨fun hs => hs.tables hevents, hevents, rfl⟩
  exact hrecord.trans (Store.sources_recordLimit ..)

/-- **A step keeps the breaker sound.** -/
theorem Sound.step {s s' : Breaker} {e : Event} (hs : s.Sound) (h : Breaker.step s e = some s') :
    s'.Sound := by
  cases e with
  | create w =>
    obtain ⟨hclash, rfl⟩ := TransitionSystem.of_guarded h
    exact ⟨List.pairwise_cons.mpr ⟨hclash, hs.specs⟩, hs.sourced.tables (List.Subset.refl _)⟩
  | recover env r =>
    obtain ⟨-, rfl⟩ := TransitionSystem.of_guarded h
    exact hs.of_sources (sources_recover env s.store r)
  | recoverAgain env runtimeId boundaryId workItemId =>
    obtain rfl := Option.some.inj h
    exact hs.of_sources (s.store.sources_recordLimit env runtimeId boundaryId workItemId)
  | dispatch env d =>
    obtain rfl := Option.some.inj h
    exact hs.of_sources (s.store.sources_dispatch env d)
  | release env runtimeId messageId attemptId =>
    obtain rfl := Option.some.inj h
    exact hs.of_sources (s.store.sources_release env runtimeId messageId attemptId)
  | markUnknown env runtimeId =>
    obtain rfl := Option.some.inj h
    exact hs.of_sources (s.store.sources_markUnknown env runtimeId)
  | close env runtimeId attemptId actorId =>
    obtain rfl := Option.some.inj h
    exact hs.of_sources (s.store.sources_close env runtimeId attemptId actorId)
  | other tables =>
    obtain ⟨hextends, rfl⟩ := TransitionSystem.of_guarded h
    exact ⟨hextends.unique, hs.sourced.tables hextends.events.subset⟩

/-- **Every step lets the circuits follow.** -/
theorem follows_of_step {s s' : Breaker} {e : Event} (h : step s e = some s') :
    s.store.Follows (e.Releases s.store) s'.store := by
  cases e with
  | create w =>
    obtain ⟨-, rfl⟩ := TransitionSystem.of_guarded h
    exact .refl _ s.store
  | recover env r =>
    obtain ⟨-, rfl⟩ := TransitionSystem.of_guarded h
    exact Store.follows_recordLimit _ env { s.store with tables := r.record s.store.tables } _ _ _
  | recoverAgain env runtimeId boundaryId workItemId =>
    obtain rfl := Option.some.inj h
    exact s.store.follows_recordLimit _ env runtimeId boundaryId workItemId
  | dispatch env d =>
    obtain rfl := Option.some.inj h
    exact s.store.follows_dispatch env d
  | release env runtimeId messageId attemptId =>
    obtain rfl := Option.some.inj h
    exact s.store.follows_release env runtimeId messageId attemptId
  | markUnknown env runtimeId =>
    obtain rfl := Option.some.inj h
    exact s.store.follows_markUnknown _ env runtimeId
  | close env runtimeId attemptId actorId =>
    obtain rfl := Option.some.inj h
    exact s.store.follows_close _ env runtimeId attemptId actorId
  | other tables =>
    obtain ⟨-, rfl⟩ := TransitionSystem.of_guarded h
    exact .refl _ s.store

/-- A release, a mark or a close leaves the circuits of other probes as they are. -/
theorem others_of_step {s s' : Breaker} {e : Event} (h : step s e = some s') {names : Probe → Prop}
    (hnames : e.names? = some names) {scope : Scope}
    (hothers : ∀ c p, s.store.circuits scope = some c → c.probe? = some p → ¬ names p) :
    s'.store.circuits scope = s.store.circuits scope := by
  cases e with
  | release env runtimeId messageId attemptId =>
    obtain rfl := Option.some.inj h
    obtain rfl := Option.some.inj hnames
    exact Store.release_others fun c hc hprobe => hothers c _ hc hprobe rfl
  | markUnknown env runtimeId =>
    obtain rfl := Option.some.inj h
    obtain rfl := Option.some.inj hnames
    exact Store.markUnknown_others hothers
  | close env runtimeId attemptId actorId =>
    obtain rfl := Option.some.inj h
    obtain rfl := Option.some.inj hnames
    exact Store.close_others hothers
  | _ => exact nomatch hnames

/-- A release, a mark or a close of no probe changes nothing. -/
theorem nothing_of_step {s s' : Breaker} {e : Event} (h : step s e = some s')
    {names : Probe → Prop} (hnames : e.names? = some names)
    (hnothing : ∀ scope c p, s.store.circuits scope = some c → c.probe? = some p → ¬ names p) :
    s' = s := by
  cases e with
  | release env runtimeId messageId attemptId =>
    obtain rfl := Option.some.inj h
    obtain rfl := Option.some.inj hnames
    exact congrArg (Breaker.mk · s.limits)
      (Store.release_nothing fun scope c hc hprobe => hnothing scope c _ hc hprobe rfl)
  | markUnknown env runtimeId =>
    obtain rfl := Option.some.inj h
    obtain rfl := Option.some.inj hnames
    exact congrArg (Breaker.mk · s.limits) (Store.markUnknown_nothing hnothing)
  | close env runtimeId attemptId actorId =>
    obtain rfl := Option.some.inj h
    obtain rfl := Option.some.inj hnames
    exact congrArg (Breaker.mk · s.limits) (Store.close_nothing hnothing)
  | _ => exact nomatch hnames

/-- The limits that a step records. -/
def recorded (s : Breaker) : Event → List Limit
  | .recover _ r => (limit? s.store.tables r).toList
  | _ => []

theorem limits_of_step {s s' : Breaker} {e : Event} (h : step s e = some s') :
    s'.limits = s.recorded e ++ s.limits := by
  cases e with
  | create w =>
    obtain ⟨-, rfl⟩ := TransitionSystem.of_guarded h
    rfl
  | recover env r =>
    obtain ⟨-, rfl⟩ := TransitionSystem.of_guarded h
    rfl
  | other tables =>
    obtain ⟨-, rfl⟩ := TransitionSystem.of_guarded h
    rfl
  | _ =>
    obtain rfl := Option.some.inj h
    rfl

/-- **A step covers the limits exactly if it meets the condition.** -/
theorem limits_guarded_iff {s s' : Breaker} {e : Event} (hs : s.Sound)
    (hlimits : ∀ l ∈ s.limits, s.store.Guards l) (h : step s e = some s') :
    (∀ l ∈ s'.limits, s'.store.Guards l) ↔ s.Covered e := by
  have hfollows := follows_of_step h
  have hrecorded : (∀ l ∈ s'.limits, s'.store.Guards l) ↔
      ∀ l ∈ s.recorded e, s'.store.Guards l := by
    rw [limits_of_step h]
    refine ⟨fun hall l hl => hall l (List.mem_append_left _ hl), fun hnew l hl => ?_⟩
    obtain hl | hl := List.mem_append.mp hl
    · exact hnew l hl
    · exact (hlimits l hl).follows hfollows
  rw [hrecorded]
  cases e with
  | recover env r =>
    obtain ⟨⟨hattempt, hruntime, hfresh⟩, rfl⟩ := TransitionSystem.of_guarded h
    refine forall_congr' fun l => ?_
    rw [recorded, Option.mem_toList]
    exact forall_congr' fun hl =>
      guards_recover_iff hs.specs hs.sourced hattempt hruntime hfresh hl
  | _ => exact ⟨fun _ => trivial, fun _ l hl => absurd hl List.not_mem_nil⟩

/-- **A step is guarded exactly if it meets the condition.** -/
theorem guarded_iff {s s' : Breaker} {e : Event} (hs : s.Sound)
    (hlimits : ∀ l ∈ s.limits, s.store.Guards l) (h : step s e = some s') :
    Guarded s e s' ↔ s.Covered e := by
  rw [← limits_guarded_iff hs hlimits h]
  refine ⟨Guarded.limits, fun hall => ?_⟩
  exact
    { limits := hall
      admits := fun env d spec c he hreserved hspec hclaude hc hclosed => by
        subst he
        obtain rfl := Option.some.inj h
        exact Store.admits_of_reserved hreserved hspec hclaude hc hclosed
      follows := follows_of_step h
      others := fun _ hnames _ hothers => others_of_step h hnames hothers
      nothing := fun _ hnames hnothing => nothing_of_step h hnames hnothing }

/-! ## Runs -/

/-- No spec has a catalog target: the service created every Worker. -/
def ServiceCreated (s : Breaker) : Prop :=
  ∀ spec ∈ s.store.tables.specs, spec.catalogTargetId = ""

theorem ServiceCreated.step {s s' : Breaker} {e : Event} (hs : s.ServiceCreated)
    (h : Breaker.step s e = some s') : s'.ServiceCreated := by
  have hsame {store : Store} (h : s.store.Sources store) :
      ∀ spec ∈ store.tables.specs, spec.catalogTargetId = "" := h.specs ▸ hs
  cases e with
  | create w =>
    obtain ⟨-, rfl⟩ := TransitionSystem.of_guarded h
    exact List.forall_mem_cons.mpr ⟨rfl, hs⟩
  | recover env r =>
    obtain ⟨-, rfl⟩ := TransitionSystem.of_guarded h
    exact hsame (sources_recover env s.store r)
  | recoverAgain env runtimeId boundaryId workItemId =>
    obtain rfl := Option.some.inj h
    exact hsame (s.store.sources_recordLimit env runtimeId boundaryId workItemId)
  | dispatch env d =>
    obtain rfl := Option.some.inj h
    exact hsame (s.store.sources_dispatch env d)
  | release env runtimeId messageId attemptId =>
    obtain rfl := Option.some.inj h
    exact hsame (s.store.sources_release env runtimeId messageId attemptId)
  | markUnknown env runtimeId =>
    obtain rfl := Option.some.inj h
    exact hsame (s.store.sources_markUnknown env runtimeId)
  | close env runtimeId attemptId actorId =>
    obtain rfl := Option.some.inj h
    exact hsame (s.store.sources_close env runtimeId attemptId actorId)
  | other tables =>
    obtain ⟨hextends, rfl⟩ := TransitionSystem.of_guarded h
    intro b hb
    obtain ⟨a, ha, -, -, -, -, htarget⟩ := hextends.specs b hb
    exact htarget.trans (hs a ha)

/-- Where no spec has a catalog target, a record opens nothing. -/
theorem recordLimit_eq_self {s : Store} (hs : ∀ spec ∈ s.tables.specs, spec.catalogTargetId = "")
    (env : Env) (runtimeId : RuntimeId) (boundaryId : BoundaryId) (workItemId : WorkId) :
    s.recordLimit env runtimeId boundaryId workItemId = s := by
  obtain h | ⟨row, hrow, -⟩ := Store.recordLimit_cases env s runtimeId boundaryId workItemId
  · exact h
  · have hmem := List.mem_of_head? hrow
    simp only [limitRows, Rows.mem_join] at hmem
    obtain ⟨spec, hspec, ⟨-, htarget⟩, -⟩ := hmem
    exact absurd (hs spec hspec) htarget

/-- Where there is no circuit, a dispatch opens none. -/
theorem circuits_dispatch {s : Store} (hs : ∀ scope, s.circuits scope = none) (env : Env)
    (d : Dispatch) : (s.dispatch env d).2.circuits = s.circuits := by
  have hclaim : (s.claim env d.runtimeId d.messageId d.attemptId).2 = s := by
    generalize hclaim : s.claim env d.runtimeId d.messageId d.attemptId = answer
    cases hclaim ▸ Store.claimed env s d.runtimeId d.messageId d.attemptId with
    | deferred => rfl
    | outside => rfl
    | again => rfl
    | reserved spec c candidate _ hc => exact nomatch (hs _).symm.trans hc
  generalize hdispatch : s.dispatch env d = answer
  cases hdispatch ▸ s.dispatched env d with
  | refused => rfl
  | deferred until_ s' h => rw [← hclaim, h]
  | released s' h =>
    obtain rfl : s' = s := by rw [← hclaim, h]
    rw [Store.release_nothing fun scope c hc => nomatch (hs scope).symm.trans hc]
  | reserved s' deliveries h => rw [← hclaim, h]

theorem unopened_of_step {s s' : Breaker} {e : Event} (hcreated : s.ServiceCreated)
    (hnone : ∀ scope, s.store.circuits scope = none) (h : step s e = some s') (scope : Scope) :
    s'.store.circuits scope = none := by
  cases e with
  | create w =>
    obtain ⟨-, rfl⟩ := TransitionSystem.of_guarded h
    exact hnone scope
  | recover env r =>
    obtain ⟨-, rfl⟩ := TransitionSystem.of_guarded h
    have hsame : s.store.recover env r = { s.store with tables := r.record s.store.tables } :=
      recordLimit_eq_self (s := { s.store with tables := r.record s.store.tables }) hcreated ..
    exact hsame ▸ hnone scope
  | recoverAgain env runtimeId boundaryId workItemId =>
    obtain rfl := Option.some.inj h
    exact (recordLimit_eq_self hcreated env runtimeId boundaryId workItemId).symm ▸ hnone scope
  | dispatch env d =>
    obtain rfl := Option.some.inj h
    exact (congrFun (circuits_dispatch hnone env d) scope).trans (hnone scope)
  | other tables =>
    obtain ⟨-, rfl⟩ := TransitionSystem.of_guarded h
    exact hnone scope
  | release env runtimeId messageId attemptId =>
    rw [nothing_of_step h rfl fun scope _ _ hc => nomatch (hnone scope).symm.trans hc]
    exact hnone scope
  | markUnknown env runtimeId =>
    rw [nothing_of_step h rfl fun scope _ _ hc => nomatch (hnone scope).symm.trans hc]
    exact hnone scope
  | close env runtimeId attemptId actorId =>
    rw [nothing_of_step h rfl fun scope _ _ hc => nomatch (hnone scope).symm.trans hc]
    exact hnone scope

/-- The runs that begin without a circuit, and without a Worker that the service did not
create. -/
def serviceRuns : TransitionSystem Breaker Event :=
  .ofFunction (fun s => s.Initial ∧ s.ServiceCreated) step

/-- **No Worker that the service created opens a circuit.** -/
theorem never_opened {s s' : Breaker} {es : List Event} (hs : s.Initial) (hcreated : s.ServiceCreated)
    (hrun : TransitionSystem.replay step s es = some s') (scope : Scope) :
    s'.store.circuits scope = none := by
  have hreach : serviceRuns.Reachable s' :=
    TransitionSystem.Reachable.replay es (.of_init ⟨hs, hcreated⟩) hrun
  have hkept : s'.ServiceCreated ∧ ∀ scope, s'.store.circuits scope = none := by
    refine TransitionSystem.Reachable.invariant (T := serviceRuns)
      (I := fun s => s.ServiceCreated ∧ ∀ scope, s.store.circuits scope = none) ?_ ?_ hreach
    · exact fun s hs => ⟨hs.2, hs.1.circuits⟩
    · exact fun s e s' _ hs h => ⟨hs.1.step h, unopened_of_step hs.1 hs.2 h⟩
  exact hkept.2 scope

/-- The query of a limit finds no Worker that the service created. -/
theorem covered_iff_unlimited {s : Breaker} (hs : s.ServiceCreated) (e : Event) :
    s.Covered e ↔ s.Unlimited e := by
  cases e with
  | recover env r =>
    have hcovered : ¬ r.Covered s.store.tables := by
      rintro ⟨spec, hspec, ⟨-, -, htarget⟩, -⟩
      exact htarget (hs spec hspec)
    exact ⟨fun h => Option.eq_none_iff_forall_ne_some.mpr fun l hl => hcovered (h l hl),
      fun h l hl => nomatch h.symm.trans hl⟩
  | _ => exact Iff.rfl

theorem Initial.sound {s : Breaker} (hs : s.Initial) : s.Sound :=
  ⟨hs.specs, fun scope _ hc => nomatch (hs.circuits scope).symm.trans hc⟩

/-- What a run keeps as long as its steps are guarded. -/
theorem keep_of_guarded {s s' : Breaker} {e : Event} (hs : s.Sound) (h : step s e = some s')
    (hguarded : Guarded s e s') : s'.Sound ∧ ∀ l ∈ s'.limits, s'.store.Guards l :=
  ⟨hs.step h, hguarded.limits⟩

/-- **The breaker over whole runs.** Every step of a run is guarded exactly if the query
of every limit that is recorded finds its Worker. In a run whose Workers the
service created, it never does. -/
theorem guarded_run_iff {s : Breaker} (hs : s.Initial) (es : List Event) :
    (TransitionSystem.Along step Guarded s es ↔
        TransitionSystem.Along step (fun s e _ => s.Covered e) s es) ∧
      (s.ServiceCreated →
        (TransitionSystem.Along step Guarded s es ↔
          TransitionSystem.Along step (fun s e _ => s.Unlimited e) s es)) := by
  have hlimits : ∀ l ∈ s.limits, s.store.Guards l := by
    rw [hs.limits]
    exact fun l hl => absurd hl List.not_mem_nil
  constructor
  · refine TransitionSystem.along_congr (I := fun s => s.Sound ∧ ∀ l ∈ s.limits, s.store.Guards l)
      (fun s e s' hs h => ?_) (fun s e s' hs h hguarded => ?_) ⟨hs.sound, hlimits⟩ es
    · exact guarded_iff hs.1 hs.2 h
    · exact keep_of_guarded hs.1 h hguarded
  · intro hcreated
    refine TransitionSystem.along_congr
      (I := fun s => s.ServiceCreated ∧ s.Sound ∧ ∀ l ∈ s.limits, s.store.Guards l)
      (fun s e s' hs h => ?_) (fun s e s' hs h hguarded => ?_) ⟨hcreated, hs.sound, hlimits⟩ es
    · exact (guarded_iff hs.2.1 hs.2.2 h).trans (covered_iff_unlimited hs.1 e)
    · exact ⟨hs.1.step h, keep_of_guarded hs.2.1 h hguarded⟩

/-! ## Two Workers of one scope -/

/-- A Claude Worker of the scope. -/
def worker (n : ℕ) : NewWorker where
  id := n
  attachmentId := 20
  attachmentGeneration := 1
  principalId := 10 + n
  runtimeSessionId := n
  enrollmentId := n
  adapter := .claude
  model := "model"
  workspaceRef := "/workspace"

/-- Both are at work for one CAO. The first has failed; the second has an assignment. -/
def desk (target : String) : Tables where
  specs := [{ (worker 2).spec with catalogTargetId := target },
    { (worker 1).spec with catalogTargetId := target }]
  epochs := [⟨2, 2⟩, ⟨1, 1⟩]
  runtimes := [⟨2, 12, .ready⟩, ⟨1, 11, .failed⟩]
  enrollments := [⟨2, 12, 2, .ready⟩, ⟨1, 11, 1, .ready⟩]
  attachments := [⟨20, 10, "project", .active, 1, 100⟩]
  principals := [⟨10, .cao⟩, ⟨12, .worker⟩, ⟨11, .worker⟩]
  works := [⟨42, .active, 10, some 20, 12, some 1⟩, ⟨41, .active, 10, some 20, 11, some 1⟩]
  attempts := [⟨32, 42, 12, some 2⟩, ⟨31, 41, 11, some 1⟩]
  messages := [⟨52, true, 10, some 42, some 32⟩, ⟨51, true, 10, some 41, some 31⟩]
  deliveries := [⟨52, 12, some 2, 1, .leased, "dispatcher"⟩]
  boundaries := []
  events := []

def noon : Env where
  now := 12
  cooldownSeconds := 60
  scanSeconds := 1
  closedCleanly := fun _ _ _ => false

/-- The first Worker is limited. -/
def limited : Recovery := ⟨1, ⟨31, 41, 11, some 1⟩, 61, .failed, 1⟩

/-- The assignment of the second is dispatched. -/
def sibling : Dispatch := ⟨2, 12, 52, some 32, 1, "dispatcher", true⟩

/-- The Workers were there before, with a catalog target. -/
def migrated : Breaker := ⟨⟨desk "target", fun _ => none⟩, []⟩

/-- The sibling of a limited Worker that has a catalog target is held back. -/
theorem guarded_run_iff_migrated :
    TransitionSystem.Along step Guarded migrated [.recover noon limited, .dispatch noon sibling] ∧
      ∃ s, TransitionSystem.replay step migrated [.recover noon limited] = some s ∧
        s.limits = [⟨⟨.claude, "model"⟩, 1⟩] ∧ (s.store.dispatch noon sibling).1 = false := by
  have hinitial : migrated.Initial := ⟨by decide, fun _ => rfl, rfl⟩
  refine ⟨(guarded_run_iff hinitial _).1.mpr ?_, _, rfl, rfl, rfl⟩
  intro s _
  refine ⟨fun _ _ => ⟨{ (worker 1).spec with catalogTargetId := "target" }, by decide, by decide,
    ⟨41, .active, 10, some 20, 11, some 1⟩, by decide, by decide,
    ⟨20, 10, "project", .active, 1, 100⟩, by decide, rfl,
    ⟨20, 10, "project", .active, 1, 100⟩, by decide, by decide⟩, fun s _ => ⟨trivial, trivial⟩⟩

/-- Nothing is there yet. -/
def blank : Breaker := ⟨⟨⟨[], [], [], [], [], [], [], [], [], [], [], []⟩, fun _ => none⟩, []⟩

/-- The service creates the two Workers, and they are given work. -/
def creation : List Event := [.create (worker 1), .create (worker 2), .other (desk "")]

/-- **The sibling of a limited Worker that the service created is dispatched.** No
circuit has been opened. -/
theorem limit_not_guarded : blank.Initial ∧ blank.ServiceCreated ∧
    ¬ TransitionSystem.Along step Guarded blank (creation ++ [.recover noon limited]) ∧
    ∃ s, TransitionSystem.replay step blank (creation ++ [.recover noon limited]) = some s ∧
      s.limits = [⟨⟨.claude, "model"⟩, 1⟩] ∧ s.store.circuits ⟨.claude, "model"⟩ = none ∧
      (s.store.dispatch noon sibling).1 = true := by
  refine ⟨⟨.nil, fun _ => rfl, rfl⟩, fun _ h => absurd h List.not_mem_nil, fun h => ?_,
    _, rfl, rfl, rfl, rfl⟩
  obtain ⟨c, hc, -⟩ := (h.last rfl rfl).limits ⟨⟨.claude, "model"⟩, 1⟩ List.mem_cons_self
  exact nomatch hc

end Breaker

end Provider
