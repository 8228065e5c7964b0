import OpenCAO.CloseCleanups

/-!
# A prepared cleanup runs once

Whatever number of calls execute one close preparation, the provider is entered
at most once, and what was reserved for it is one effect for each enumerated
target, under a grant that nothing had been charged to. The preparation is marked
as executed once, at a moment at which every one of its effects is settled.

The argument is about the digest of the request in the row of the preparation. It
is empty until a transaction reserves the effects, and the transaction that does
so finds it empty; from then on no transaction reserves, so no call comes into
being that could enter the provider. What remains is to say of each transaction
what it leaves: a call that is answered leaves the effects alone, a reservation
adds the operations of all targets at once, and a settlement writes outcomes of
operations that were reserved.
-/

/-! ## Parts that only read -/

section Reading

variable {t : CleanupTables}

theorem reads_checkElsewhere (check : Except ServiceError PUnit) :
    Tx.Reads (fun _ => True) t (checkElsewhere check) := by
  unfold checkElsewhere
  cases check with
  | ok _ => exact ⟨rfl, trivial⟩
  | error e => trivial

theorem reads_requireCao (env : EffectEnv) (actor : Actor) :
    Tx.Reads (fun _ => True) t
      (Tx.within CleanupTables.effects (fun effects t => { t with effects := effects })
        (requireCao env actor)) := by
  refine Tx.wp_within (Tx.wp_mono (wp_requireCao env actor t.effects) (fun _ l h => ?_) fun _ h => h)
  rw [h]
  exact ⟨rfl, trivial⟩

theorem reads_cleanupAnswer (actor : Actor) (attachmentId : AttachmentId)
    (request : ExecutePreparedCleanupInput) :
    Tx.Reads (fun _ => True) t (cleanupAnswer actor attachmentId request) := by
  unfold cleanupAnswer
  refine Tx.Ensures.ite (fun _ => ⟨rfl, trivial⟩) fun _ => Tx.Ensures.get ?_
  cases t.answer? actor.id attachmentId request.idempotencyKey with
  | none => exact ⟨rfl, trivial⟩
  | some a => exact Tx.Ensures.require fun _ => ⟨rfl, trivial⟩

theorem reads_requireCleanupAuthority (env : CleanupEnv) (actor : Actor)
    (attachmentId : AttachmentId) (request : ExecutePreparedCleanupInput) :
    Tx.Reads (fun _ => True) t (requireCleanupAuthority env actor attachmentId request) := by
  unfold requireCleanupAuthority
  refine Tx.Reads.bind (reads_checkElsewhere env.attachmentCurrent) fun _ _ => Tx.Ensures.get ?_
  refine Tx.Ensures.require fun _ => Tx.Ensures.need fun work _ => ?_
  refine Tx.Reads.bind (reads_checkElsewhere env.workActor) fun _ _ => ?_
  refine Tx.Ensures.need fun attempt _ => Tx.Ensures.require fun _ => ?_
  refine Tx.Reads.bind (reads_checkElsewhere env.closeAuthority) fun _ _ => ?_
  exact Tx.Reads.bind (reads_checkElsewhere env.runtimeTerminal) fun _ _ => ⟨rfl, trivial⟩

theorem reads_requiredArtifacts (env : CleanupEnv) (scope : String) :
    Tx.Reads (fun _ => True) t (requiredArtifacts env scope) := by
  unfold requiredArtifacts
  refine Tx.Ensures.ite (fun _ => ?_) fun _ => Tx.Ensures.ite (fun _ => ⟨rfl, trivial⟩) fun _ => trivial
  refine Tx.Reads.bind (reads_checkElsewhere env.deliveryReady) fun _ _ => ?_
  exact Tx.Ensures.need fun rows _ => ⟨rfl, trivial⟩

theorem reads_preserveArtifacts (env : CleanupEnv) (p : CleanupPreparation) :
    Tx.Reads (fun _ => True) t (preserveArtifacts env p) := by
  unfold preserveArtifacts
  refine Tx.Ensures.require fun _ => Tx.Ensures.need fun items _ => Tx.Ensures.require fun _ => ?_
  refine Tx.Reads.bind (reads_requiredArtifacts env _) fun required _ => ?_
  refine Tx.Ensures.require fun _ => Tx.Ensures.need fun receipts _ => ?_
  exact Tx.Ensures.require fun _ => ⟨rfl, trivial⟩

/-- **The targets that are removed are the enumerated ones**, where the inventory
is the frozen one. -/
theorem preparedPrivate_of_verified {env : CleanupEnv} {p : CleanupPreparation}
    (h : env.verifyPublicInventory p.providerInventory = true) : p.preparedPrivate = p.enumerated := by
  obtain ⟨f, -, hf⟩ := (Option.any_eq_true _ _).mp h
  have hrecords : f.records = p.providerInventory := by simpa using hf
  unfold CleanupPreparation.preparedPrivate CleanupPreparation.enumerated
  rw [CleanupPreparation.providerInventory, List.filter_filter]
  refine List.filter_congr fun i hi => ?_
  by_cases henum : i.Enumerated
  · -- an enumerated record is one of the frozen ones
    have hcoverage : i.coverage.isSome = true := by
      rw [show i.coverage = some "enumerated" from henum]
      rfl
    have hkind : i.targetKind ∈ cleanupKinds := by
      refine f.kinds i ?_
      rw [hrecords]
      exact List.mem_filter.mpr ⟨hi, hcoverage⟩
    simp [henum, hcoverage, hkind]
  · simp [henum]

theorem reads_verifyInventory (env : CleanupEnv) (p : CleanupPreparation) :
    Tx.Reads (fun _ => p.preparedPrivate = p.enumerated) t (verifyInventory env p) := by
  unfold verifyInventory
  refine Tx.Ensures.require fun h => ?_
  refine Tx.wp_mono (Tx.wp_each (I := fun t' => t' = t) p.preparedPrivate (fun i _ t' ht' => ?_) rfl)
    (fun _ t' ht' => ⟨ht', preparedPrivate_of_verified h⟩) fun _ h => h
  unfold requireComplete
  rw [Tx.wp_bind, Tx.wp_require, Tx.wp_require]
  exact ⟨fun _ => ⟨fun _ => ht', fun _ => trivial⟩, fun _ => trivial⟩

end Reading

/-! ## What is authorized -/

section Authority

variable (fnmatchcase : String → String → Bool) {t : CleanupTables}

/-- A request and the grant that it is to be reserved under: the grant covers it,
and nothing was charged to the grant. -/
structure CleanupGrant (env : CleanupEnv) (t : CleanupTables) (request : EffectCheckInput)
    (g : EffectGrant) : Prop where
  mem : g ∈ t.effects.grants
  authorizes : g.Authorizes fnmatchcase env.effects.now request
  unconsumed : g.consumedAt = none

/-- **What the loop over the targets ends with**: a grant for every request, and
no one-time grant for two of them. -/
structure Authorized (env : CleanupEnv) (t : CleanupTables) (oneTime : List EffectGrantId)
    (r : List (EffectCheckInput × EffectGrantId) × List EffectGrantId) : Prop where
  granted : ∀ a ∈ r.1, ∃ g, g.id = a.2 ∧ CleanupGrant fnmatchcase env t a.1 g ∧
    (g.standing = false → g.id ∈ r.2 ∧ g.id ∉ oneTime)
  apart : r.1.Pairwise fun a b => ∀ g ∈ t.effects.grants, g.standing = false →
    a.2 = g.id → b.2 ≠ g.id
  includes : oneTime ⊆ r.2

theorem reads_cleanupDecision (env : CleanupEnv) (request : EffectCheckInput) :
    Tx.Reads (fun d => ∀ id, d = .allow (some id) →
        ∃ g ∈ t.effects.grants, id = g.id ∧ g.Authorizes fnmatchcase env.effects.now request) t
      (cleanupDecision fnmatchcase env request) := by
  refine Tx.wp_within (Tx.wp_mono (wp_effectDecision fnmatchcase env.effects request t.effects)
    (fun d l h => ?_) fun _ h => h)
  obtain ⟨rfl, hallow⟩ := h
  refine ⟨rfl, fun id hd => ?_⟩
  rcases (hallow (some id) hd).2 with ⟨hnone, _⟩ | ⟨g, hg, hid, hauthorizes⟩
  · exact nomatch hnone
  · exact ⟨g, hg, Option.some.inj hid, hauthorizes⟩

theorem reads_authorizeRequest (hids : (t.effects.grants.map EffectGrant.id).Nodup)
    (env : CleanupEnv) (request : EffectCheckInput) (oneTime : List EffectGrantId) :
    Tx.Reads (fun g => CleanupGrant fnmatchcase env t request g ∧
        (g.standing = false → g.id ∉ oneTime)) t
      (authorizeRequest fnmatchcase env request oneTime) := by
  unfold authorizeRequest
  refine Tx.Ensures.require fun _ => ?_
  refine Tx.Reads.bind (reads_cleanupDecision fnmatchcase env request) fun d hd => ?_
  match d, hd with
  | .allow none, _ => trivial
  | .verifyRemote _, _ => trivial
  | .approvalRequired, _ => trivial
  | .allow (some id), hd =>
    obtain ⟨g, hg, rfl, hauthorizes⟩ := hd id rfl
    refine Tx.Ensures.get (Tx.Ensures.need fun g' hg' => ?_)
    obtain rfl : g = g' := by
      rw [t.effects.grant?_eq hids hg] at hg'
      exact Option.some.inj hg'
    exact Tx.Ensures.require fun hunconsumed => Tx.Ensures.require fun hfresh =>
      ⟨rfl, ⟨hg, hauthorizes, hunconsumed⟩, hfresh⟩

/-- **Every target has its grant.** The induction is over the targets; the grants
that were chosen before are known by the one-time grants among them. -/
theorem reads_authorizeItems (hids : (t.effects.grants.map EffectGrant.id).Nodup)
    (env : CleanupEnv) (actor : Actor) (p : CleanupPreparation) (items : List InventoryItem)
    (oneTime : List EffectGrantId) :
    Tx.Reads (fun r => r.1.map Prod.fst = items.map (p.cleanupRequest actor) ∧
        Authorized fnmatchcase env t oneTime r) t
      (authorizeItems fnmatchcase env actor p items oneTime) := by
  induction items generalizing oneTime with
  | nil =>
    exact ⟨rfl, rfl, fun a ha => (nomatch ha), List.Pairwise.nil, List.Subset.refl _⟩
  | cons i rest ih =>
    unfold authorizeItems
    refine Tx.Reads.bind (reads_authorizeRequest fnmatchcase hids env _ oneTime) fun g hg => ?_
    obtain ⟨hgrant, hfresh⟩ := hg
    refine Tx.Reads.bind (ih _) fun r hr => ⟨rfl, ?_, ?_⟩
    · rw [List.map_cons, List.map_cons, hr.1]
    obtain ⟨-, hrest⟩ := hr
    have hsub : oneTime ⊆ if g.standing = false then g.id :: oneTime else oneTime := by
      split
      · exact List.subset_cons_self _ _
      · exact List.Subset.refl _
    refine ⟨fun a ha => ?_, List.pairwise_cons.mpr ⟨fun b hb g' hg' hstanding hid => ?_, hrest.apart⟩,
      fun id hid => hrest.includes (hsub hid)⟩
    · rcases List.mem_cons.mp ha with rfl | ha
      · refine ⟨g, rfl, hgrant, fun hstanding => ⟨hrest.includes ?_, hfresh hstanding⟩⟩
        rw [if_pos hstanding]
        exact List.mem_cons_self
      · obtain ⟨g', hid', hgrant', hone⟩ := hrest.granted a ha
        exact ⟨g', hid', hgrant', fun h => ⟨(hone h).1, fun hmem => (hone h).2 (hsub hmem)⟩⟩
    · -- the grant chosen here is among the one-time grants of the rest
      obtain rfl : g = g' := Rows.eq_of_key hids hgrant.mem hg' hid
      obtain ⟨g₁, hid₁, hgrant₁, hone⟩ := hrest.granted b hb
      intro hb'
      obtain rfl : g₁ = g := Rows.eq_of_key hids hgrant₁.mem hgrant.mem (hid₁.trans hb')
      refine (hone hstanding).2 ?_
      rw [if_pos hstanding]
      exact List.mem_cons_self

end Authority

/-! ## What is spent and inserted -/

section Reservation

/-- **The one-time grants are spent**: of the rows of grants only the time of
consumption changes, and none of those listed is unconsumed. -/
structure Spent (t : CleanupTables) (ids : List EffectGrantId) (t' : CleanupTables) : Prop where
  rest : t' = { t with effects := { t.effects with grants := t'.effects.grants } }
  grants : List.Forall₂ Effects.ChargedTo t.effects.grants t'.effects.grants
  spent : ∀ g ∈ t'.effects.grants, g.id ∈ ids → g.consumedAt ≠ none

theorem charged_of_spend (now : Instant) (id : EffectGrantId) (grants : List EffectGrant) :
    List.Forall₂ Effects.ChargedTo grants
      (Rows.update (EffectGrant.unspentAs id) (EffectGrant.consume now) grants) :=
  Rows.evolve_update Effects.ChargedTo.refl (f := EffectGrant.consume now)
    (fun _ _ => ⟨rfl, rfl, fun _ => Option.some_ne_none now⟩) grants

/-- After the update of one grant it is consumed, and so is whatever was. -/
theorem consumed_of_spend {now : Instant} {id : EffectGrantId} {grants : List EffectGrant}
    {g : EffectGrant}
    (hg : g ∈ Rows.update (EffectGrant.unspentAs id) (EffectGrant.consume now) grants) :
    (g.id = id → g.consumedAt ≠ none) ∧
      ∃ g₀ ∈ grants, g₀.id = g.id ∧ (g₀.consumedAt ≠ none → g.consumedAt ≠ none) := by
  obtain ⟨g₀, hg₀, rfl⟩ := Rows.mem_update.mp hg
  by_cases hunspent : g₀.unspentAs id = true
  · rw [if_pos hunspent]
    have hconsumed : (g₀.consume now).consumedAt ≠ none := Option.some_ne_none now
    exact ⟨fun _ => hconsumed, g₀, hg₀, rfl, fun _ => hconsumed⟩
  · rw [if_neg hunspent]
    refine ⟨fun hid hnone => hunspent ?_, g₀, hg₀, rfl, fun h => h⟩
    simp [EffectGrant.unspentAs, hid, hnone]

theorem ensures_spendCleanupGrants (env : CleanupEnv) (t : CleanupTables)
    (ids : List EffectGrantId) :
    Tx.Ensures t (Tx.each (spendCleanupGrant env) ids) fun _ t' => Spent t ids t' := by
  refine Tx.wp_mono (Tx.wp_each_rest (I := fun rest t' =>
      t' = { t with effects := { t.effects with grants := t'.effects.grants } } ∧
        List.Forall₂ Effects.ChargedTo t.effects.grants t'.effects.grants ∧
        ∀ g ∈ t'.effects.grants, g.id ∈ ids → g.id ∈ rest ∨ g.consumedAt ≠ none)
    ids (fun id rest t₁ h₁ => ?_) ⟨rfl, List.forall₂_same.mpr fun g _ => .refl g, fun g _ h => .inl h⟩)
    (fun _ t' h => ⟨h.1, h.2.1, fun g hg hid => (h.2.2 g hg hid).resolve_left List.not_mem_nil⟩)
    fun _ h => h
  obtain ⟨hrest, hcharged, hspent⟩ := h₁
  unfold spendCleanupGrant
  refine Tx.Ensures.get (Tx.Ensures.require fun _ => ⟨?_, ?_, fun g hg hid => ?_⟩)
  · rw [hrest]
  · exact Rows.evolve_trans (R := Effects.ChargedTo)
      (fun a b c hab hbc => ⟨hbc.1.trans hab.1, hbc.2.1.trans hab.2.1, fun h => hbc.2.2 (hab.2.2 h)⟩)
      hcharged (charged_of_spend env.effects.now id _)
  · obtain ⟨hnow, g₀, hg₀, hid₀, hkept⟩ := consumed_of_spend hg
    rcases hspent g₀ hg₀ (hid₀ ▸ hid) with hmem | hconsumed
    · rcases List.mem_cons.mp (hid₀ ▸ hmem) with heq | hmem
      · exact .inr (hnow heq)
      · exact .inl hmem
    · exact .inr (hkept hconsumed)

/-- **What the operations are inserted under**: each refers to a grant that is
spent if it is a one-time grant, no two to one such grant, and no operation that
is there to any of these. -/
structure Insertable (l : EffectLedger) (authorized : List (EffectCheckInput × EffectGrantId)) :
    Prop where
  effects : Effects.Inv l
  charged : ∀ a ∈ authorized, ∃ g ∈ l.grants, g.id = a.2 ∧
    (g.standing = false → g.consumedAt ≠ none)
  unused : ∀ a ∈ authorized, ∀ g ∈ l.grants, g.standing = false → a.2 = g.id →
    ∀ o ∈ l.operations, o.grantId ≠ some g.id
  apart : authorized.Pairwise fun a b => ∀ g ∈ l.grants, g.standing = false →
    a.2 = g.id → b.2 ≠ g.id

/-- What an operation was inserted for. -/
def InsertedFor (a : EffectCheckInput × EffectGrantId) (o : EffectOperation) : Prop :=
  o.request = a.1 ∧ o.grantId = some a.2

theorem requests_of_inserted {authorized : List (EffectCheckInput × EffectGrantId)}
    {rows : List EffectOperation} (h : List.Forall₂ InsertedFor authorized rows) :
    rows.map EffectOperation.request = authorized.map Prod.fst := by
  induction h with
  | nil => rfl
  | cons hfor _ ih => simp [hfor.1, ih]

/-- The operations stand before those that were there; nothing else of the tables
has changed but the events. -/
structure Inserted (t : CleanupTables) (authorized : List (EffectCheckInput × EffectGrantId))
    (rows : List EffectOperation) (t' : CleanupTables) : Prop where
  effects : Effects.Inv t'.effects
  operations : t'.effects.operations = rows.reverse ++ t.effects.operations
  grants : t'.effects.grants = t.effects.grants
  rest : t' = { t with effects := t'.effects }
  rows : List.Forall₂ InsertedFor authorized rows

/-- One operation is inserted. -/
theorem Insertable.cons {l : EffectLedger} {a : EffectCheckInput × EffectGrantId}
    {rest : List (EffectCheckInput × EffectGrantId)} (h : Insertable l (a :: rest))
    {o : EffectOperation} (hfresh : ∀ o' ∈ l.operations, o'.id ≠ o.id) (ho : InsertedFor a o)
    (events : List EffectEvent) :
    Insertable { l with operations := o :: l.operations, events := events } rest where
  effects := by
    have hnew : Effects.Inv { l with operations := o :: l.operations } := by
      refine h.effects.cons hfresh (fun id hid => ?_) fun g hg hstanding hid => ?_
      · obtain rfl : a.2 = id := by simpa [ho.2] using hid
        exact h.charged a List.mem_cons_self
      · exact h.unused a List.mem_cons_self g hg hstanding (by simpa [ho.2] using hid)
    exact hnew.withGrants (List.forall₂_same.mpr fun g _ => .refl g) events
  charged b hb := h.charged b (List.mem_cons_of_mem a hb)
  unused b hb g hg hstanding hid o' ho' := by
    rcases List.mem_cons.mp ho' with rfl | ho'
    · rw [ho.2]
      intro heq
      exact (List.pairwise_cons.mp h.apart).1 b hb g hg hstanding (Option.some.inj heq) hid
    · exact h.unused b (List.mem_cons_of_mem a hb) g hg hstanding hid o' ho'
  apart := (List.pairwise_cons.mp h.apart).2

theorem ensures_insertCleanupOperations (env : CleanupEnv) (actor : Actor) {t : CleanupTables}
    {authorized : List (EffectCheckInput × EffectGrantId)} (k : ℕ)
    (h : Insertable t.effects authorized) :
    Tx.Ensures t (insertCleanupOperations env actor k authorized) fun rows t' =>
      Inserted t authorized rows t' := by
  induction authorized generalizing k t with
  | nil => exact ⟨h.effects, rfl, rfl, rfl, .nil⟩
  | cons a rest ih =>
    unfold insertCleanupOperations insertCleanupOperation
    refine Tx.Ensures.bind (P := fun _ t' => Insertable t'.effects rest ∧
        (∃ o, InsertedFor a o ∧ o = a.1.operation (env.operationIds k) (some a.2) env.effects.now ∧
          t'.effects.operations = o :: t.effects.operations) ∧
        t'.effects.grants = t.effects.grants ∧ t' = { t with effects := t'.effects })
      (Tx.Ensures.get (Tx.Ensures.require fun hfree => ?_)) fun _ t₁ h₁ => ?_
    · refine ⟨h.cons (fun o ho => (hfree o ho).1) ⟨rfl, rfl⟩ _, ⟨_, ⟨rfl, rfl⟩, rfl, rfl⟩, rfl, rfl⟩
    · obtain ⟨hrest, ⟨o, hfor, rfl, hops⟩, hgrants, hsame⟩ := h₁
      refine Tx.Ensures.bind (ih (k + 1) hrest) fun rows t₂ h₂ => ⟨h₂.effects, ?_, ?_, ?_, ?_⟩
      · rw [h₂.operations, hops, List.reverse_cons, List.append_assoc, List.singleton_append]
      · rw [h₂.grants, hgrants]
      · rw [h₂.rest, hsame]
      · exact .cons hfor h₂.rows

/-- **A reservation**: nothing was reserved before, every target has its operation,
and each operation a grant to which nothing had been charged. -/
structure CleanupReservation (fnmatchcase : String → String → Bool) (env : CleanupEnv)
    (actor : Actor) (t : CleanupTables) (c : CleanupCall) (t' : CleanupTables) : Prop where
  prior : t.operations = []
  requests : c.operationRows.map EffectOperation.request =
    t.preparation.preparedPrivate.map (t.preparation.cleanupRequest actor)
  operations : t'.effects.operations = c.operationRows.reverse ++ t.effects.operations
  authority : ∀ o ∈ c.operationRows, ∃ g, o.grantId = some g.id ∧
    CleanupGrant fnmatchcase env t o.request g ∧
    (g.standing = false → ∀ g' ∈ t'.effects.grants, g'.id = g.id → g'.consumedAt ≠ none)
  effects : Effects.Inv t'.effects
  preparation : ∃ receipts executionRequest,
    t'.preparation = t.preparation.reserve receipts executionRequest
  inventory : c.providerInventory = t.preparation.providerInventory
  entered : c.entered = false

/-- The grants that were decided on are there when the operations are inserted, and
the one-time grants among them are spent. -/
theorem Authorized.insertable {fnmatchcase : String → String → Bool} {env : CleanupEnv}
    {t t₁ : CleanupTables} {r : List (EffectCheckInput × EffectGrantId) × List EffectGrantId}
    (h : Authorized fnmatchcase env t [] r) (hinv : Effects.Inv t.effects) (hspent : Spent t r.2 t₁) :
    Insertable t₁.effects r.1 := by
  have hback : ∀ g' ∈ t₁.effects.grants, g'.standing = false →
      ∃ g ∈ t.effects.grants, g.id = g'.id ∧ g.standing = false := fun g' hg' hstanding => by
    obtain ⟨g, hg, hid, hs, _⟩ := Rows.exists_left hspent.grants hg'
    exact ⟨g, hg, hid.symm, hs ▸ hstanding⟩
  have hops : t₁.effects.operations = t.effects.operations := by
    rw [hspent.rest]
  refine ⟨?_, fun a ha => ?_, fun a ha g' hg' hstanding hid o ho hgrant => ?_, ?_⟩
  · rw [hspent.rest]
    exact hinv.withGrants hspent.grants t.effects.events
  · obtain ⟨g, hid, hgrant, hone⟩ := h.granted a ha
    obtain ⟨g', hg', hid', hs, _⟩ := Rows.exists_right hspent.grants hgrant.mem
    refine ⟨g', hg', hid'.trans hid, fun hstanding => hspent.spent g' hg' ?_⟩
    rw [hid']
    exact (hone (hs ▸ hstanding)).1
  · -- an operation under this grant would have spent it before
    obtain ⟨g, hid₁, hcleanup, _⟩ := h.granted a ha
    obtain ⟨g₀, hg₀, hid₀, hs₀⟩ := hback g' hg' hstanding
    obtain rfl : g = g₀ := Rows.eq_of_key hinv.grantIds hcleanup.mem hg₀
      (hid₁.trans (hid.trans hid₀.symm))
    rw [hops] at ho
    obtain ⟨g₂, hg₂, hid₂, hconsumed⟩ := hinv.charged o ho g'.id hgrant
    obtain rfl : g₂ = g := Rows.eq_of_key hinv.grantIds hg₂ hcleanup.mem (hid₂.trans hid₀.symm)
    exact hconsumed hs₀ hcleanup.unconsumed
  · refine h.apart.imp fun {a b} hab g' hg' hstanding hida hidb => ?_
    obtain ⟨g, hg, hid, hs⟩ := hback g' hg' hstanding
    exact hab g hg hs (hida.trans hid.symm) (hidb.trans hid.symm)

/-- **What `reserveCleanup` leaves.** -/
theorem ensures_reserveCleanup (fnmatchcase : String → String → Bool) (env : CleanupEnv)
    (actor : Actor) (attachmentId : AttachmentId) (request : ExecutePreparedCleanupInput)
    (receipts : List String) {t : CleanupTables} (hinv : Effects.Inv t.effects) :
    Tx.Ensures t (reserveCleanup fnmatchcase env actor attachmentId request receipts) fun r t' =>
      ∃ c, r = .reserved c ∧ CleanupReservation fnmatchcase env actor t c t' := by
  unfold reserveCleanup
  refine Tx.Ensures.get (Tx.Ensures.require fun hprior => ?_)
  refine Tx.Reads.bind (reads_authorizeItems fnmatchcase hinv.grantIds env actor t.preparation
    t.preparation.preparedPrivate []) fun a ha => ?_
  obtain ⟨hrequests, hauthorized⟩ := ha
  refine Tx.Ensures.bind (ensures_spendCleanupGrants env t a.2) fun _ t₁ hspent => ?_
  refine Tx.Ensures.bind (ensures_insertCleanupOperations env actor 0
    (hauthorized.insertable hinv hspent)) fun rows t₂ hinserted => Tx.Ensures.modify ?_
  have hpreparation : t₂.preparation = t.preparation := by
    rw [hinserted.rest, hspent.rest]
  refine ⟨_, rfl, hprior, ?_, ?_, fun o ho => ?_, hinserted.effects,
    ⟨receipts, t.preparation.executionRequest attachmentId, ?_⟩, rfl, rfl⟩
  · rw [← hrequests, ← requests_of_inserted hinserted.rows]
  · show t₂.effects.operations = _
    rw [hinserted.operations, hspent.rest]
  · have ho : o ∈ rows := ho
    obtain ⟨b, hb, hfor⟩ := Rows.exists_left hinserted.rows ho
    obtain ⟨g, hid, hgrant, hone⟩ := hauthorized.granted b hb
    refine ⟨g, hfor.2.trans (congrArg some hid.symm), hfor.1 ▸ hgrant, fun hstanding g' hg' hid' => ?_⟩
    have hg₁ : g' ∈ t₁.effects.grants := hinserted.grants ▸ hg'
    exact hspent.spent g' hg₁ (hid' ▸ (hone hstanding).1)
  · show t₂.preparation.reserve _ _ = _
    rw [hpreparation]

end Reservation

/-! ## The operations of the preparation -/

section Operations

theorem cleanup_eq_of_request {o o' : EffectOperation} (h : o'.request = o.request) :
    o'.cleanup = o.cleanup := congrArg EffectCheckInput.cleanup h

/-- Whether an operation is bound to a preparation is written once. -/
theorem ofPreparation_congr {p p' : CleanupPreparation} {o o' : EffectOperation}
    (h : o'.request = o.request) (hid : p'.id = p.id) (hwork : p'.workItemId = p.workItemId)
    (hgeneration : p'.workGeneration = p.workGeneration) :
    o'.OfPreparation p' ↔ o.OfPreparation p := by
  unfold EffectOperation.OfPreparation
  rw [cleanup_eq_of_request h, hid, hwork, hgeneration]

theorem cleanupTarget_congr {o o' : EffectOperation} (h : o'.request = o.request) :
    o'.cleanupTarget = o.cleanupTarget := by
  unfold EffectOperation.cleanupTarget
  rw [cleanup_eq_of_request h, show o'.action = o.action from congrArg EffectCheckInput.action h]

/-- What a request reserves is bound to the preparation and has the target. -/
theorem of_cleanupRequest {p : CleanupPreparation} {actor : Actor} {i : InventoryItem}
    {o : EffectOperation} (h : o.request = p.cleanupRequest actor i) :
    o.OfPreparation p ∧ o.cleanupTarget = i.target := by
  have hcleanup : o.cleanup = (p.cleanupRequest actor i).cleanup := congrArg EffectCheckInput.cleanup h
  have haction : o.action = i.action := congrArg EffectCheckInput.action h
  constructor
  · unfold EffectOperation.OfPreparation
    rw [hcleanup]
    simp [CleanupPreparation.cleanupRequest]
  · unfold EffectOperation.cleanupTarget
    rw [hcleanup, haction]
    rfl

/-- What a step leaves of the sealed columns of the preparation. -/
structure CleanupPreparation.Sealed (p p' : CleanupPreparation) : Prop where
  id : p'.id = p.id
  workItemId : p'.workItemId = p.workItemId
  workGeneration : p'.workGeneration = p.workGeneration
  inventory : p'.inventory = p.inventory

theorem CleanupPreparation.Sealed.refl (p : CleanupPreparation) : p.Sealed p := ⟨rfl, rfl, rfl, rfl⟩

theorem CleanupPreparation.Sealed.enumerated {p p' : CleanupPreparation} (h : p.Sealed p') :
    p'.enumerated = p.enumerated := by
  unfold CleanupPreparation.enumerated CleanupPreparation.records
  rw [h.inventory]

theorem CleanupPreparation.Sealed.providerInventory {p p' : CleanupPreparation} (h : p.Sealed p') :
    p'.providerInventory = p.providerInventory := by
  unfold CleanupPreparation.providerInventory CleanupPreparation.records
  rw [h.inventory]

/-- **Exactly one operation for each enumerated target of the sealed inventory.** -/
structure OnePerTarget (t : CleanupTables) : Prop where
  distinct : (t.preparation.enumerated.map InventoryItem.target).Nodup
  each : (t.operations.map EffectOperation.cleanupTarget).Perm
    (t.preparation.enumerated.map InventoryItem.target)

/-- **Outcomes are written, and nothing else of the operations.** -/
theorem operations_of_sameReservation {t t' : CleanupTables}
    (h : List.Forall₂ Effects.SameReservation t.effects.operations t'.effects.operations)
    (hp : t.preparation.Sealed t'.preparation) :
    List.Forall₂ Effects.SameReservation t.operations t'.operations := by
  refine List.rel_filter (fun o o' hsame => ?_) h
  have hiff := ofPreparation_congr hsame.2.1 hp.id hp.workItemId hp.workGeneration
  simp [hiff]

theorem OnePerTarget.of_sameReservation {t t' : CleanupTables} (h : OnePerTarget t)
    (hops : List.Forall₂ Effects.SameReservation t.operations t'.operations)
    (hp : t.preparation.Sealed t'.preparation) : OnePerTarget t' where
  distinct := by
    rw [hp.enumerated]
    exact h.distinct
  each := by
    rw [hp.enumerated, Rows.map_eq_of_evolve (R := Effects.SameReservation)
      (fun _ _ hsame => (cleanupTarget_congr hsame.2.1).symm) hops]
    exact h.each

variable {fnmatchcase : String → String → Bool} {env : CleanupEnv} {actor : Actor}
  {t t' : CleanupTables} {c : CleanupCall}

theorem CleanupReservation.kept (h : CleanupReservation fnmatchcase env actor t c t') :
    t.preparation.Sealed t'.preparation := by
  obtain ⟨receipts, request, hp⟩ := h.preparation
  rw [hp]
  exact ⟨rfl, rfl, rfl, rfl⟩

/-- The operations of the preparation are those that were reserved. -/
theorem CleanupReservation.operations_eq (h : CleanupReservation fnmatchcase env actor t c t') :
    t'.operations = c.operationRows.reverse := by
  have hkept := h.kept
  have hrows : ∀ o ∈ c.operationRows, o.OfPreparation t'.preparation := fun o ho => by
    have hmem : o.request ∈ t.preparation.preparedPrivate.map (t.preparation.cleanupRequest actor) := by
      rw [← h.requests]
      exact List.mem_map_of_mem ho
    obtain ⟨i, _, hi⟩ := List.mem_map.mp hmem
    exact (ofPreparation_congr rfl hkept.id hkept.workItemId hkept.workGeneration).mpr
      (of_cleanupRequest hi.symm).1
  have hprior : t.effects.operations.filter
      (fun o => decide (o.OfPreparation t'.preparation)) = [] := by
    rw [← h.prior]
    refine List.filter_congr fun o _ => ?_
    have hiff : o.OfPreparation t'.preparation ↔ o.OfPreparation t.preparation :=
      ofPreparation_congr rfl hkept.id hkept.workItemId hkept.workGeneration
    simp [hiff]
  unfold CleanupTables.operations
  rw [h.operations, List.filter_append, hprior, List.append_nil, List.filter_eq_self]
  exact fun o ho => decide_eq_true (hrows o (List.mem_reverse.mp ho))

/-- **A reservation has one operation for each enumerated target.** -/
theorem CleanupReservation.onePerTarget (h : CleanupReservation fnmatchcase env actor t c t')
    (hexact : t.preparation.preparedPrivate = t.preparation.enumerated)
    (hdistinct : (t.preparation.preparedPrivate.map InventoryItem.target).Nodup) :
    OnePerTarget t' where
  distinct := by
    rw [h.kept.enumerated, ← hexact]
    exact hdistinct
  each := by
    have htargets : c.operationRows.map EffectOperation.cleanupTarget =
        t.preparation.preparedPrivate.map InventoryItem.target := by
      have hrequests : List.Forall₂ Eq (c.operationRows.map EffectOperation.request)
          (t.preparation.preparedPrivate.map (t.preparation.cleanupRequest actor)) := by
        rw [List.forall₂_eq_eq_eq]
        exact h.requests
      rw [List.forall₂_map_left_iff, List.forall₂_map_right_iff] at hrequests
      rw [← List.forall₂_eq_eq_eq, List.forall₂_map_left_iff, List.forall₂_map_right_iff]
      exact hrequests.imp fun _ _ ho => (of_cleanupRequest ho).2
    rw [h.operations_eq, h.kept.enumerated, ← hexact, ← htargets]
    exact (List.reverse_perm c.operationRows).map _

end Operations

/-! ## What the two transactions leave -/

section Transactions

theorem ensures_putCleanupAnswer (actor : Actor) (attachmentId : AttachmentId)
    (request : ExecutePreparedCleanupInput) (result : CleanupResult) (t : CleanupTables) :
    Tx.Ensures t (putCleanupAnswer actor attachmentId request result) fun _ t' =>
      ∃ answers, t' = { t with answers := answers } := by
  unfold putCleanupAnswer
  refine Tx.Ensures.ite (fun _ => ⟨t.answers, rfl⟩) fun _ => Tx.Ensures.get ?_
  cases t.answer? actor.id attachmentId request.idempotencyKey with
  | none => exact ⟨_, rfl⟩
  | some a =>
    unfold Tx.Ensures
    rw [Tx.wp_require]
    exact ⟨fun _ => ⟨t.answers, rfl⟩, fun _ => trivial⟩

/-- **What the first transaction leaves**, by what it ends with. -/
inductive CallLeaves (fnmatchcase : String → String → Bool) (env : CleanupEnv) (actor : Actor)
    (t : CleanupTables) : CleanupOutcome → CleanupTables → Prop where
  | answered (result : CleanupResult) (answers : List CleanupAnswer) :
      CallLeaves fnmatchcase env actor t (.answered result) { t with answers := answers }
  | resumed (receipts : List String) (result : CleanupResult) (answers : List CleanupAnswer)
      (reserved : t.preparation.cleanupExecutionRequestDigest ≠ none)
      (unexecuted : t.preparation.cleanupExecutedAt = none)
      (settled : ∀ o ∈ t.operations, o.Settled) :
      CallLeaves fnmatchcase env actor t (.answered result)
        { t with
          preparation := (t.preparation.preserved receipts).execute env.effects.now result
          answers := answers }
  | reserved (c : CleanupCall) (t' : CleanupTables)
      (unreserved : t.preparation.cleanupExecutionRequestDigest = none)
      (unexecuted : t.preparation.cleanupExecutedAt = none)
      (exact : t.preparation.preparedPrivate = t.preparation.enumerated)
      (distinct : (t.preparation.preparedPrivate.map InventoryItem.target).Nodup)
      (reservation : CleanupReservation fnmatchcase env actor t c t') :
      CallLeaves fnmatchcase env actor t (.reserved c) t'

variable (fnmatchcase : String → String → Bool) (env : CleanupEnv) (actor : Actor)
  (attachmentId : AttachmentId) (request : ExecutePreparedCleanupInput) (receipts : List String)
  {t : CleanupTables}

theorem ensures_answerExecuted :
    Tx.Ensures t (answerExecuted actor attachmentId request) fun r t' =>
      CallLeaves fnmatchcase env actor t r t' := by
  unfold answerExecuted
  refine Tx.Ensures.get (Tx.Ensures.require fun _ => ?_)
  refine Tx.Ensures.bind (ensures_putCleanupAnswer actor attachmentId request _ t) fun _ t' h => ?_
  obtain ⟨answers, rfl⟩ := h
  exact .answered _ answers

theorem ensures_resumeCleanup (hunexecuted : t.preparation.cleanupExecutedAt = none) :
    Tx.Ensures t (resumeCleanup env actor attachmentId request receipts) fun r t' =>
      CallLeaves fnmatchcase env actor t r t' := by
  unfold resumeCleanup
  refine Tx.Ensures.get (Tx.Ensures.require fun hdigest => Tx.Ensures.require fun hsettled => ?_)
  have hreserved : t.preparation.cleanupExecutionRequestDigest ≠ none := by
    rw [hdigest]
    exact Option.some_ne_none _
  refine Tx.Ensures.bind (P := fun _ t' => t' = { t with
      preparation := (t.preparation.preserved receipts).execute env.effects.now
        ⟨t.preparation.id, t.operations.length, receipts⟩ })
    (Tx.Ensures.when (fun _ => rfl) fun h => absurd hunexecuted h) fun _ t₁ h₁ => ?_
  refine Tx.Ensures.bind (ensures_putCleanupAnswer actor attachmentId request _ t₁) fun _ t' h => ?_
  obtain ⟨answers, rfl⟩ := h
  rw [h₁]
  exact .resumed receipts _ answers hreserved hunexecuted hsettled.2

theorem ensures_concludeReservation (hinv : Effects.Inv t.effects)
    (hexact : t.preparation.preparedPrivate = t.preparation.enumerated) :
    Tx.Ensures t (concludeReservation fnmatchcase env actor attachmentId request receipts)
      fun r t' => CallLeaves fnmatchcase env actor t r t' := by
  unfold concludeReservation
  refine Tx.Ensures.get (Tx.Ensures.ite (fun _ => ?_) fun hexecuted => ?_)
  · exact ensures_answerExecuted fnmatchcase env actor attachmentId request
  have hunexecuted : t.preparation.cleanupExecutedAt = none := by simpa using hexecuted
  refine Tx.Ensures.require fun hdistinct => Tx.Ensures.ite (fun _ => ?_) fun hdigest => ?_
  · exact ensures_resumeCleanup fnmatchcase env actor attachmentId request receipts hunexecuted
  · have hunreserved : t.preparation.cleanupExecutionRequestDigest = none := by simpa using hdigest
    refine (ensures_reserveCleanup fnmatchcase env actor attachmentId request receipts hinv).mono
      fun r t' h => ?_
    obtain ⟨c, rfl, hreservation⟩ := h
    exact .reserved c t' hunreserved hunexecuted hexact hdistinct hreservation

/-- **The first transaction answers, resumes or reserves.** -/
theorem ensures_executePreparedCleanup (hinv : Effects.Inv t.effects) :
    Tx.Ensures t (executePreparedCleanup fnmatchcase env actor request) fun r t' =>
      CallLeaves fnmatchcase env actor t r t' := by
  unfold executePreparedCleanup
  refine Tx.Reads.bind (reads_requireCao env.effects actor) fun _ _ => ?_
  refine Tx.Ensures.need fun attachmentId _ => ?_
  refine Tx.Reads.bind (reads_requireCleanupAuthority env actor attachmentId request) fun _ _ => ?_
  refine Tx.Reads.bind (reads_cleanupAnswer actor attachmentId request) fun cached _ => ?_
  cases cached with
  | some result => exact .answered result t.answers
  | none =>
    refine Tx.Ensures.get ?_
    refine Tx.Reads.bind (reads_preserveArtifacts env t.preparation) fun receipts _ => ?_
    refine Tx.Reads.bind (reads_verifyInventory env t.preparation) fun _ hexact => ?_
    exact ensures_concludeReservation fnmatchcase env actor attachmentId request receipts hinv hexact

/-- **What the second transaction leaves**: outcomes of the operations of the call,
all of them settled, and the preparation executed. -/
structure SettleLeaves (env : CleanupEnv) (c : CleanupCall) (t t' : CleanupTables) : Prop where
  reserved : t.preparation.cleanupExecutionRequestDigest = some c.executionRequest
  unexecuted : t.preparation.cleanupExecutedAt = none
  preparation : ∃ result, t'.preparation = t.preparation.execute env.effects.now result
  operations : List.Forall₂ Effects.SameReservation t.effects.operations t'.effects.operations
  grants : t'.effects.grants = t.effects.grants
  effects : Effects.Inv t'.effects
  settled : ∀ o ∈ t'.effects.operations, o.id ∈ c.operationRows.map EffectOperation.id → o.Settled

theorem CleanupReceipt.settled_of_status {r : CleanupReceipt} {status : EffectStatus}
    (h : r.status = some status) : status = .succeeded ∨ status = .notApplied := by
  unfold CleanupReceipt.status at h
  split at h
  · exact .inl (Option.some.inj h).symm
  · split at h
    · exact .inr (Option.some.inj h).symm
    · exact nomatch h

/-- The rounds that settle the operations, with the operations still to be settled. -/
structure Settling (rows : List EffectOperation) (t : CleanupTables) (rest : List EffectOperation)
    (t' : CleanupTables) : Prop where
  preparation : t'.preparation = t.preparation
  operations : List.Forall₂ Effects.SameReservation t.effects.operations t'.effects.operations
  grants : t'.effects.grants = t.effects.grants
  effects : Effects.Inv t'.effects
  settled : ∀ o ∈ t'.effects.operations, o.id ∈ rows.map EffectOperation.id →
    o.id ∈ rest.map EffectOperation.id ∨ o.Settled

/-- **One operation is settled.** Its row awaits the outcome, and no other row has
its identifier. -/
theorem ensures_settleOperation {rows rest : List EffectOperation} {t₀ : CleanupTables}
    (c : CleanupCall) (receipts : List CleanupReceipt) (o : EffectOperation)
    (h : Settling rows t₀ (o :: rest) t) :
    Tx.Ensures t (settleOperation env c receipts o) fun _ => Settling rows t₀ rest := by
  unfold settleOperation
  refine Tx.Ensures.need fun receipt _ => Tx.Ensures.need fun status hstatus => Tx.Ensures.get ?_
  refine Tx.Ensures.require fun hcount => ?_
  have hsame := Effects.SameReservation.update (EffectOperation.awaits o.id) env.effects.now
    ⟨status, receipt.providerEvidenceId⟩ t.effects.operations
  refine ⟨h.preparation, Rows.evolve_trans (R := Effects.SameReservation)
    (fun _ _ _ => Effects.SameReservation.trans) h.operations hsame, h.grants,
    h.effects.withOperations hsame _, fun o' ho' hid => ?_⟩
  obtain ⟨o₁, ho₁, rfl⟩ := Rows.mem_update.mp ho'
  by_cases hawaits : o₁.awaits o.id = true
  · rw [if_pos hawaits]
    exact .inr (receipt.settled_of_status hstatus)
  · rw [if_neg hawaits] at hid ⊢
    rcases h.settled o₁ ho₁ hid with hmem | hsettled
    · rcases List.mem_cons.mp hmem with heq | hmem
      · -- the row that awaits the outcome is the one row of the identifier
        obtain ⟨o₂, ho₂, hawaits₂⟩ := List.countP_pos_iff.mp
          (show 0 < Rows.rowcount (EffectOperation.awaits o.id) t.effects.operations by
            rw [hcount]
            exact Nat.one_pos)
        have hid₂ : o₂.id = o.id := (of_decide_eq_true hawaits₂).1
        obtain rfl := Rows.eq_of_key h.effects.operationIds ho₁ ho₂ (heq.trans hid₂.symm)
        exact absurd hawaits₂ hawaits
      · exact .inl hmem
    · exact .inr hsettled

theorem ensures_settleCleanup (hinv : Effects.Inv t.effects) (c : CleanupCall)
    (receipts : List CleanupReceipt) :
    Tx.Ensures t (settleCleanup env c receipts) fun _ => SettleLeaves env c t := by
  unfold settleCleanup
  refine Tx.Ensures.require fun _ => ?_
  have hloop : Tx.Ensures t (Tx.each (settleOperation env c receipts) c.operationRows)
      fun _ => Settling c.operationRows t [] :=
    Tx.wp_each_rest (I := Settling c.operationRows t) c.operationRows
      (fun o rest t₁ h₁ => ensures_settleOperation env c receipts o h₁)
      ⟨rfl, List.forall₂_same.mpr fun o _ => .refl o, rfl, hinv, fun o _ h => .inl h⟩
  refine Tx.Ensures.bind hloop fun _ t₁ h₁ => Tx.Ensures.get (Tx.Ensures.require fun hopen => ?_)
  rw [h₁.preparation] at hopen
  refine Tx.Ensures.set ((ensures_putCleanupAnswer c.actor c.attachmentId c.request _ _).mono
    fun _ t' h => ?_)
  obtain ⟨answers, rfl⟩ := h
  refine ⟨hopen.1, hopen.2, ⟨⟨t₁.preparation.id, receipts.length, c.preservationRows⟩, ?_⟩,
    h₁.operations, h₁.grants, h₁.effects,
    fun o ho hid => (h₁.settled o ho hid).resolve_left List.not_mem_nil⟩
  show t₁.preparation.execute _ _ = _
  rw [h₁.preparation]

end Transactions

/-! ## Every reachable state -/

namespace CloseCleanups

variable {fnmatchcase : String → String → Bool}

/-- The calls that have not entered the provider yet. -/
def waiting (s : CloseCleanups) : ℕ := s.calls.countP fun c => !c.entered

/-- Nothing has been reserved. -/
structure Unreserved (s : CloseCleanups) : Prop where
  digest : s.tables.preparation.cleanupExecutionRequestDigest = none
  unexecuted : s.tables.preparation.cleanupExecutedAt = none
  operations : s.tables.operations = []
  calls : s.calls = []
  entries : s.entries = []

/-- **The effects are reserved**: of the calls, at most one has entered the provider
or is going to, and every call carries all the operations. -/
structure Reserved (s : CloseCleanups) : Prop where
  digest : s.tables.preparation.cleanupExecutionRequestDigest ≠ none
  targets : OnePerTarget s.tables
  entered : s.entries.length + s.waiting ≤ 1
  inventory : ∀ items ∈ s.entries, items = s.tables.preparation.providerInventory
  calls : ∀ c ∈ s.calls, c.providerInventory = s.tables.preparation.providerInventory ∧
    ∀ o ∈ s.tables.operations, o.id ∈ c.operationRows.map EffectOperation.id

/-- **What holds in every reachable state.** -/
structure Inv (s : CloseCleanups) : Prop where
  effects : Effects.Inv s.tables.effects
  phase : s.Unreserved ∨ s.Reserved

/-- **The step reserved the effects**: under a grant for each of them that covers it
and that nothing had been charged to, and that is spent now if it is a one-time
grant. -/
def Reserves (fnmatchcase : String → String → Bool) (s : CloseCleanups) (e : Event)
    (s' : CloseCleanups) : Prop :=
  ∃ env actor request, e = .call env actor request ∧ s.tables.operations = [] ∧
    ∀ o ∈ s'.tables.operations, ∃ g, o.grantId = some g.id ∧
      CleanupGrant fnmatchcase env s.tables o.request g ∧
      (g.standing = false → ∀ g' ∈ s'.tables.effects.grants, g'.id = g.id → g'.consumedAt ≠ none)

/-- **What a step does to the cleanup.** -/
structure StepOnce (fnmatchcase : String → String → Bool) (s : CloseCleanups) (e : Event)
    (s' : CloseCleanups) : Prop where
  /-- Operations come into being with their authority and stay as reserved. -/
  operations : List.Forall₂ Effects.SameReservation s.tables.operations s'.tables.operations ∨
    Reserves fnmatchcase s e s'
  /-- The preparation is marked as executed once, with every effect settled. -/
  executed : s'.tables.preparation.cleanupExecutedAt = s.tables.preparation.cleanupExecutedAt ∨
    s.tables.preparation.cleanupExecutedAt = none ∧ OnePerTarget s'.tables ∧
      ∀ o ∈ s'.tables.operations, o.Settled
  /-- A call that raises in its first transaction changes nothing. -/
  failed : ∀ env actor request failure, e = .call env actor request →
    executePreparedCleanup fnmatchcase env actor request s.tables = .error failure → s' = s

/-- Nothing happened to the tables of the cleanup. -/
theorem StepOnce.of_tables {s s' : CloseCleanups} {e : Event} (h : s'.tables = s.tables)
    (hfailed : ∀ env actor request failure, e = .call env actor request →
      executePreparedCleanup fnmatchcase env actor request s.tables = .error failure → s' = s) :
    StepOnce fnmatchcase s e s' where
  operations := by
    rw [h]
    exact .inl (List.forall₂_same.mpr fun o _ => .refl o)
  executed := by
    rw [h]
    exact .inl rfl
  failed := hfailed

/-- What is reserved stays reserved while the calls only get fewer. -/
theorem Reserved.mono {s s' : CloseCleanups} (h : s.Reserved)
    (hops : List.Forall₂ Effects.SameReservation s.tables.operations s'.tables.operations)
    (hp : s.tables.preparation.Sealed s'.tables.preparation)
    (hdigest : s'.tables.preparation.cleanupExecutionRequestDigest ≠ none)
    (hcalls : s'.calls.Sublist s.calls) (hentries : s'.entries = s.entries) : s'.Reserved where
  digest := hdigest
  targets := h.targets.of_sameReservation hops hp
  entered := by
    have hfewer : s'.waiting ≤ s.waiting := hcalls.countP_le
    rw [hentries]
    exact le_trans (Nat.add_le_add_left hfewer _) h.entered
  inventory items hitems := by
    rw [hp.providerInventory]
    exact h.inventory items (hentries ▸ hitems)
  calls c hc := by
    obtain ⟨hinventory, hids⟩ := h.calls c (hcalls.subset hc)
    refine ⟨hp.providerInventory ▸ hinventory, fun o ho => ?_⟩
    obtain ⟨o₀, ho₀, hsame⟩ := Rows.exists_left hops ho
    rw [hsame.1]
    exact hids o₀ ho₀

/-- A step on the tables that keeps the reservations, in either phase. -/
theorem phase_mono {s s' : CloseCleanups} (h : s.Unreserved ∨ s.Reserved)
    (hops : List.Forall₂ Effects.SameReservation s.tables.operations s'.tables.operations)
    (hp : s'.tables.preparation = s.tables.preparation) (hcalls : s'.calls.Sublist s.calls)
    (hentries : s'.entries = s.entries) : s'.Unreserved ∨ s'.Reserved := by
  rcases h with h | h
  · refine .inl ⟨hp ▸ h.digest, hp ▸ h.unexecuted, ?_, ?_, hentries.trans h.entries⟩
    · rw [h.operations] at hops
      exact List.forall₂_nil_left_iff.mp hops
    · rw [h.calls] at hcalls
      exact List.sublist_nil.mp hcalls
  · refine .inr (h.mono hops ?_ (hp ▸ h.digest) hcalls hentries)
    rw [hp]
    exact .refl _

/-- **A caller about effects leaves the operations of the preparation as they were
reserved.** -/
theorem sameReservation_of_change {t : CleanupTables} {e : Effects.Event} {l : EffectLedger}
    (h : Effects.Change fnmatchcase t.effects e l) (hbeside : Beside t.preparation e) :
    List.Forall₂ Effects.SameReservation t.operations
      ({ t with effects := l } : CleanupTables).operations := by
  have hsame : ∀ operations, List.Forall₂ Effects.SameReservation t.effects.operations operations →
      l.operations = operations → List.Forall₂ Effects.SameReservation t.operations
        ({ t with effects := l } : CleanupTables).operations := fun operations hforall hl => by
    subst hl
    exact operations_of_sameReservation hforall (.refl _)
  have hrefl := List.forall₂_same.mpr fun (o : EffectOperation) (_ : o ∈ t.effects.operations) =>
    Effects.SameReservation.refl o
  cases h with
  | recorded _ events => exact hsame _ hrefl rfl
  | granted _ g events fresh => exact hsame _ hrefl rfl
  | revoked _ id events unused => exact hsame _ hrefl rfl
  | resolved env c id r events hc =>
    exact hsame _ (Effects.SameReservation.update _ env.now r _) rfl
  | started env actor request h =>
    -- the new operation is bound to another preparation, or to none
    have hother : ∀ grantId, ¬ (request.operation env.newId grantId env.now).OfPreparation
        t.preparation := fun grantId hof => by
      unfold EffectOperation.OfPreparation at hof
      obtain ⟨c, hc, hmatches⟩ := (Option.any_eq_true _ _).mp hof
      exact hbeside c hc (of_decide_eq_true hmatches).1
    have hops : ∃ grantId, l.operations =
        request.operation env.newId grantId env.now :: t.effects.operations := by
      rcases h.authority with ⟨_, _, hops⟩ | ⟨g, _, _, _, hops⟩
      · exact ⟨none, hops⟩
      · exact ⟨some g.id, hops⟩
    obtain ⟨grantId, hops⟩ := hops
    have hfilter : ({ t with effects := l } : CleanupTables).operations = t.operations := by
      show l.operations.filter _ = _
      rw [hops, List.filter_cons_of_neg (by simpa using hother grantId)]
      rfl
    rw [hfilter]
    exact List.forall₂_same.mpr fun o _ => .refl o

/-! ## One step -/

/-- **What a step keeps and does**, together: they are shown of each kind of step at
once. -/
def Keeps (fnmatchcase : String → String → Bool) (s : CloseCleanups) (e : Event)
    (s' : CloseCleanups) : Prop := Inv s' ∧ StepOnce fnmatchcase s e s'

/-- A step that leaves the tables alone and has calls that are fewer. -/
theorem Inv.of_fewer {s : CloseCleanups} (hs : Inv s) {calls : List CleanupCall}
    (hcalls : calls.Sublist s.calls) : Inv { s with calls := calls } where
  effects := hs.effects
  phase := phase_mono hs.phase (List.forall₂_same.mpr fun o _ => .refl o) rfl hcalls rfl

theorem keeps_of_failed {s : CloseCleanups} (hs : Inv s) (e : Event) :
    Keeps fnmatchcase s e s := ⟨hs, .of_tables rfl fun _ _ _ _ _ _ => rfl⟩

/-- The effects are reserved: what was unreserved has one call that may enter the
provider. -/
theorem keeps_of_reserved {s : CloseCleanups} (hs : Inv s) {env : CleanupEnv} {actor : Actor}
    {request : ExecutePreparedCleanupInput} {c : CleanupCall} {t' : CleanupTables}
    (hrun : executePreparedCleanup fnmatchcase env actor request s.tables = .ok (.reserved c, t'))
    (h : CallLeaves fnmatchcase env actor s.tables (.reserved c) t') :
    Keeps fnmatchcase s (.call env actor request) { s with tables := t', calls := c :: s.calls } := by
  cases h with
  | reserved _ _ hunreserved hunexecuted hexact hdistinct hreservation =>
    have hphase : s.Unreserved := hs.phase.resolve_right fun h => h.digest hunreserved
    obtain ⟨receipts, digest, hp⟩ := hreservation.preparation
    have htargets := hreservation.onePerTarget hexact hdistinct
    refine ⟨⟨hreservation.effects, .inr ?_⟩, .inr ?_, .inl ?_, fun env' actor' request' failure he hfail => ?_⟩
    · refine ⟨?_, htargets, ?_, fun items hitems => ?_, fun c' hc' => ?_⟩
      · show t'.preparation.cleanupExecutionRequestDigest ≠ none
        rw [hp]
        exact Option.some_ne_none _
      · show s.entries.length + (c :: s.calls).countP _ ≤ 1
        rw [hphase.entries, hphase.calls]
        simp [hreservation.entered]
      · rw [show s.entries = [] from hphase.entries] at hitems
        exact absurd hitems List.not_mem_nil
      · obtain rfl : c' = c := by simpa [hphase.calls] using hc'
        refine ⟨hreservation.inventory.trans hreservation.kept.providerInventory.symm, fun o ho => ?_⟩
        have ho : o ∈ t'.operations := ho
        rw [hreservation.operations_eq] at ho
        exact List.mem_map_of_mem (List.mem_reverse.mp ho)
    · refine ⟨env, actor, request, rfl, hreservation.prior, fun o ho => ?_⟩
      have ho : o ∈ t'.operations := ho
      rw [hreservation.operations_eq] at ho
      exact hreservation.authority o (List.mem_reverse.mp ho)
    · show t'.preparation.cleanupExecutedAt = _
      rw [hp]
      rfl
    · obtain ⟨rfl, rfl, rfl⟩ : env = env' ∧ actor = actor' ∧ request = request' := by
        simpa using he
      rw [hrun] at hfail
      exact nomatch hfail

/-- The call is answered, or it resumes a reservation whose effects are settled. -/
theorem keeps_of_answered {s : CloseCleanups} (hs : Inv s) {env : CleanupEnv} {actor : Actor}
    {request : ExecutePreparedCleanupInput} {result : CleanupResult} {t' : CleanupTables}
    (hrun : executePreparedCleanup fnmatchcase env actor request s.tables =
      .ok (.answered result, t'))
    (h : CallLeaves fnmatchcase env actor s.tables (.answered result) t') :
    Keeps fnmatchcase s (.call env actor request) { s with tables := t' } := by
  have hfailed : ∀ env' actor' request' failure,
      Event.call env actor request = .call env' actor' request' →
      executePreparedCleanup fnmatchcase env' actor' request' s.tables = .error failure →
        ({ s with tables := t' } : CloseCleanups) = s := fun env' actor' request' failure he hfail => by
    obtain ⟨rfl, rfl, rfl⟩ : env = env' ∧ actor = actor' ∧ request = request' := by simpa using he
    rw [hrun] at hfail
    exact nomatch hfail
  have hsame := List.forall₂_same.mpr fun (o : EffectOperation) (_ : o ∈ s.tables.operations) =>
    Effects.SameReservation.refl o
  cases h with
  | answered _ answers =>
    exact ⟨⟨hs.effects, phase_mono hs.phase hsame rfl (List.Sublist.refl _) rfl⟩, .inl hsame,
      .inl rfl, hfailed⟩
  | resumed receipts _ answers hreserved hunexecuted hsettled =>
    have hphase : s.Reserved := hs.phase.resolve_left fun h => hreserved h.digest
    have hreserved' : CloseCleanups.Reserved { s with tables :=
        { s.tables with
          preparation :=
            (s.tables.preparation.preserved receipts).execute env.effects.now result
          answers := answers } } :=
      hphase.mono hsame ⟨rfl, rfl, rfl, rfl⟩ hreserved (List.Sublist.refl _) rfl
    exact ⟨⟨hs.effects, .inr hreserved'⟩, .inl hsame,
      .inr ⟨hunexecuted, hreserved'.targets, hsettled⟩, hfailed⟩

/-- A call enters the provider: it is the one that was waiting. -/
theorem keeps_of_enter {s : CloseCleanups} (hs : Inv s) {c : CleanupCall} (hc : c ∈ s.calls)
    (hwaiting : c.entered = false) :
    Keeps fnmatchcase s (.enter c)
      { s with
        calls := { c with entered := true } :: s.calls.erase c
        entries := c.providerInventory :: s.entries } := by
  refine ⟨⟨hs.effects, ?_⟩, .of_tables rfl fun _ _ _ _ he => nomatch he⟩
  rcases hs.phase with h | h
  · rw [h.calls] at hc
    exact absurd hc List.not_mem_nil
  refine .inr ⟨h.digest, h.targets, ?_, fun items hitems => ?_, fun c' hc' => ?_⟩
  · have hperm : s.waiting = (c :: s.calls.erase c).countP fun c => !c.entered :=
      (List.perm_cons_erase hc).countP_eq _
    have hentered := h.entered
    rw [hperm, List.countP_cons_of_pos (by simp [hwaiting])] at hentered
    show (c.providerInventory :: s.entries).length +
      ({ c with entered := true } :: s.calls.erase c).countP _ ≤ 1
    rw [List.length_cons, List.countP_cons_of_neg (by simp)]
    omega
  · rcases List.mem_cons.mp hitems with rfl | hitems
    · exact (h.calls c hc).1
    · exact h.inventory items hitems
  · rcases List.mem_cons.mp hc' with rfl | hc'
    · exact h.calls c hc
    · exact h.calls c' (List.mem_of_mem_erase hc')

/-- The second transaction of a call settles every operation of the preparation. -/
theorem keeps_of_settled {s : CloseCleanups} (hs : Inv s) {env : CleanupEnv} {c : CleanupCall}
    {receipts : List CleanupReceipt} (hc : c ∈ s.calls) {t' : CleanupTables}
    (h : SettleLeaves env c s.tables t') :
    Keeps fnmatchcase s (.settle env c receipts)
      { s with tables := t', calls := s.calls.erase c } := by
  have hphase : s.Reserved := hs.phase.resolve_left fun h' => by
    rw [h'.calls] at hc
    exact absurd hc List.not_mem_nil
  obtain ⟨result, hp⟩ := h.preparation
  have hsealed : s.tables.preparation.Sealed t'.preparation := by
    rw [hp]
    exact ⟨rfl, rfl, rfl, rfl⟩
  have hops := operations_of_sameReservation h.operations hsealed
  have hreserved' : CloseCleanups.Reserved { s with tables := t', calls := s.calls.erase c } :=
    hphase.mono hops hsealed (by
      show t'.preparation.cleanupExecutionRequestDigest ≠ none
      rw [hp]
      exact hphase.digest) List.erase_sublist rfl
  refine ⟨⟨h.effects, .inr hreserved'⟩, .inl hops,
    .inr ⟨h.unexecuted, hreserved'.targets, fun o ho => ?_⟩, fun _ _ _ _ he => nomatch he⟩
  have ho : o ∈ t'.operations := ho
  refine h.settled o (List.mem_of_mem_filter ho) ?_
  obtain ⟨o₀, ho₀, hsame⟩ := Rows.exists_left hops ho
  rw [hsame.1]
  exact (hphase.calls c hc).2 o₀ ho₀

/-- **Every step keeps the invariant, and does to the cleanup what is said.** -/
theorem keeps_of_step {s s' : CloseCleanups} {e : Event} (hs : Inv s)
    (h : step fnmatchcase s e = some s') : Keeps fnmatchcase s e s' := by
  cases e with
  | call env actor request =>
    simp only [step] at h
    have hleaves := ensures_executePreparedCleanup fnmatchcase env actor request hs.effects
    split at h
    next =>
      obtain rfl := Option.some.inj h
      exact keeps_of_failed hs _
    next result t' hrun =>
      obtain rfl := Option.some.inj h
      exact keeps_of_answered hs hrun (hleaves.run hrun)
    next c t' hrun =>
      obtain rfl := Option.some.inj h
      exact keeps_of_reserved hs hrun (hleaves.run hrun)
  | enter c =>
    obtain ⟨hc, rfl⟩ := TransitionSystem.of_guarded h
    exact keeps_of_enter hs hc.1 hc.2
  | settle env c receipts =>
    obtain ⟨hc, rfl⟩ := TransitionSystem.of_guarded h
    unfold Tx.commit
    cases hrun : settleCleanup env c receipts s.tables with
    | ok r => exact keeps_of_settled hs hc.1 ((ensures_settleCleanup env hs.effects c receipts).run hrun)
    | error _ => exact ⟨hs.of_fewer List.erase_sublist, .of_tables rfl fun _ _ _ _ he => nomatch he⟩
  | crash c =>
    obtain ⟨hc, rfl⟩ := TransitionSystem.of_guarded h
    exact ⟨hs.of_fewer List.erase_sublist, .of_tables rfl fun _ _ _ _ he => nomatch he⟩
  | effect e =>
    simp only [step] at h
    obtain ⟨hbeside, h⟩ := Option.ite_none_right_eq_some.mp h
    obtain ⟨r, hr, rfl⟩ := Option.map_eq_some_iff.mp h
    have hchange := Effects.change_of_step hs.effects.grantIds hr
    have hsame := sameReservation_of_change hchange hbeside
    exact ⟨⟨hs.effects.of_change hchange, phase_mono hs.phase hsame rfl (List.Sublist.refl _) rfl⟩,
      .inl hsame, .inl rfl, fun _ _ _ _ he => nomatch he⟩

theorem inv_of_reachable {s : CloseCleanups} (hs : (system fnmatchcase).Reachable s) : Inv s := by
  refine TransitionSystem.Reachable.invariant (fun s h => ?_) (fun s e s' _ ih h => ?_) hs
  · exact ⟨h.effects, .inl ⟨h.unreserved, h.unexecuted, h.operations, h.calls, h.entries⟩⟩
  · exact (keeps_of_step ih h).1

/-- **What holds of a cleanup at any time.** -/
structure Once (s : CloseCleanups) : Prop where
  /-- The provider is entered at most once, with the records of the sealed inventory
  and only when every target is reserved. -/
  entered : s.entries.length ≤ 1 ∧
    ∀ items ∈ s.entries, items = s.tables.preparation.providerInventory ∧ OnePerTarget s.tables
  /-- There are no effects, or exactly one for each enumerated target. -/
  operations : s.tables.operations = [] ∨ OnePerTarget s.tables
  /-- No one-time grant is used twice. -/
  oneTime : s.tables.effects.operations.Pairwise fun o o' => ∀ g ∈ s.tables.effects.grants,
    g.standing = false → o.grantId = some g.id → o'.grantId ≠ some g.id

/-- **A prepared cleanup runs at most once, and on exactly the sealed inventory**: in
every state that any interleaving reaches, and with every step that it takes
then. -/
theorem cleanup_once {s : CloseCleanups} (hs : (system fnmatchcase).Reachable s) :
    Once s ∧ ∀ e s', (system fnmatchcase).step s e s' → StepOnce fnmatchcase s e s' := by
  have hinv := inv_of_reachable hs
  refine ⟨?_, fun e s' h => (keeps_of_step hinv h).2⟩
  rcases hinv.phase with h | h
  · refine ⟨⟨by simp [h.entries], fun items hitems => ?_⟩, .inl h.operations, hinv.effects.once⟩
    rw [h.entries] at hitems
    exact absurd hitems List.not_mem_nil
  · exact ⟨⟨le_trans (Nat.le_add_right _ _) h.entered,
      fun items hitems => ⟨h.inventory items hitems, h.targets⟩⟩, .inr h.targets, hinv.effects.once⟩

/-! ## A run -/

/-- A workspace that is to be deleted. -/
def sampleItem : InventoryItem where
  targetKind := "workspace"
  coverage := some "enumerated"
  targetFingerprint := "f1"
  action := "delete"
  executionDigest := "0000000000000000000000000000000000000000000000000000000000000000"
  rest := ""

/-- There are no logs. -/
def sampleNone : InventoryItem where
  targetKind := "log"
  coverage := some "not-applicable"
  targetFingerprint := ""
  action := ""
  executionDigest := ""
  rest := ""

def samplePreparation : CleanupPreparation where
  id := 1
  workItemId := 1
  workGeneration := 1
  finalAttempt := 1
  goalVersion := 1
  goalPacketDigest := .closeDecision 0 0
  taskPacketDigest := .closeDecision 0 0
  supervisorAttachmentId := 1
  supervisorAttachmentGeneration := 1
  artifacts := some []
  artifactManifestScope := "work_history_v1"
  inventory := some [sampleItem, sampleNone]
  inventoryDigest := [sampleItem, sampleNone]
  artifactPreservations := []
  artifactPreservationsDigest := []
  cleanupExecutionRequestDigest := none
  cleanupExecutionResult := none
  cleanupExecutedAt := none

/-- A one-time grant of the CAO. -/
def sampleGrant : EffectGrant where
  id := 1
  principalId := 1
  kind := .destructive
  targetPattern := "f1"
  actionPattern := "delete"
  contentDigest := ""
  argvDigest := ""
  workdirDigest := ""
  expiresAt := .never
  standing := false
  consumedAt := none
  createdAt := 0

def sampleWork : Work where
  supervisorId := 1
  supervisorAttachmentId := some 1
  requesterId := none
  assignedWorkerId := 2
  state := .waitingReview
  attentionOwner := .cao
  generation := 1
  goalVersion := 1
  suspendedByWorkItemId := none
  userNeededBoundaryId := none
  pausedBoundaryId := none

def sampleAttempt : Attempt where
  number := 1
  workerId := 2
  runtimeSessionId := none
  goalVersion := 1
  goalPacketDigest := .closeDecision 0 0
  taskPacketDigest := .closeDecision 0 0
  state := .completed
  evidenceConfidence := .verified

def sampleEnv : CleanupEnv where
  effects := ⟨5, 0, fun _ => true, fun _ => true, .ok ⟨⟩, fun _ _ => none⟩
  operationIds := fun k => 10 + k
  attachmentCurrent := .ok ⟨⟩
  work := some sampleWork
  workActor := .ok ⟨⟩
  attempt := some sampleAttempt
  closeAuthority := .ok ⟨⟩
  runtimeTerminal := .ok ⟨⟩
  artifactRows := []
  deliveryReady := .ok ⟨⟩
  claimedRows := none
  preserve := fun _ => some []
  receiptsVerified := fun _ => true
  frozen := some ⟨[sampleItem, sampleNone], by decide⟩

def sampleActor : Actor := ⟨1, .cao, some 1, 1⟩

/-- The preparation is sealed and its grant is given. -/
def sample : CloseCleanups where
  tables := ⟨⟨[sampleGrant], [], []⟩, samplePreparation, [], []⟩
  calls := []
  callers := []
  entries := []

/-- The call that reserved the workspace. -/
def sampleCall : CleanupCall where
  actor := sampleActor
  attachmentId := 1
  request := ⟨1, "k"⟩
  executionRequest := ⟨1, 1, 1⟩
  providerInventory := [sampleItem, sampleNone]
  operationRows :=
    [(samplePreparation.cleanupRequest sampleActor sampleItem).operation 10 (some 1) 5]
  preservationRows := []
  entered := false

def sampleEvents : List Event :=
  [.call sampleEnv sampleActor ⟨1, "k"⟩, .enter sampleCall,
    .settle sampleEnv { sampleCall with entered := true }
      [⟨"workspace", "f1", "delete", "succeeded", "e1", ""⟩]]

/-- The sample run. -/
def sampleRun : Option CloseCleanups :=
  TransitionSystem.replay (step fun value pattern => decide (value = pattern)) sample sampleEvents

theorem sample_run : (sampleRun.any fun s => decide (s.entries.length = 1 ∧
  s.tables.preparation.cleanupExecutedAt = some 5 ∧ s.tables.operations.length = 1)) = true := by
  decide +kernel

theorem sample_initial : Initial sample := by
  refine ⟨⟨by decide, by decide, fun o ho => (nomatch ho), List.Pairwise.nil⟩, rfl, rfl, rfl, rfl, rfl⟩

/-- The workspace of the sample is removed once. -/
theorem cleanup_once_sample : ∃ s : CloseCleanups, s.entries.length = 1 ∧
    s.tables.preparation.cleanupExecutedAt = some 5 ∧ s.tables.operations.length = 1 ∧ Once s := by
  obtain ⟨s, hs, h⟩ := (Option.any_eq_true _ _).mp sample_run
  obtain ⟨hentries, hexecuted, hoperations⟩ := of_decide_eq_true h
  exact ⟨s, hentries, hexecuted, hoperations,
    (cleanup_once (TransitionSystem.Reachable.replay sampleEvents
      (TransitionSystem.Reachable.of_init sample_initial) hs)).1⟩

end CloseCleanups
