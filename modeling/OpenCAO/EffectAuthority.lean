import OpenCAO.Effects

/-!
# One reservation at a time, one operation per grant

Two things are wanted of the effect tables. An effect whose outcome is
open is not reserved again, and an outcome that is known stays what it is.
A one-time grant pays for one operation, and every operation beyond the
machine itself was paid for.

The second holds in every run: `start_effect` decides, charges and inserts
in one transaction, and a grant that an operation refers to cannot be
deleted. The first holds as long as no `resolve_effect` writes over an
outcome that another caller wrote after it had read. The transaction does
not look again, although the sibling path that settles prepared cleanups
does.
-/

namespace Effects

variable {fnmatchcase : String → String → Bool}

/-! ## The tables in every reachable state -/

/-- What grants and operations have to do with each other. -/
structure Inv (t : EffectLedger) : Prop where
  grantIds : (t.grants.map EffectGrant.id).Nodup
  operationIds : (t.operations.map EffectOperation.id).Nodup
  charged : ∀ o ∈ t.operations, ∀ id, o.grantId = some id →
    ∃ g ∈ t.grants, g.id = id ∧ (g.standing = false → g.consumedAt ≠ none)
  once : t.operations.Pairwise fun o o' => ∀ g ∈ t.grants, g.standing = false →
    o.grantId = some g.id → o'.grantId ≠ some g.id

/-- What charging a grant may change of it. -/
def ChargedTo (g g' : EffectGrant) : Prop :=
  g'.id = g.id ∧ g'.standing = g.standing ∧ (g.consumedAt ≠ none → g'.consumedAt ≠ none)

theorem ChargedTo.refl (g : EffectGrant) : ChargedTo g g := ⟨rfl, rfl, id⟩

theorem charge_grants (t : EffectLedger) (now : Instant) (g : EffectGrant) :
    List.Forall₂ ChargedTo t.grants (t.charge now g).grants := by
  unfold EffectLedger.charge
  split
  next =>
    have hconsume : ∀ g' : EffectGrant, ChargedTo g' (g'.consume now) := fun g' =>
      ⟨rfl, rfl, fun _ => Option.some_ne_none now⟩
    exact Rows.evolve_update ChargedTo.refl (fun g' _ => hconsume g') t.grants
  next => exact List.forall₂_same.mpr fun g _ => .refl g

/-- A charged one-time grant is spent. -/
theorem spent_of_charge {t : EffectLedger} {now : Instant} {g : EffectGrant} (hg : g ∈ t.grants) :
    ∃ g' ∈ (t.charge now g).grants, g'.id = g.id ∧ (g'.standing = false → g'.consumedAt ≠ none) := by
  unfold EffectLedger.charge
  split
  next =>
    refine ⟨g.consume now, Rows.mem_update_of hg (by simp), rfl, fun _ => ?_⟩
    rw [EffectGrant.consume_consumedAt]
    exact Option.some_ne_none now
  next hstanding => exact ⟨g, hg, rfl, fun h => absurd h hstanding⟩

/-- Rows of grants that were at most charged. -/
theorem Inv.withGrants {t : EffectLedger} (ht : Inv t) {grants : List EffectGrant}
    (h : List.Forall₂ ChargedTo t.grants grants) (events : List EffectEvent) :
    Inv ⟨grants, t.operations, events⟩ where
  grantIds := by
    rw [Rows.map_eq_of_evolve (R := ChargedTo) (fun _ _ h => h.1.symm) h]
    exact ht.grantIds
  operationIds := ht.operationIds
  charged o ho id hid := by
    obtain ⟨g, hg, hgid, hspent⟩ := ht.charged o ho id hid
    obtain ⟨g', hg', hid', hstanding, hconsumed⟩ := Rows.exists_right h hg
    exact ⟨g', hg', hid'.trans hgid, fun hs => hconsumed (hspent (hstanding ▸ hs))⟩
  once := ht.once.imp fun {o o'} hoo' g' hg' hstanding ho => by
    obtain ⟨g, hg, hid, hs, _⟩ := Rows.exists_left h hg'
    rw [hid] at ho ⊢
    exact hoo' g hg (hs ▸ hstanding) ho

/-- **An operation joins under a grant that no operation was charged to**,
unless the grant is standing. -/
theorem Inv.cons {t : EffectLedger} (ht : Inv t) {o : EffectOperation}
    (hfresh : ∀ o' ∈ t.operations, o'.id ≠ o.id)
    (hcharged : ∀ id, o.grantId = some id →
      ∃ g ∈ t.grants, g.id = id ∧ (g.standing = false → g.consumedAt ≠ none))
    (hunused : ∀ g ∈ t.grants, g.standing = false → o.grantId = some g.id →
      ∀ o' ∈ t.operations, o'.grantId ≠ some g.id) :
    Inv { t with operations := o :: t.operations } where
  grantIds := ht.grantIds
  operationIds := by
    rw [List.map_cons, List.nodup_cons]
    refine ⟨fun hmem => ?_, ht.operationIds⟩
    obtain ⟨o', ho', hid⟩ := List.mem_map.mp hmem
    exact hfresh o' ho' hid
  charged := by
    intro o' ho' id hid
    rcases List.mem_cons.mp ho' with rfl | ho'
    · exact hcharged id hid
    · exact ht.charged o' ho' id hid
  once := List.pairwise_cons.mpr
    ⟨fun o' ho' g hg hstanding ho => hunused g hg hstanding ho o' ho', ht.once⟩

/-- What may become of an operation: its request and its grant are written
once. -/
def SameReservation (o o' : EffectOperation) : Prop :=
  o'.id = o.id ∧ o'.request = o.request ∧ o'.grantId = o.grantId

theorem SameReservation.refl (o : EffectOperation) : SameReservation o o := ⟨rfl, rfl, rfl⟩

theorem SameReservation.trans {a b c : EffectOperation} (hab : SameReservation a b)
    (hbc : SameReservation b c) : SameReservation a c :=
  ⟨hbc.1.trans hab.1, hbc.2.1.trans hab.2.1, hbc.2.2.trans hab.2.2⟩

/-- Outcomes are written in place. -/
theorem SameReservation.update (p : EffectOperation → Bool) (now : Instant)
    (r : EffectResolveInput) (operations : List EffectOperation) :
    List.Forall₂ SameReservation operations
      (Rows.update p (EffectOperation.resolve now r) operations) :=
  Rows.evolve_update SameReservation.refl (f := EffectOperation.resolve now r)
    (fun _ _ => ⟨rfl, rfl, rfl⟩) operations

/-- Rows of operations whose outcomes were written. -/
theorem Inv.withOperations {t : EffectLedger} (ht : Inv t) {operations : List EffectOperation}
    (h : List.Forall₂ SameReservation t.operations operations) (events : List EffectEvent) :
    Inv ⟨t.grants, operations, events⟩ where
  grantIds := ht.grantIds
  operationIds := by
    rw [Rows.map_eq_of_evolve (R := SameReservation) (fun _ _ h => h.1.symm) h]
    exact ht.operationIds
  charged o ho id hid := by
    obtain ⟨o₀, ho₀, hsame⟩ := Rows.exists_left h ho
    exact ht.charged o₀ ho₀ id (hsame.2.2 ▸ hid)
  once := by
    have hgrants : operations.map EffectOperation.grantId =
        t.operations.map EffectOperation.grantId :=
      Rows.map_eq_of_evolve (R := SameReservation) (fun _ _ h => h.2.2.symm) h
    have hbefore : (t.operations.map EffectOperation.grantId).Pairwise fun a b =>
        ∀ g ∈ t.grants, g.standing = false → a = some g.id → b ≠ some g.id :=
      List.pairwise_map.mpr ht.once
    rw [← hgrants] at hbefore
    exact List.pairwise_map.mp hbefore

theorem Inv.of_reservation {t t' : EffectLedger} (ht : Inv t) {env : EffectEnv} {actor : Actor}
    {request : EffectCheckInput} (h : Reservation fnmatchcase env actor request t t') : Inv t' := by
  obtain ⟨grants, operations, events⟩ := t'
  rcases h.authority with ⟨_, hgrants, hops⟩ | ⟨g, hg, hauthorizes, hgrants, hops⟩
  · have hnew : Inv { t with operations := request.operation env.newId none env.now :: t.operations } :=
      ht.cons h.fresh (fun id hid => nomatch hid) fun g _ _ hid => nomatch hid
    obtain rfl : grants = t.grants := hgrants
    obtain rfl : operations = _ := hops
    exact hnew.withGrants (List.forall₂_same.mpr fun g _ => .refl g) events
  · obtain rfl : grants = (t.charge env.now g).grants := hgrants
    obtain rfl : operations = _ := hops
    have hcharge := ht.withGrants (charge_grants t env.now g) events
    refine hcharge.cons h.fresh (fun id hid => ?_) fun g' hg' hstanding hid o' ho' ho'id => ?_
    · obtain rfl : g.id = id := by simpa [EffectCheckInput.operation] using hid
      exact spent_of_charge hg
    · -- an operation under this grant would have spent it
      have hid : g.id = g'.id := by simpa [EffectCheckInput.operation] using hid
      obtain ⟨g₁, hg₁, hid₁, hspent⟩ := ht.charged o' ho' g'.id ho'id
      obtain rfl := Rows.eq_of_key ht.grantIds hg₁ hg (hid₁.trans hid.symm)
      obtain ⟨g₂, hg₂, hid₂, hstanding₂, _⟩ := Rows.exists_left (charge_grants t env.now g₁) hg'
      obtain rfl := Rows.eq_of_key ht.grantIds hg₂ hg₁ (hid₂.symm.trans hid.symm)
      have hone := hstanding₂.symm.trans hstanding
      exact hspent hone (hauthorizes.unspent hone)

/-- **Every change keeps the invariant.** -/
theorem Inv.of_change {t t' : EffectLedger} {e : Event} (ht : Inv t)
    (h : Change fnmatchcase t e t') : Inv t' := by
  cases h with
  | recorded _ events => exact ht.withGrants (List.forall₂_same.mpr fun g _ => .refl g) events
  | started env actor request h => exact ht.of_reservation h
  | granted _ g events fresh =>
    refine ⟨?_, ht.operationIds, fun o ho id hid => ?_, ?_⟩
    · rw [List.map_cons, List.nodup_cons]
      refine ⟨fun hmem => ?_, ht.grantIds⟩
      obtain ⟨g', hg', hid⟩ := List.mem_map.mp hmem
      exact fresh g' hg' hid
    · obtain ⟨g', hg', h⟩ := ht.charged o ho id hid
      exact ⟨g', List.mem_cons_of_mem _ hg', h⟩
    · refine List.Pairwise.imp_of_mem (fun {o o'} ho _ hoo' g' hg' hstanding hid => ?_) ht.once
      rcases List.mem_cons.mp hg' with rfl | hg'
      · obtain ⟨g₁, hg₁, hid₁, _⟩ := ht.charged o ho _ hid
        exact absurd hid₁ (fresh g₁ hg₁)
      · exact hoo' g' hg' hstanding hid
  | revoked _ id events unused =>
    have hsub : (t.grants.filter fun g => decide (g.id ≠ id)).Sublist t.grants :=
      List.filter_sublist
    refine ⟨ht.grantIds.sublist (hsub.map _), ht.operationIds, fun o ho id' hid => ?_, ?_⟩
    · obtain ⟨g, hg, hgid, hspent⟩ := ht.charged o ho id' hid
      refine ⟨g, List.mem_filter.mpr ⟨hg, ?_⟩, hgid, hspent⟩
      have : id' ≠ id := fun h => unused o ho (h ▸ hid)
      simpa [hgid] using this
    · exact ht.once.imp fun hoo' g hg => hoo' g (hsub.subset hg)
  | resolved env c id r events hc =>
    exact ht.withOperations (SameReservation.update _ env.now r t.operations) events

theorem inv_of_reachable {s : Effects} (hs : (system fnmatchcase).Reachable s) : Inv s.ledger := by
  refine TransitionSystem.Reachable.invariant (I := fun s => Inv s.ledger) (fun s h => ?_)
    (fun s e s' _ ih h => ?_) hs
  · rw [h.1]
    exact ⟨List.nodup_nil, List.nodup_nil, fun o ho => (nomatch ho), List.Pairwise.nil⟩
  · exact ih.of_change (change_of_step ih.grantIds h)

/-! ## What becomes of an operation -/

/-- **Operations are not lost, and their reservation stays.** -/
theorem reservation_of_change {t t' : EffectLedger} {e : Event} (h : Change fnmatchcase t e t')
    {o : EffectOperation} (ho : o ∈ t.operations) :
    ∃ o' ∈ t'.operations, SameReservation o o' := by
  cases h with
  | recorded _ events => exact ⟨o, ho, .refl o⟩
  | started env actor request h =>
    rcases h.authority with ⟨_, _, hops⟩ | ⟨_, _, _, _, hops⟩
    · exact ⟨o, hops ▸ List.mem_cons_of_mem _ ho, .refl o⟩
    · exact ⟨o, hops ▸ List.mem_cons_of_mem _ ho, .refl o⟩
  | granted _ g events fresh => exact ⟨o, ho, .refl o⟩
  | revoked _ id events unused => exact ⟨o, ho, .refl o⟩
  | resolved env c id r events hc =>
    exact Rows.exists_right (SameReservation.update _ env.now r t.operations) ho

/-- **A grant that an operation records is not lost**, and it stays a
one-time grant if it is one. -/
theorem grant_of_change {t t' : EffectLedger} {e : Event} (h : Change fnmatchcase t e t')
    {o : EffectOperation} (ho : o ∈ t.operations) {g : EffectGrant} (hg : g ∈ t.grants)
    (hgrant : o.grantId = some g.id) : ∃ g' ∈ t'.grants, ChargedTo g g' := by
  cases h with
  | recorded _ events => exact ⟨g, hg, .refl g⟩
  | started env actor request h =>
    rcases h.authority with ⟨_, hgrants, _⟩ | ⟨g₁, _, _, hgrants, _⟩
    · exact ⟨g, hgrants ▸ hg, .refl g⟩
    · rw [hgrants]
      exact Rows.exists_right (charge_grants t env.now g₁) hg
  | granted _ g₁ events fresh => exact ⟨g, List.mem_cons_of_mem _ hg, .refl g⟩
  | revoked _ id events unused =>
    have hid : g.id ≠ id := fun h => unused o ho (h ▸ hgrant)
    exact ⟨g, List.mem_filter.mpr ⟨hg, by simpa using hid⟩, .refl g⟩
  | resolved env c id r events hc => exact ⟨g, hg, .refl g⟩

/-- Operations, with their reservations and the grants they record, along a
run. -/
def ReservationsKept (t t' : EffectLedger) : Prop :=
  ∀ o ∈ t.operations, ∃ o' ∈ t'.operations, SameReservation o o' ∧
    ∀ g ∈ t.grants, o.grantId = some g.id → ∃ g' ∈ t'.grants, ChargedTo g g'

theorem reservationsKept_of_runs {s s' : Effects} (hs : (system fnmatchcase).Reachable s)
    (hrun : (system fnmatchcase).Runs s s') : ReservationsKept s.ledger s'.ledger := by
  refine TransitionSystem.Runs.lift (R := fun s s' : Effects => ReservationsKept s.ledger s'.ledger)
    (fun _ o ho => ⟨o, ho, .refl o, fun g hg _ => ⟨g, hg, .refl g⟩⟩)
    (fun {a b c} hab hbc o ho => ?_) (fun s e s' hs h o ho => ?_) hs hrun
  · obtain ⟨o₁, ho₁, h₁, hgrants₁⟩ := hab o ho
    obtain ⟨o₂, ho₂, h₂, hgrants₂⟩ := hbc o₁ ho₁
    refine ⟨o₂, ho₂, h₁.trans h₂, fun g hg hgrant => ?_⟩
    obtain ⟨g₁, hg₁, hid₁, hstanding₁, hspent₁⟩ := hgrants₁ g hg hgrant
    obtain ⟨g₂, hg₂, hid₂, hstanding₂, hspent₂⟩ :=
      hgrants₂ g₁ hg₁ (by rw [h₁.2.2, hid₁, hgrant])
    exact ⟨g₂, hg₂, hid₂.trans hid₁, hstanding₂.trans hstanding₁, fun h => hspent₂ (hspent₁ h)⟩
  · have hchange := change_of_step (inv_of_reachable hs).grantIds h
    obtain ⟨o', ho', hsame⟩ := reservation_of_change hchange ho
    exact ⟨o', ho', hsame, fun g hg hgrant => grant_of_change hchange ho hg hgrant⟩

/-- The outcome of a row of an identifier is written once: what is known of
it stays. -/
def OutcomeKept (t t' : EffectLedger) : Prop :=
  ∀ o ∈ t.operations, o.status.resolved = true →
    ∃ o' ∈ t'.operations, o'.id = o.id ∧ o'.status = o.status ∧ o'.evidence = o.evidence

/-- **The write transaction of a `resolve_effect` finds the outcome open**,
or it is the outcome it writes. -/
def FindsOpen (s : Effects) : Event → Prop
  | .write _ c => ∀ id r, c.pending = some (.resolve id r) → ∀ o ∈ s.ledger.operations,
      o.id = id → o.status.resolved = true → o.status = r.status ∧ o.evidence = r.evidence
  | _ => True

/-- **A step that finds the outcome open keeps the ones that are known.** -/
theorem outcomeKept_of_change {s : Effects} {t' : EffectLedger} {e : Event} (hopen : s.FindsOpen e)
    (h : Change fnmatchcase s.ledger e t') : OutcomeKept s.ledger t' := by
  intro o ho hresolved
  cases h with
  | recorded _ events => exact ⟨o, ho, rfl, rfl, rfl⟩
  | started env actor request h =>
    rcases h.authority with ⟨_, _, hops⟩ | ⟨_, _, _, _, hops⟩
    · exact ⟨o, hops ▸ List.mem_cons_of_mem _ ho, rfl, rfl, rfl⟩
    · exact ⟨o, hops ▸ List.mem_cons_of_mem _ ho, rfl, rfl, rfl⟩
  | granted _ g events fresh => exact ⟨o, ho, rfl, rfl, rfl⟩
  | revoked _ id events unused => exact ⟨o, ho, rfl, rfl, rfl⟩
  | resolved env c id r events hc =>
    by_cases hid : o.id = id
    · obtain ⟨hstatus, hevidence⟩ := hopen id r hc o ho hid hresolved
      exact ⟨o.resolve env.now r, Rows.mem_update_of ho (by simpa using hid), rfl,
        hstatus.symm, hevidence.symm⟩
    · exact ⟨o, Rows.mem_update_of_not ho (by simpa using hid), rfl, rfl, rfl⟩

/-- No two open operations have the same effect. -/
def OneOpen (t : EffectLedger) : Prop :=
  t.operations.Pairwise fun o o' =>
    o.status.resolved = false → o'.status.resolved = false → o.effect ≠ o'.effect

theorem oneOpen_of_change {s : Effects} {t' : EffectLedger} {e : Event} (hopen : s.FindsOpen e)
    (hs : OneOpen s.ledger) (h : Change fnmatchcase s.ledger e t') : OneOpen t' := by
  unfold OneOpen at *
  cases h with
  | recorded _ events => exact hs
  | started env actor request h =>
    have hnew : ∀ grantId, (request.operation env.newId grantId env.now ::
        s.ledger.operations).Pairwise fun o o' =>
          o.status.resolved = false → o'.status.resolved = false → o.effect ≠ o'.effect := by
      refine fun grantId => List.pairwise_cons.mpr ⟨fun o ho _ hstill heffect => ?_, hs⟩
      have := h.fenced o ho heffect.symm
      rw [hstill] at this
      exact absurd this (by decide)
    rcases h.authority with ⟨_, _, hops⟩ | ⟨_, _, _, _, hops⟩
    · rw [hops]
      exact hnew none
    · rw [hops]
      exact hnew _
  | granted _ g events fresh => exact hs
  | revoked _ id events unused => exact hs
  | resolved env c id r events hc =>
    show (List.map _ s.ledger.operations).Pairwise _
    rw [List.pairwise_map]
    -- a row that is open after the update was open before
    have hback : ∀ o ∈ s.ledger.operations,
        (if decide (o.id = id) = true then o.resolve env.now r else o).status.resolved = false →
          o.status.resolved = false := by
      intro o ho hafter
      by_cases hid : o.id = id
      · rw [if_pos (by simpa using hid), EffectOperation.resolve_status] at hafter
        by_contra hresolved
        obtain ⟨hstatus, _⟩ := hopen id r hc o ho hid (by simpa using hresolved)
        exact hresolved (hstatus ▸ hafter)
      · rwa [if_neg (by simpa using hid)] at hafter
    have heffect : ∀ o : EffectOperation,
        (if decide (o.id = id) = true then o.resolve env.now r else o).effect = o.effect :=
      fun o => by split <;> rfl
    refine List.Pairwise.imp_of_mem (fun {o o'} ho ho' hne h₁ h₂ => ?_) hs
    rw [heffect, heffect]
    exact hne (hback o ho h₁) (hback o' ho' h₂)

/-! ## The retry fence -/

/-- A list in which no two members meet `p` together has at most one that
does. -/
theorem length_filter_le_one {α : Type*} {p : α → Bool} {l : List α}
    (h : l.Pairwise fun a b => ¬ (p a = true ∧ p b = true)) : (l.filter p).length ≤ 1 := by
  have hpair : (l.filter p).Pairwise fun _ _ => False := by
    rw [List.pairwise_filter]
    exact h.imp fun hab ha hb => hab ⟨ha, hb⟩
  match hl : l.filter p with
  | [] => exact Nat.zero_le 1
  | [_] => exact le_refl 1
  | a :: b :: rest =>
    rw [hl] at hpair
    exact ((List.pairwise_cons.mp hpair).1 b List.mem_cons_self).elim

theorem oneOpen_of_reachable {s : Effects}
    (hs : ((system fnmatchcase).restrict FindsOpen).Reachable s) : OneOpen s.ledger := by
  refine TransitionSystem.Reachable.invariant (I := fun s => OneOpen s.ledger) (fun s h => ?_)
    (fun s e s' hr ih h => ?_) hs
  · rw [h.1]
    exact List.Pairwise.nil
  · have hinv := inv_of_reachable hr.of_restrict
    exact oneOpen_of_change h.1 ih (change_of_step hinv.grantIds h.2)

theorem outcomeKept_of_runs {s s' : Effects}
    (hs : ((system fnmatchcase).restrict FindsOpen).Reachable s)
    (hrun : ((system fnmatchcase).restrict FindsOpen).Runs s s') :
    OutcomeKept s.ledger s'.ledger := by
  refine TransitionSystem.Runs.lift (R := fun s s' : Effects => OutcomeKept s.ledger s'.ledger)
    (fun _ o ho _ => ⟨o, ho, rfl, rfl, rfl⟩) (fun {a b c} hab hbc o ho hresolved => ?_)
    (fun s e s' hr h => ?_) hs hrun
  · obtain ⟨o₁, ho₁, hid₁, hstatus₁, hevidence₁⟩ := hab o ho hresolved
    obtain ⟨o₂, ho₂, hid₂, hstatus₂, hevidence₂⟩ := hbc o₁ ho₁ (hstatus₁ ▸ hresolved)
    exact ⟨o₂, ho₂, hid₂.trans hid₁, hstatus₂.trans hstatus₁, hevidence₂.trans hevidence₁⟩
  · have hinv := inv_of_reachable hr.of_restrict
    exact outcomeKept_of_change h.1 (change_of_step hinv.grantIds h.2)

/-- **The retry fence.** In every run whose `resolve_effect` transactions find
the outcome open, an outcome that is known – it is found under the
identifier of its operation – never changes again, at most one operation of
an effect is open, and while one is, no other is reserved. -/
theorem effect_retry_fence {s : Effects}
    (hs : ((system fnmatchcase).restrict FindsOpen).Reachable s) :
    (∀ s', ((system fnmatchcase).restrict FindsOpen).Runs s s' → ∀ id o,
      s.ledger.operation? id = some o → o.status.resolved = true →
        ∃ o', s'.ledger.operation? id = some o' ∧ o'.status = o.status ∧ o'.evidence = o.evidence) ∧
    (∀ effect, (s.ledger.operations.filter fun o =>
      decide (o.effect = effect ∧ o.status.resolved = false)).length ≤ 1) ∧
    ∀ env actor request, (∃ o ∈ s.ledger.operations, o.effect = request.effect ∧
        o.status.resolved = false) →
      ∃ error, startEffect fnmatchcase env actor request s.ledger = .error error := by
  refine ⟨fun s' hrun id o ho hresolved => ?_, fun effect => ?_, fun env actor request hopen => ?_⟩
  · have hreach : ((system fnmatchcase).restrict FindsOpen).Reachable s' := by
      obtain ⟨s₀, h₀, hpre⟩ := hs
      exact ⟨s₀, h₀, hpre.trans hrun⟩
    have hmem : o ∈ s.ledger.operations := List.mem_of_find?_eq_some ho
    have hid : o.id = id := by simpa using List.find?_some ho
    obtain ⟨o', ho', hid', hstatus, hevidence⟩ := outcomeKept_of_runs hs hrun o hmem hresolved
    refine ⟨o', ?_, hstatus, hevidence⟩
    rw [← hid, ← hid']
    exact Rows.find?_key (inv_of_reachable hreach.of_restrict).operationIds ho'
  · refine length_filter_le_one ((oneOpen_of_reachable hs).imp fun {o o'} hne h => ?_)
    obtain ⟨⟨heffect, hopen⟩, heffect', hopen'⟩ := by simpa using h
    exact hne hopen hopen' (heffect.trans heffect'.symm)
  · obtain ⟨o, ho, heffect, hstill⟩ := hopen
    cases hrun : startEffect fnmatchcase env actor request s.ledger with
    | error error => exact ⟨error, rfl⟩
    | ok r =>
      have hids := (inv_of_reachable hs.of_restrict).grantIds
      have hfenced := (Tx.of_wp (wp_startEffect fnmatchcase env actor request hids) hrun).fenced
      rw [hfenced o ho heffect] at hstill
      exact absurd hstill (by decide)

/-- On patterns without special characters, `fnmatchcase` is equality. -/
def literally (value pattern : String) : Bool := decide (value = pattern)

/-- A moment at which every principal is enabled and no close is prepared. -/
def moment (now newId : ℕ) : EffectEnv where
  now := now
  newId := newId
  principalExists _ := true
  enabled _ := true
  callerCurrent := .ok ()
  preparation _ _ := none

/-- The Worker `5`. -/
def theWorker : Actor := ⟨5, .worker, none, 0⟩

/-- The CAO `7`. -/
def theCao : Actor := ⟨7, .cao, none, 0⟩

/-- A local effect of the Worker. -/
def theEffect : EffectCheckInput where
  principalId := 5
  kind := .local
  target := "file"
  action := "write"
  contentDigest := ""
  argvDigest := ""
  workdirDigest := ""
  cleanup := none

/-- The executor reports that the effect succeeded. -/
def success : EffectResolveInput := ⟨.succeeded, "exit_code=0"⟩

/-- Nothing granted, nothing reserved. -/
def empty : Effects := ⟨⟨[], [], []⟩, []⟩

/-- The effect is reserved, and its success is recorded. -/
def resolvedOnce : List Event :=
  [.start (moment 100 1) theWorker theEffect,
   .check (moment 101 0) theWorker (.resolve 1 success),
   .write (moment 102 0) ⟨theWorker, some (.resolve 1 success), []⟩]

/-- The fence holds where the outcome is recorded once: a reservation of the
same effect follows. -/
theorem effect_retry_fence_resolvedOnce :
    ∃ s, TransitionSystem.replay (step literally) empty resolvedOnce = some s ∧
      (s.ledger.operations.filter fun o =>
        decide (o.effect = theEffect.effect ∧ o.status.resolved = false)).length ≤ 1 := by
  have hstart : ((system literally).restrict FindsOpen).Reachable empty := .of_init ⟨rfl, rfl⟩
  have hreserved := hstart.next (e := Event.start (moment 100 1) theWorker theEffect)
    ⟨trivial, rfl⟩
  have hchecked := hreserved.next (e := Event.check (moment 101 0) theWorker (.resolve 1 success))
    ⟨trivial, rfl⟩
  have hresolved := hchecked.next
    (e := Event.write (moment 102 0) ⟨theWorker, some (.resolve 1 success), []⟩)
    ⟨by rintro id r ⟨⟩; decide, rfl⟩
  exact ⟨_, rfl, (effect_retry_fence hresolved).2.1 theEffect.effect⟩

/-- A recovery has read that the operation is started when its executor
records the success and reserves the effect again; then the recovery
writes. -/
def recoveredLate : List Event :=
  [.start (moment 100 1) theWorker theEffect, .recover theCao,
   .next (moment 101 0) ⟨theCao, none, [1]⟩,
   .check (moment 101 0) theWorker (.resolve 1 success),
   .write (moment 102 0) ⟨theWorker, some (.resolve 1 success), []⟩,
   .start (moment 103 2) theWorker theEffect,
   .write (moment 104 0) ⟨theCao, some (.resolve 1 incomplete), []⟩]

/-- **The late write opens a known outcome**, and two operations of one
effect are open. -/
theorem effect_reopened :
    (¬ ∀ s, (system literally).Reachable s → ∀ s', (system literally).Runs s s' → ∀ id o,
      s.ledger.operation? id = some o → o.status.resolved = true →
        ∃ o', s'.ledger.operation? id = some o' ∧ o'.status = o.status ∧
          o'.evidence = o.evidence) ∧
    ¬ ∀ s, (system literally).Reachable s → ∀ effect, (s.ledger.operations.filter fun o =>
      decide (o.effect = effect ∧ o.status.resolved = false)).length ≤ 1 := by
  have hstart : (system literally).Reachable empty := .of_init ⟨rfl, rfl⟩
  have hbefore := TransitionSystem.Reachable.replay (recoveredLate.take 6) hstart rfl
  have hlate := hbefore.next
    (e := Event.write (moment 104 0) ⟨theCao, some (.resolve 1 incomplete), []⟩) rfl
  refine ⟨fun h => ?_, fun h => ?_⟩
  · obtain ⟨o', ho', hstatus, _⟩ := h _ hbefore _ (.single
      ⟨Event.write (moment 104 0) ⟨theCao, some (.resolve 1 incomplete), []⟩, rfl⟩) 1 _ rfl rfl
    obtain rfl := Option.some.inj ho'
    exact absurd hstatus (by decide)
  · have := h _ hlate theEffect.effect
    revert this
    decide

/-! ## Exact authority -/

/-- **Where an operation comes from.** It was inserted by a `start_effect`
that committed in an earlier step, and unless it is local, a grant of that
moment authorized its request and is recorded on it. -/
def Authorized (fnmatchcase : String → String → Bool) (s : Effects) (o : EffectOperation) : Prop :=
  ∃ s₁ s₂ env actor, (system fnmatchcase).Reachable s₁ ∧
    (system fnmatchcase).step s₁ (.start env actor o.request) s₂ ∧
    (system fnmatchcase).Runs s₂ s ∧
    (∀ o' ∈ s₁.ledger.operations, o'.id ≠ o.id) ∧
    (∃ o' ∈ s₂.ledger.operations, SameReservation o' o) ∧
    (o.kind ≠ .local → ∃ g ∈ s₁.ledger.grants, o.grantId = some g.id ∧
      g.Authorizes fnmatchcase env.now o.request)

theorem Authorized.next {s s' : Effects} {o o' : EffectOperation} {e : Event}
    (h : Authorized fnmatchcase s o) (hstep : (system fnmatchcase).step s e s')
    (hsame : SameReservation o o') : Authorized fnmatchcase s' o' := by
  obtain ⟨s₁, s₂, env, actor, hs₁, hstart, hrun, hnew, ⟨o₂, ho₂, hid, hrequest, hgrant⟩, hauth⟩ := h
  have hkind : o'.kind = o.kind := congrArg EffectCheckInput.kind hsame.2.1
  refine ⟨s₁, s₂, env, actor, hs₁, hsame.2.1 ▸ hstart, hrun.tail ⟨e, hstep⟩, hsame.1 ▸ hnew,
    ⟨o₂, ho₂, hsame.1.trans hid, hsame.2.1.trans hrequest, hsame.2.2.trans hgrant⟩, ?_⟩
  rw [hkind, hsame.2.1, hsame.2.2]
  exact hauth

/-- **Every operation was authorized when it was reserved.** -/
theorem authorized_of_reachable {s : Effects} (hs : (system fnmatchcase).Reachable s) :
    ∀ o ∈ s.ledger.operations, Authorized fnmatchcase s o := by
  refine TransitionSystem.Reachable.invariant
    (I := fun s => ∀ o ∈ s.ledger.operations, Authorized fnmatchcase s o) (fun s h => ?_)
    (fun s e s' hr ih hstep o ho => ?_) hs
  · rw [h.1]
    exact fun o ho => nomatch ho
  have hchange := change_of_step (inv_of_reachable hr).grantIds hstep
  generalize hledger : s'.ledger = t' at hchange ho
  cases hchange with
  | recorded _ events => exact (ih o ho).next hstep (.refl o)
  | granted _ g events fresh => exact (ih o ho).next hstep (.refl o)
  | revoked _ id events unused => exact (ih o ho).next hstep (.refl o)
  | resolved env c id r events hc =>
    have hevolve := Rows.evolve_update (R := SameReservation) SameReservation.refl
      (p := fun o => decide (o.id = id)) (f := EffectOperation.resolve env.now r)
      (fun _ _ => ⟨rfl, rfl, rfl⟩) s.ledger.operations
    obtain ⟨o₀, ho₀, hsame⟩ := Rows.exists_left hevolve ho
    exact (ih o₀ ho₀).next hstep hsame
  | started env actor request h =>
    -- the new row, or one that was there
    have hcase : ∀ grantId, o ∈ request.operation env.newId grantId env.now ::
        s.ledger.operations → (request.kind ≠ .local → ∃ g ∈ s.ledger.grants,
          grantId = some g.id ∧ g.Authorizes fnmatchcase env.now request) →
        Authorized fnmatchcase s' o := by
      intro grantId hmem hauth
      rcases List.mem_cons.mp hmem with rfl | hold
      · exact ⟨s, s', env, actor, hr, hstep, .refl, h.fresh, ⟨_, hledger ▸ ho, .refl _⟩, hauth⟩
      · exact (ih o hold).next hstep (.refl o)
    rcases h.authority with ⟨hlocal, _, hops⟩ | ⟨g, hg, hauthorizes, _, hops⟩
    · exact hcase none (hops ▸ ho) fun hkind => absurd hlocal hkind
    · exact hcase _ (hops ▸ ho) fun _ => ⟨g, hg, rfl, hauthorizes⟩

/-- A `start_effect` that raises raises before its commit: the operation is
there when it is read back. -/
theorem ledger_of_startEffectCall {t : EffectLedger} (hids : (t.grants.map EffectGrant.id).Nodup)
    {env : EffectEnv} {actor : Actor} {request : EffectCheckInput} {error : EffectFailure}
    (h : (startEffectCall fnmatchcase env actor request t).1 = .error error) :
    (startEffectCall fnmatchcase env actor request t).2 = t := by
  unfold startEffectCall at h ⊢
  cases hrun : startEffect fnmatchcase env actor request t with
  | error e => rfl
  | ok r =>
    have hreservation := Tx.of_wp (wp_startEffect fnmatchcase env actor request hids) hrun
    have hfound : ∃ o, r.2.operation? env.newId = some o := by
      unfold EffectLedger.operation?
      rcases hreservation.authority with ⟨_, _, hops⟩ | ⟨_, _, _, _, hops⟩
      · rw [hops]
        exact ⟨_, List.find?_cons_of_pos (by simp [EffectCheckInput.operation])⟩
      · rw [hops]
        exact ⟨_, List.find?_cons_of_pos (by simp [EffectCheckInput.operation])⟩
    obtain ⟨o, ho⟩ := hfound
    rw [hrun] at h
    simp only [ho] at h
    exact nomatch h

/-- **Authority is exact.** In every reachable state a one-time grant is
recorded on at most one operation; along a run no operation is lost and the
grant it records neither goes nor becomes a standing one, so this counts
every operation there ever was. Every operation was reserved by a
`start_effect` in whose transaction the recorded grant authorized the
request. And a `start_effect` that raises leaves the tables as they were. -/
theorem effect_authority_exact {s : Effects} (hs : (system fnmatchcase).Reachable s) :
    (∀ g ∈ s.ledger.grants, g.standing = false →
      (s.ledger.operations.filter fun o => decide (o.grantId = some g.id)).length ≤ 1) ∧
    (∀ o ∈ s.ledger.operations, ∀ id, o.grantId = some id → ∃ g ∈ s.ledger.grants, g.id = id) ∧
    (∀ s', (system fnmatchcase).Runs s s' → ReservationsKept s.ledger s'.ledger) ∧
    (∀ o ∈ s.ledger.operations, Authorized fnmatchcase s o) ∧
    ∀ env actor request error,
      (startEffectCall fnmatchcase env actor request s.ledger).1 = .error error →
        (startEffectCall fnmatchcase env actor request s.ledger).2 = s.ledger := by
  have hinv := inv_of_reachable hs
  refine ⟨fun g hg hstanding => ?_, fun o ho id hid => ?_,
    fun s' hrun => reservationsKept_of_runs hs hrun, authorized_of_reachable hs, fun env actor request error h =>
      ledger_of_startEffectCall hinv.grantIds h⟩
  · refine length_filter_le_one (hinv.once.imp fun {o o'} hne h => ?_)
    obtain ⟨ho, ho'⟩ := by simpa using h
    exact hne g hg hstanding ho ho'
  · obtain ⟨g, hg, hgid, _⟩ := hinv.charged o ho id hid
    exact ⟨g, hg, hgid⟩

/-- The CAO grants the Worker one deletion of a file. -/
def theGrant : EffectGrantInput where
  principalId := 5
  kind := .destructive
  targetPattern := "file"
  actionPattern := "delete"
  contentDigest := ""
  argvDigest := ""
  workdirDigest := ""
  expiresAt := .instant 200
  standing := false

/-- The deletion is granted, and reserved under the grant. -/
def grantedOnce : List Event :=
  [.check (moment 100 0) theCao (.grant theGrant),
   .write (moment 100 1) ⟨theCao, some (.grant theGrant), []⟩,
   .start (moment 101 2) theWorker { theEffect with kind := .destructive, action := "delete" }]

/-- The one-time grant pays for the one operation. -/
theorem effect_authority_exact_grantedOnce :
    ∃ s, TransitionSystem.replay (step literally) empty grantedOnce = some s ∧
      (∃ g ∈ s.ledger.grants, g.standing = false ∧
        (s.ledger.operations.filter fun o => decide (o.grantId = some g.id)).length = 1) ∧
      ∀ o ∈ s.ledger.operations, Authorized literally s o := by
  have hstart : (system literally).Reachable empty := .of_init ⟨rfl, rfl⟩
  have hreached := TransitionSystem.Reachable.replay grantedOnce hstart rfl
  refine ⟨_, rfl, ⟨_, List.mem_cons_self, rfl, ?_⟩, (effect_authority_exact hreached).2.2.2.1⟩
  exact Nat.le_antisymm ((effect_authority_exact hreached).1 _ List.mem_cons_self rfl) (by decide)

end Effects
