import OpenCAO.Assignments
import OpenCAO.OpenBoundary

/-!
# One decision for each Boundary

A Boundary is decided at most once, and whoever decides it holds the only
lease on it. Three facts of the tables say so: no two dispositions are of one
Boundary, no Boundary is disposed and superseded, and no two leased turns
are of one Boundary or of one supervisor. Every write keeps them
(`Reviewed.write`), as what inserts a row looks first and nothing takes a
row away.

What a decision was made under is said by the program that makes it
(`ensures_disposeBoundary`). The same request asked for again is answered
with the decision that stands, any other request fails.

The answer is not free of effects. Before it looks anything up,
`dispose_boundary` reconciles the open recoveries, and a repetition does
too: it can supersede a recovery that a later one replaced and derive the
class of another anew (`Reconciled`), but nothing else.
-/

namespace WorkFile

open Tx

variable {f g : WorkFile}

/-! ## What the tables say -/

/-- Two turns that are not both leased, or are of different Boundaries and of
different supervisors. -/
def Apart (t u : ReasonerTurn) : Prop :=
  t.state = .leased → u.state = .leased →
    t.boundaryId ≠ u.boundaryId ∧ t.supervisorId ≠ u.supervisorId

/-- **Every Boundary is decided at most once.** -/
structure Reviewed (f : WorkFile) : Prop where
  /-- No two Boundaries have one identifier. -/
  boundaries : (f.boundaries.map (·.id)).Nodup
  /-- What was disposed was recorded. -/
  recorded : ∀ d ∈ f.dispositions, ∃ b ∈ f.boundaries, b.id = d.boundaryId
  /-- No two dispositions are of one Boundary. -/
  decided : (f.dispositions.map (·.boundaryId)).Nodup
  /-- No Boundary is disposed and superseded. -/
  exclusive : ∀ id, ¬ (f.Disposed id ∧ f.Superseded id)
  /-- At most one turn is leased for each Boundary, and for each supervisor. -/
  leased : f.turns.Pairwise Apart

/-- A turn that is of the same Boundary and supervisor, and leased only if it was before. -/
def Relieved (t u : ReasonerTurn) : Prop :=
  u.boundaryId = t.boundaryId ∧ u.supervisorId = t.supervisorId ∧
    (u.state = .leased → t.state = .leased)

theorem Relieved.refl (t : ReasonerTurn) : Relieved t t := ⟨rfl, rfl, fun h => h⟩

theorem Relieved.apart {t t' u u' : ReasonerTurn} (ht : Relieved t t') (hu : Relieved u u')
    (h : Apart t u) : Apart t' u' := by
  intro htl hul
  rw [ht.1, ht.2.1, hu.1, hu.2.1]
  exact h (ht.2.2 htl) (hu.2.2 hul)

/-- **Leases are only taken away.** -/
theorem pairwise_apart {ts us : List ReasonerTurn} (h : List.Forall₂ Relieved ts us)
    (hts : ts.Pairwise Apart) : us.Pairwise Apart := by
  induction h with
  | nil => exact .nil
  | cons htu hrest ih =>
    obtain ⟨hhead, htail⟩ := List.pairwise_cons.mp hts
    refine .cons (fun u' hu' => ?_) (ih htail)
    obtain ⟨u, hu, hrelieved⟩ := Rows.exists_left hrest hu'
    exact htu.apart hrelieved (hhead u hu)

theorem relieved_of_maybeAbandoned {ts us : List ReasonerTurn}
    (h : List.Forall₂ MaybeAbandoned ts us) : List.Forall₂ Relieved ts us := by
  refine h.imp fun t u htu => ?_
  rcases htu with rfl | rfl
  · exact .refl u
  · exact ⟨rfl, rfl, fun h => nomatch h⟩

theorem relieved_complete (id : TurnId) (result : Digest) (f : WorkFile) :
    List.Forall₂ Relieved f.turns (complete id result f).turns := by
  have hcompleted : ∀ t, Relieved t (completed result t) := fun t => ⟨rfl, rfl, fun h => nomatch h⟩
  exact Rows.evolve_update Relieved.refl (fun t _ => hcompleted t) _

/-! ## What every write keeps -/

/-- What decides nothing and leases nothing. -/
theorem Reviewed.of_eq (hf : Reviewed f) (hb : g.boundaries.map (·.id) = f.boundaries.map (·.id))
    (hd : g.dispositions = f.dispositions) (hs : g.supersessions = f.supersessions)
    (ht : List.Forall₂ Relieved f.turns g.turns) : Reviewed g where
  boundaries := by
    rw [hb]
    exact hf.boundaries
  recorded := by
    intro d hdg
    rw [hd] at hdg
    obtain ⟨b, hbf, hid⟩ := hf.recorded d hdg
    have hmem : b.id ∈ g.boundaries.map (·.id) := hb ▸ List.mem_map_of_mem hbf
    obtain ⟨c, hc, hcid⟩ := List.mem_map.mp hmem
    exact ⟨c, hc, hcid.trans hid⟩
  decided := by
    rw [hd]
    exact hf.decided
  exclusive := by
    unfold Disposed Superseded
    rw [hd, hs]
    exact hf.exclusive
  leased := pairwise_apart ht hf.leased

/-- What is left alone is as it was. -/
theorem Reviewed.of_same (hf : Reviewed f) (hb : g.boundaries = f.boundaries)
    (hd : g.dispositions = f.dispositions) (hs : g.supersessions = f.supersessions)
    (ht : g.turns = f.turns) : Reviewed g :=
  hf.of_eq (by rw [hb]) hd hs (by rw [ht]; exact List.forall₂_same.mpr fun t _ => .refl t)

theorem Reviewed.commanded (hf : Reviewed f) (hc : Commanded f g) : Reviewed g :=
  hf.of_eq (by rw [hc.boundaries]) hc.dispositions hc.supersessions
    (relieved_of_maybeAbandoned hc.turns)

theorem Reviewed.replaced (hf : Reviewed f) {m : Move} (hr : Replacement f m g) : Reviewed g := by
  cases hr
  rw [givenUp_eq]
  exact hf.of_same rfl rfl rfl rfl

theorem Reviewed.completed (hf : Reviewed f) (id : TurnId) (result : Digest) :
    Reviewed (complete id result f) :=
  hf.of_eq rfl rfl rfl (relieved_complete id result f)

/-- A decision on a Boundary that was open. -/
theorem Reviewed.decide (hf : Reviewed f) {d : BoundaryDisposition}
    (hd : DispositionInsertable d f) :
    Reviewed { f with dispositions := d :: f.dispositions } where
  boundaries := hf.boundaries
  recorded := by
    intro e he
    rcases List.mem_cons.mp he with rfl | he
    · exact hd.2.1
    · exact hf.recorded e he
  decided := by
    rw [List.map_cons, List.nodup_cons]
    refine ⟨fun hmem => ?_, hf.decided⟩
    obtain ⟨e, he, hid⟩ := List.mem_map.mp hmem
    exact hd.2.2.2.1 ⟨e, he, hid⟩
  exclusive := by
    rintro id ⟨⟨e, he, rfl⟩, hs⟩
    rcases List.mem_cons.mp he with rfl | he
    · exact hd.2.2.2.2 hs
    · exact hf.exclusive _ ⟨⟨e, he, rfl⟩, hs⟩
  leased := hf.leased

/-- A turn for a Boundary and a supervisor without a leased one. -/
theorem Reviewed.insertTurn (hf : Reviewed f) {env : Env} {t : ReasonerTurn}
    (ht : TurnInsertable env t f) : Reviewed { f with turns := t :: f.turns } where
  boundaries := hf.boundaries
  recorded := hf.recorded
  decided := hf.decided
  exclusive := hf.exclusive
  leased := .cons (fun u hu htl hul => by
    have hapart := ht.2.2.1 htl u hu hul
    exact ⟨Ne.symm hapart.1, Ne.symm hapart.2⟩) hf.leased

/-- A supersession of a Boundary that was open. -/
theorem Reviewed.supersede (hf : Reviewed f) {s : BoundarySupersession}
    (hs : SupersessionInsertable s f) :
    Reviewed { f with supersessions := s :: f.supersessions } where
  boundaries := hf.boundaries
  recorded := hf.recorded
  decided := hf.decided
  exclusive := by
    rintro id ⟨hd, ⟨e, he, rfl⟩⟩
    rcases List.mem_cons.mp he with rfl | he
    · exact hs.1.1 hd
    · exact hf.exclusive _ ⟨hd, ⟨e, he, rfl⟩⟩
  leased := hf.leased

theorem Reviewed.record (hf : Reviewed f) {env : Env} {b : Boundary}
    (hb : BoundaryInsertable env b f) : Reviewed { f with boundaries := b :: f.boundaries } where
  boundaries := by
    rw [List.map_cons, List.nodup_cons]
    refine ⟨fun hmem => ?_, hf.boundaries⟩
    obtain ⟨c, hc, hid⟩ := List.mem_map.mp hmem
    exact hb.1 c hc hid
  recorded := by
    intro d hd
    obtain ⟨c, hc, hid⟩ := hf.recorded d hd
    exact ⟨c, List.mem_cons_of_mem _ hc, hid⟩
  decided := hf.decided
  exclusive := hf.exclusive
  leased := hf.leased

/-- **Every write keeps a Boundary decided at most once.** -/
theorem Reviewed.write (hf : Reviewed f) {k : WriteKind} (hw : Write f k g) : Reviewed g := by
  cases hw with
  | message _ hsent => exact hf.commanded (.of_messaged hsent)
  | abandon p =>
    exact hf.of_eq rfl rfl rfl (relieved_of_maybeAbandoned (maybeAbandoned_abandon p f))
  | lease env b supervisorId id token expires key hb ht => exact hf.insertTurn ht
  | complete b t d => exact hf.completed _ _
  | decide b t d hb ht hd => exact hf.decide hd
  | giveUp b t d hb ht hdecided hd => exact (hf.completed _ _).decide hd
  | sealDecision env b d goalVersion now key hb hdb ht hd => exact (hf.insertTurn ht).decide hd
  | close env b d result now key hb hdb ht hd => exact (hf.insertTurn ht).decide hd
  | supersede s hs => exact hf.supersede hs
  | record env b a r ha hreports hdigest hrunning hb => exact hf.record hb
  | rederive env f₀ =>
    have hid : ∀ b, (rederived env f b).id = b.id := fun _ => rfl
    refine hf.of_eq (Rows.map_update (fun b _ => hid b) _) rfl rfl ?_
    exact List.forall₂_same.mpr fun t _ => .refl t
  | renew _ _ _ hr => exact hf.commanded (.of_renewal hr)
  | renewContinued _ _ _ _ _ _ hr hsent _ hc =>
    exact hf.commanded (((Commanded.of_renewal hr).trans (.of_messaged hsent)).trans
      (.of_consumption hc))
  | replace _ _ hr => exact hf.replaced hr
  | replaceContinued _ _ _ _ _ _ hr hsent _ hc =>
    exact (hf.replaced hr).commanded ((Commanded.of_messaged hsent).trans (.of_consumption hc))
  | reply a c g' _ _ _ hc =>
    exact (hf.commanded (.of_consumption hc)).of_same rfl rfl rfl rfl
  | _ => exact hf.of_same rfl rfl rfl rfl

/-! ## The reconciliation of recoveries -/

/-- The class of an open recovery was derived anew, or the Boundary is as it was. -/
def Reclassed (f : WorkFile) (b c : Boundary) : Prop :=
  c = b ∨ b ∈ f.openRecoveries ∧ ∃ action, c = { b with recoveryAction := action }

/-- The turn lost its lease because a later recovery replaced its Boundary, or it is as it
was. -/
def Displaced (supersessions : List BoundarySupersession) (t u : ReasonerTurn) : Prop :=
  u = t ∨ t.state = .leased ∧ u = abandoned t ∧ ∃ s ∈ supersessions,
    s.boundaryId = t.boundaryId ∧ s.reason = .recoveryBoundaryReplaced

/-- **The open recoveries were reconciled**, and nothing else was done. -/
structure Reconciled (f g : WorkFile) : Prop where
  rest : g = { f with
    boundaries := g.boundaries, turns := g.turns, supersessions := g.supersessions }
  boundaries : List.Forall₂ (Reclassed f) f.boundaries g.boundaries
  supersessions : ∃ replaced, g.supersessions = replaced ++ f.supersessions ∧ ∀ s ∈ replaced,
    s.reason = .recoveryBoundaryReplaced ∧ ∃ b ∈ f.openRecoveries, b.id = s.boundaryId
  turns : List.Forall₂ (Displaced g.supersessions) f.turns g.turns

theorem Displaced.mono {ss ss' : List BoundarySupersession} (hss : ss ⊆ ss') {t u : ReasonerTurn}
    (h : Displaced ss t u) : Displaced ss' t u := by
  rcases h with rfl | ⟨hleased, rfl, s, hs, hid⟩
  · exact .inl rfl
  · exact .inr ⟨hleased, rfl, s, hss hs, hid⟩

/-- Turns that lose their lease after others did. -/
theorem displaced_abandon {ss : List BoundarySupersession} {ts : List ReasonerTurn}
    (h : List.Forall₂ (Displaced ss) ts f.turns) {p : ReasonerTurn → Bool}
    (hp : ∀ t, p t = true → ∃ s ∈ ss, s.boundaryId = t.boundaryId ∧
      s.reason = .recoveryBoundaryReplaced) :
    List.Forall₂ (Displaced ss) ts (abandon p f).turns := by
  have hmore : List.Forall₂ (Displaced ss) f.turns (abandon p f).turns := by
    refine Rows.evolve_update (fun t => .inl rfl) (fun t ht => ?_) _
    simp only [Bool.and_eq_true, decide_eq_true_eq] at ht
    exact .inr ⟨ht.1, rfl, hp t ht.2⟩
  refine Rows.evolve_trans (fun t u v htu huv => ?_) h hmore
  rcases htu with rfl | ⟨hleased, rfl, hs⟩
  · exact huv
  · rcases huv with rfl | ⟨hu, -, -⟩
    · exact .inr ⟨hleased, rfl, hs⟩
    · cases hu

theorem mem_openRecoveries {b : Boundary} :
    b ∈ f.openRecoveries ↔ b ∈ f.boundaries ∧ f.Open b.id ∧ b.kind = .failure ∧ b.Recovering := by
  unfold openRecoveries
  rw [List.mem_filter, f.mem_openBoundaries, decide_eq_true_eq, and_assoc]

/-- What a later recovery replaced can be superseded. -/
theorem Reviewed.replaced_of_stale (hf : Reviewed f) {env : Env} {b : Boundary}
    (hb : b ∈ f.staleRecoveries env) :
    b ∈ f.openRecoveries ∧ ∃ c ∈ f.openRecoveries, c.id ≠ b.id ∧
      c.attemptNumber = b.attemptNumber ∧ c.generation = b.generation := by
  unfold staleRecoveries at hb
  rw [List.mem_filter, decide_eq_true_eq] at hb
  obtain ⟨hopen, hne, hall⟩ := hb
  refine ⟨hopen, ?_⟩
  cases hfind : f.canonicalRecovery? b.attemptNumber with
  | none =>
    have := List.find?_eq_none.mp hfind b hopen
    simp at this
  | some c =>
    have hc : c ∈ f.openRecoveries := List.mem_of_find?_eq_some hfind
    have hattempt : c.attemptNumber = b.attemptNumber := by simpa using List.find?_some hfind
    refine ⟨c, hc, fun hid => hne ?_, hattempt, (hall c hc hattempt).1⟩
    have hsame : c = b := Rows.eq_of_key hf.boundaries (mem_openRecoveries.mp hc).1
      (mem_openRecoveries.mp hopen).1 hid
    rw [hfind, hsame]

/-- What the reconciliation of `f` has done when some recoveries are still to be
superseded. -/
structure Reconciling (f : WorkFile) (rest : List Boundary) (g : WorkFile) : Prop where
  same : g = { f with turns := g.turns, supersessions := g.supersessions }
  supersessions : ∃ replaced, g.supersessions = replaced ++ f.supersessions ∧ ∀ s ∈ replaced,
    s.reason = .recoveryBoundaryReplaced ∧ ∃ b ∈ f.openRecoveries, b.id = s.boundaryId
  turns : List.Forall₂ (Displaced g.supersessions) f.turns g.turns
  distinct : (rest.map (·.id)).Nodup
  todo : ∀ b ∈ rest, g.Open b.id ∧ b ∈ f.openRecoveries ∧ ∃ c ∈ f.openRecoveries, c.id ≠ b.id ∧
    c.attemptNumber = b.attemptNumber ∧ c.generation = b.generation

/-- One recovery that was replaced is superseded. -/
theorem Reconciling.next {b : Boundary} {rest : List Boundary}
    (hg : Reconciling f (b :: rest) g) :
    wp (do
      insertSupersession ⟨b.id, .recoveryBoundaryReplaced⟩
      supersedeBoundaryDeliveries b.id)
      (fun _ => Reconciling f rest) (fun _ => False) g := by
  obtain ⟨hopen, hb, c, hc, hne, hattempt, hgeneration⟩ := hg.todo b List.mem_cons_self
  have hmem : ∀ a ∈ f.openRecoveries, a ∈ g.boundaries := fun a ha => by
    rw [hg.same]
    exact (mem_openRecoveries.mp ha).1
  obtain ⟨hfresh, hdistinct⟩ := List.nodup_cons.mp hg.distinct
  unfold insertSupersession supersedeBoundaryDeliveries
  rw [wp_bind, Tx.wp_statement]
  refine ⟨fun _ => ?_, fun hnot => hnot ⟨hopen, b, hmem b hb, rfl,
    (mem_openRecoveries.mp hb).2.2.2, c, hmem c hc, hne, hattempt, hgeneration,
    (mem_openRecoveries.mp hc).2.2.2⟩⟩
  rw [wp_abandonTurns]
  refine ⟨?_, ?_, ?_, hdistinct, fun a ha => ?_⟩
  · rw [hg.same]
    rfl
  · obtain ⟨replaced, heq, hall⟩ := hg.supersessions
    refine ⟨⟨b.id, .recoveryBoundaryReplaced⟩ :: replaced, ?_, fun s hs => ?_⟩
    · show _ :: g.supersessions = _
      rw [heq, List.cons_append]
    · rcases List.mem_cons.mp hs with rfl | hs
      · exact ⟨rfl, b, hb, rfl⟩
      · exact hall s hs
  · refine displaced_abandon (f := { g with
      supersessions := ⟨b.id, .recoveryBoundaryReplaced⟩ :: g.supersessions })
      (hg.turns.imp fun _ _ h => h.mono (List.subset_cons_self _ _)) fun t ht => ?_
    exact ⟨_, List.mem_cons_self, (of_decide_eq_true ht).symm, rfl⟩
  · obtain ⟨⟨hdisposed, hsuperseded⟩, hrest⟩ := hg.todo a (List.mem_cons_of_mem _ ha)
    refine ⟨⟨hdisposed, ?_⟩, hrest⟩
    rintro ⟨s, hs, hid⟩
    rcases List.mem_cons.mp hs with rfl | hs
    · exact hfresh (List.mem_map.mpr ⟨a, ha, hid.symm⟩)
    · exact hsuperseded ⟨s, hs, hid⟩

/-- **The reconciliation never fails.** -/
theorem Reviewed.reconciles (hf : Reviewed f) (env : Env) :
    wp (backfillRecoveryActions env) (fun _ g => Reconciled f g) (fun _ => False) f := by
  unfold backfillRecoveryActions
  rw [wp_bind, wp_get, wp_bind, wp_abandonTurns, wp_bind]
  have hstale : ((f.staleRecoveries env).map (·.id)).Nodup := by
    refine hf.boundaries.sublist (List.Sublist.map _ ?_)
    unfold staleRecoveries openRecoveries openBoundaries
    exact List.filter_sublist.trans (List.filter_sublist.trans List.filter_sublist)
  have hbegin : Reconciling f (f.staleRecoveries env) (abandon (fun t => ∃ s ∈ f.supersessions,
      s.boundaryId = t.boundaryId ∧ s.reason = .recoveryBoundaryReplaced) f) := by
    refine ⟨rfl, ⟨[], rfl, fun _ h => nomatch h⟩, ?_, hstale, fun b hb => ?_⟩
    · exact displaced_abandon (List.forall₂_same.mpr fun t _ => .inl rfl)
        fun t ht => of_decide_eq_true ht
    · obtain ⟨hopen, hreplaced⟩ := hf.replaced_of_stale hb
      exact ⟨(mem_openRecoveries.mp hopen).2.1, hopen, hreplaced⟩
  refine wp_mono (wp_each_rest _ (fun b rest g hg => hg.next) hbegin) (fun _ g hg => ?_)
    fun _ he => he
  rw [wp_bind, wp_get, wp_set]
  refine ⟨?_, ?_, hg.supersessions, hg.turns⟩
  · rw [hg.same]
  · have hboundaries : g.boundaries = f.boundaries := by rw [hg.same]
    show List.Forall₂ _ _ (rederive env f g)
    unfold rederive
    rw [hboundaries]
    refine Rows.evolve_update_of_mem (fun b => .inl rfl) fun b hb hany => .inr ⟨?_, _, rfl⟩
    obtain ⟨c, hc, hid⟩ := List.any_eq_true.mp hany
    have hsame : c = b := Rows.eq_of_key hf.boundaries (mem_openRecoveries.mp hc).1 hb
      (of_decide_eq_true hid)
    rw [← hsame]
    exact hc

section Reconciled

variable (hg : Reconciled f g)

include hg

theorem Reconciled.work : g.work = f.work := by rw [hg.rest]

theorem Reconciled.dispositions : g.dispositions = f.dispositions := by rw [hg.rest]

/-- A Boundary is what it was, but for its class. -/
theorem Reconciled.boundary {b : Boundary} (hb : b ∈ g.boundaries) :
    ∃ b₀ ∈ f.boundaries, ∃ action, b = { b₀ with recoveryAction := action } := by
  obtain ⟨b₀, hb₀, hclass⟩ := Rows.exists_left hg.boundaries hb
  rcases hclass with rfl | ⟨-, action, rfl⟩
  · exact ⟨b, hb₀, b.recoveryAction, rfl⟩
  · exact ⟨b₀, hb₀, action, rfl⟩

/-- Whoever holds a lease held it before. -/
theorem Reconciled.turn {t : ReasonerTurn} (ht : t ∈ g.turns) (hleased : t.state = .leased) :
    t ∈ f.turns := by
  obtain ⟨t₀, ht₀, hdisplaced⟩ := Rows.exists_left hg.turns ht
  rcases hdisplaced with rfl | ⟨-, rfl, -⟩
  · exact ht₀
  · cases hleased

theorem Reconciled.open_of {id : BoundaryId} (hopen : g.Open id) : f.Open id := by
  refine ⟨fun hd => hopen.1 ?_, fun hs => hopen.2 ?_⟩
  · unfold Disposed
    rw [hg.dispositions]
    exact hd
  · obtain ⟨s, hs, hid⟩ := hs
    obtain ⟨replaced, heq, -⟩ := hg.supersessions
    exact ⟨s, heq ▸ List.mem_append_right _ hs, hid⟩

end Reconciled

/-! ## Decisions -/

/-- **What a decision is made under**: the Boundary is open and of the current
generation of its Work, and the turn of the request is leased, not expired and bound to
exactly this Boundary, its generation and its packets, and the caller has its token. -/
def Fenced (env : Env) (actor : Actor) (id : BoundaryId) (r : BoundaryDispositionInput)
    (f : WorkFile) : Prop :=
  f.Open id ∧ r.expectedGeneration = f.work.generation ∧ ∃ b ∈ f.boundaries, b.id = id ∧
    b.generation = f.work.generation ∧ ∃ t ∈ f.turns, t.id = r.turnId ∧ OwnsBoundary env actor b r t

/-- The decision that a request makes. -/
def Decides (f : WorkFile) (id : BoundaryId) (r : BoundaryDispositionInput)
    (d : BoundaryDisposition) (g : WorkFile) : Prop :=
  g.dispositions = d :: f.dispositions ∧ d.boundaryId = id ∧ d.reasonerTurnId = r.turnId ∧
    d.requestDigest = .dispositionRequest r

/-- No decision is made or taken back. -/
def SameDecisions (f g : WorkFile) : Prop := g.dispositions = f.dispositions

theorem sameDecisions_supersedeBoundaries (p : Boundary → Bool) (reason : SupersessionReason) :
    Ensures f (supersedeBoundaries p reason) fun _ => SameDecisions f :=
  Ensures.mono (m := supersedeBoundaries p reason)
    (Makes.get (.each fun b _ _ => makes_supersede (S := reconciliations) (by decide) (by decide)
      b.id reason)) fun _ _ hg => dispositions_of_reconciled hg

theorem sameDecisions_message (env : Env) (r : MessageRequest) :
    Ensures f (message env r) fun _ => SameDecisions f :=
  wp_mono (wp_message env r) (fun _ _ hg => (Commanded.of_messaged hg.2).dispositions)
    fun _ _ => trivial

theorem sameDecisions_advance (number : ℕ) (u : Attempt → Attempt) (m : Move) :
    Ensures f (advance number u m) fun _ => SameDecisions f := by
  unfold advance move Ensures
  rw [wp_bind, wp_modify, Tx.wp_statement]
  exact ⟨fun _ => rfl, fun _ => trivial⟩

theorem ensures_decideBoundary (env : Env) (actor : Actor) (b : Boundary) {a : Attempt}
    (ha : a ∈ f.attempts) (htarget : ∀ m, Targets f m a.number) (review : Option Review)
    (r : BoundaryDispositionInput) :
    Ensures f (decideBoundary env actor b a review r) (Decides f b.id r) := by
  unfold decideBoundary insertDisposition
  refine Ensures.get ?_
  unfold Ensures
  rw [wp_bind, wp_newId, wp_bind, Tx.wp_statement]
  refine ⟨fun _ => ?_, fun _ => trivial⟩
  refine Ensures.bind (P := fun _ => SameDecisions _) (wp_mono (Commanded.of_makes
    (makes_applyDisposition env actor b (by exact ha) (by exact htarget) review r))
    (fun _ _ hg => hg.2.dispositions) fun _ he => he) fun _ g₁ h₁ => ?_
  refine Ensures.bind (P := fun _ => SameDecisions g₁) rfl fun _ g₂ h₂ => ?_
  refine Ensures.bind (P := fun _ => SameDecisions g₂) (.when (fun _ =>
    Ensures.bind (sameDecisions_message env _) fun _ _ h => h) fun _ => rfl) fun _ g₃ h₃ => ?_
  refine Ensures.bind (P := fun _ => SameDecisions g₃) (.when (fun _ =>
    sameDecisions_supersedeBoundaries _ _) fun _ => rfl) fun _ g₄ h₄ => ?_
  exact ⟨h₄.trans (h₃.trans (h₂.trans h₁)), rfl, rfl, rfl⟩

theorem ensures_escalateSupervision (env : Env) (b : Boundary) (code : EscalationReason)
    {r : BoundaryDispositionInput} :
    Ensures f (escalateSupervision env b code (some r.turnId) (some (.dispositionRequest r)))
      (Decides f b.id r) := by
  unfold escalateSupervision insertDisposition
  refine Ensures.get ?_
  unfold Ensures
  rw [wp_bind, wp_newId, wp_bind, wp_escalationTurn_some, wp_bind, Tx.wp_statement]
  refine ⟨fun _ => ?_, fun _ => trivial⟩
  refine Ensures.bind (sameDecisions_advance _ _ _) fun _ g₁ h₁ => ?_
  refine Ensures.bind (P := fun _ => SameDecisions g₁) rfl fun _ g₂ h₂ => ?_
  refine Ensures.bind (sameDecisions_message env _) fun _ g₃ h₃ => ?_
  exact ⟨h₃.trans (h₂.trans h₁), rfl, rfl, rfl⟩

/-- **What `dispose_boundary` does**: it answers with the decision that stands, or makes
one under a lease. -/
theorem Reviewed.ensures_disposeBoundary (hf : Reviewed f) (env : Env) (actor : Actor)
    (id : BoundaryId) (r : BoundaryDispositionInput) (escalate : Bool) :
    Ensures f (disposeBoundary env actor id r escalate) fun d g =>
      (f.disposition? id = some d ∧ d.requestDigest = .dispositionRequest r ∧ Reconciled f g) ∨
        (Fenced env actor id r f ∧ Decides f id r d g) := by
  unfold disposeBoundary
  refine .require fun _ => ensures_after_check fun _ _ => .bind
    (wp_mono (hf.reconciles env) (fun _ _ h => h) fun _ he => he.elim) fun _ g hg =>
    .get (.need fun b hb => Reads.bind (reads_authorizeWorkActor actor) fun _ _ => ?_)
  have hsame : g.disposition? id = f.disposition? id := by
    unfold disposition?
    rw [hg.dispositions]
  rw [hsame]
  split
  · next d hd => exact .require fun hdigest => .inl ⟨hd, hdigest, hg⟩
  · next hnone =>
    refine ensures_after_check fun _ _ => .require fun _ => .require fun hsuperseded =>
      .require fun hwork => .require fun hboundary => .need fun t ht => .require fun howns =>
      .require fun _ => .require fun _ => .need fun a ha => .require fun _ =>
      ensures_after_check fun _ _ => ?_
    refine Reads.bind (P := fun _ => True) (reads_when (reads_requirePauseSafe env b)) fun _ _ => ?_
    obtain ⟨hb, hbid⟩ := mem_of_boundary? hb
    obtain ⟨ht, htid⟩ := mem_of_turn? ht
    obtain ⟨ha, hnumber⟩ := mem_of_attempt? ha
    have hundecided : ¬ g.Disposed id := by
      rintro ⟨d, hd, hid⟩
      rw [← hsame] at hnone
      have := List.find?_eq_none.mp hnone d hd
      simp [hid] at this
    have hfenced : Fenced env actor id r f := by
      obtain ⟨b₀, hb₀, action, rfl⟩ := hg.boundary hb
      rw [hg.work] at hwork
      exact ⟨hg.open_of ⟨hundecided, hsuperseded⟩, hwork.symm, b₀, hb₀, hbid,
        hboundary.trans hwork.symm, t, hg.turn ht howns.1, htid, howns⟩
    have htarget : ∀ m, Targets g m a.number := fun m => by
      rw [hnumber]
      exact .of_boundary hb (hboundary.trans hwork.symm)
    refine Ensures.mono (Q := Decides g b.id r) ?_ fun d g' hd => .inr ⟨hfenced, ?_⟩
    · have hdecide := ensures_decideBoundary env actor b ha htarget
        (g.reviews.find? fun q => q.boundaryId = some id) r
      refine .ite (fun _ => ?_) fun _ => hdecide
      split
      · exact hdecide
      · rw [htid]
        exact ensures_escalateSupervision env b _
      · exact ensures_throw _
    · obtain ⟨hrows, hrest⟩ := hd
      rw [hg.dispositions] at hrows
      exact ⟨hrows, hbid ▸ hrest⟩

/-- The caller may act on the Work: it is a CAO and, if it has a conversation, calls from the
current one and the Work is of that conversation. -/
def Authorized (env : Env) (actor : Actor) (f : WorkFile) : Prop :=
  actor.role = .cao ∧ (actor.attachmentId.isSome → env.callerCurrent = .ok () ∧
    f.work.supervisorAttachmentId = actor.attachmentId)

theorem Reviewed.disposition?_eq (hf : Reviewed f) {d : BoundaryDisposition}
    (hd : d ∈ f.dispositions) : f.disposition? d.boundaryId = some d := Rows.find?_key hf.decided hd

/-- **The same request again** is answered with the decision that stands. -/
theorem Reviewed.disposeBoundary_again (hf : Reviewed f) {env : Env} {actor : Actor}
    (hactor : Authorized env actor f) {d : BoundaryDisposition} (hd : d ∈ f.dispositions)
    {r : BoundaryDispositionInput} (hdigest : d.requestDigest = .dispositionRequest r)
    (escalate : Bool) :
    ∃ g, disposeBoundary env actor d.boundaryId r escalate f = .ok (d, g) ∧ Reconciled f g := by
  have hrun : wp (disposeBoundary env actor d.boundaryId r escalate)
      (fun e g => e = d ∧ Reconciled f g) (fun _ => False) f := by
    unfold disposeBoundary
    rw [wp_bind, wp_require]
    refine ⟨fun _ => ?_, fun hnot => hnot hactor.1⟩
    rw [wp_bind, Tx.wp_check]
    refine ⟨fun _ _ => ?_, fun e he => ?_⟩
    · rw [wp_bind]
      refine wp_mono (hf.reconciles env) (fun _ g hg => ?_) fun _ he => he
      rw [wp_bind, wp_get, wp_bind, wp_need]
      refine ⟨fun b _ => ?_, fun hnone => ?_⟩
      · unfold authorizeWorkActor
        rw [wp_bind, wp_bind, wp_get, wp_require]
        refine ⟨fun _ => ?_, fun hnot => hnot fun hsome => ?_⟩
        · have hsame : g.disposition? d.boundaryId = some d := by
            rw [← hf.disposition?_eq hd]
            unfold disposition?
            rw [hg.dispositions]
          rw [hsame]
          show wp (Tx.require _ _ >>= _) _ _ _
          rw [wp_bind, wp_require]
          exact ⟨fun _ => ⟨rfl, hg⟩, fun hnot => hnot hdigest⟩
        · rw [hg.work]
          exact (hactor.2 hsome).2
      · obtain ⟨b, hb, hid⟩ := hf.recorded d hd
        obtain ⟨c, hc, hclass⟩ := Rows.exists_right hg.boundaries hb
        have hcid : c.id = b.id := by rcases hclass with rfl | ⟨-, _, rfl⟩ <;> rfl
        have := List.find?_eq_none.mp hnone c hc
        simp [hcid, hid] at this
    · split at he
      · next hsome =>
        rw [(hactor.2 hsome).1] at he
        cases he
      · cases he
  obtain ⟨e, g, hok, rfl, hg⟩ := succeeds_of_wp hrun
  exact ⟨g, hok, hg⟩

/-- **Any other request fails.** -/
theorem Reviewed.disposeBoundary_refused (hf : Reviewed f) (env : Env) (actor : Actor)
    {id : BoundaryId} {r : BoundaryDispositionInput} (escalate : Bool)
    (h : f.Superseded id ∨
      ∃ d ∈ f.dispositions, d.boundaryId = id ∧ d.requestDigest ≠ .dispositionRequest r) :
    ∃ e, disposeBoundary env actor id r escalate f = .error e := by
  refine fails_of_wp (E := fun _ => True) (Ensures.mono (hf.ensures_disposeBoundary env actor id r
    escalate) fun d g hd => ?_)
  rcases hd with ⟨hstands, hdigest, -⟩ | ⟨hfenced, -⟩
  · have hid : d.boundaryId = id := by simpa using List.find?_some hstands
    have hd : d ∈ f.dispositions := List.mem_of_find?_eq_some hstands
    rcases h with hs | ⟨e, he, heid, hne⟩
    · exact hf.exclusive id ⟨⟨d, hd, hid⟩, hs⟩
    · obtain rfl : e = d := Rows.eq_of_key hf.decided he hd (heid.trans hid.symm)
      exact hne hdigest
  · rcases h with hs | ⟨e, he, heid, -⟩
    · exact hfenced.1.2 hs
    · exact hfenced.1.1 ⟨e, he, heid⟩

/-! ## Nothing is taken back -/

/-- What was settled stays settled. -/
theorem Write.settled_suffix {k : WriteKind} (hw : Write f k g) :
    f.dispositions <:+ g.dispositions ∧ f.supersessions <:+ g.supersessions := by
  have hcommanded : ∀ {f g : WorkFile}, Commanded f g →
      f.dispositions <:+ g.dispositions ∧ f.supersessions <:+ g.supersessions := fun hc => by
    rw [hc.dispositions, hc.supersessions]
    exact ⟨List.suffix_rfl, List.suffix_rfl⟩
  have hreplaced : ∀ {m : Move} {g : WorkFile}, Replacement f m g →
      g.dispositions = f.dispositions ∧ g.supersessions = f.supersessions := fun hr => by
    cases hr
    rw [givenUp_eq]
    exact ⟨rfl, rfl⟩
  cases hw with
  | message _ hsent => exact hcommanded (.of_messaged hsent)
  | decide | giveUp | sealDecision | close => exact ⟨List.suffix_cons _ _, List.suffix_rfl⟩
  | supersede => exact ⟨List.suffix_rfl, List.suffix_cons _ _⟩
  | renew _ _ _ hr => exact hcommanded (.of_renewal hr)
  | renewContinued _ _ _ _ _ _ hr hsent _ hc =>
    exact hcommanded (((Commanded.of_renewal hr).trans (.of_messaged hsent)).trans
      (.of_consumption hc))
  | replace _ _ hr =>
    rw [(hreplaced hr).1, (hreplaced hr).2]
    exact ⟨List.suffix_rfl, List.suffix_rfl⟩
  | replaceContinued _ _ _ _ _ _ hr hsent _ hc =>
    rw [← (hreplaced hr).1, ← (hreplaced hr).2]
    exact hcommanded ((Commanded.of_messaged hsent).trans (.of_consumption hc))
  | reply a c g' _ _ _ hc => exact hcommanded (g := g') (.of_consumption hc)
  | _ => exact ⟨List.suffix_rfl, List.suffix_rfl⟩

theorem settled_suffix (hw : Relation.ReflTransGen (Writes everything) f g) :
    f.dispositions <:+ g.dispositions ∧ f.supersessions <:+ g.supersessions := by
  induction hw with
  | refl => exact ⟨List.suffix_rfl, List.suffix_rfl⟩
  | tail _ hlast ih =>
    obtain ⟨_, _, hlast⟩ := hlast
    obtain ⟨hd, hs⟩ := hlast.settled_suffix
    exact ⟨ih.1.trans hd, ih.2.trans hs⟩

end WorkFile

/-! ## Runs -/

namespace Supervision

open WorkFile Tx

/-- The transaction of `dispose_boundary`. -/
def disposing (w : WorkId) (world : World) (actor : Actor) (id : BoundaryId)
    (r : BoundaryDispositionInput) (there : World) (resumer : PrincipalId) : Transaction :=
  .call w world (.disposeBoundary actor id r) there resumer

/-- **Every Boundary of the store is decided once.** -/
structure DecidesOnce (s : Store) : Prop where
  /-- No Boundary has two dispositions, or a disposition and a supersession, and no two
  leased turns of a Work are of one Boundary or of one supervisor. -/
  reviewed : ∀ f ∈ s.files, Reviewed f
  /-- A decision that was not there before is made under a lease. -/
  fenced : ∀ w world f, s.file? w = some f → ∀ actor id r escalate d g,
    disposeBoundary (s.env w world) actor id r escalate f = .ok (d, g) → d ∉ f.dispositions →
      Fenced (s.env w world) actor id r f ∧ Decides f id r d g
  /-- The same request again answers with the decision and reconciles recoveries. -/
  repeated : ∀ w world f, s.file? w = some f → ∀ actor, Authorized (s.env w world) actor f →
    ∀ d ∈ f.dispositions, ∀ r, d.requestDigest = .dispositionRequest r →
      ∃ g, disposeBoundary (s.env w world) actor d.boundaryId r true f = .ok (d, g) ∧
        Reconciled f g ∧ ∀ there resumer,
          (disposing w world actor d.boundaryId r there resumer).run s = .ok (⟨⟩, s.put w g)
  /-- Any other request fails and changes nothing. -/
  refused : ∀ w world f, s.file? w = some f → ∀ actor id r,
    (f.Superseded id ∨
      ∃ d ∈ f.dispositions, d.boundaryId = id ∧ d.requestDigest ≠ .dispositionRequest r) →
      ∀ there resumer, (∃ e, (disposing w world actor id r there resumer).run s = .error e) ∧
        commit (disposing w world actor id r there resumer).run s = s
  /-- What was settled stays settled in every later store. -/
  kept : ∀ s', system.Runs s s' → ∀ f ∈ s.files, ∃ f' ∈ s'.files, f'.id = f.id ∧
    f.dispositions <:+ f'.dispositions ∧ f.supersessions <:+ f'.supersessions

theorem reviewed_of_reachable {s : Store} (hs : system.Reachable s) : Store.Files Reviewed s := by
  have hwrites : ∀ f g, Reviewed f → Writes everything f g → Reviewed g := fun f g hf hw => by
    obtain ⟨_, _, hw⟩ := hw
    exact hf.write hw
  refine files_of_reachable (.of_writes hwrites fun n world packet runtime _ => ?_) hs
  refine ⟨List.nodup_nil, fun _ hd => (nomatch hd), List.nodup_nil, fun _ hboth => ?_, .nil⟩
  obtain ⟨_, hd, -⟩ := hboth.1
  cases hd

/-- A transaction on one file that succeeds there. -/
theorem onFile_ok {α : Type} {s : Store} {w : WorkId} {world : World} {m : Env → FileTx α}
    {f g : WorkFile} {a : α} (hf : s.file? w = some f)
    (hrun : m (s.env w world) f = .ok (a, g)) :
    Store.onFile w world m s = .ok (a, s.put w g) := by
  refine run_of_wp ?_
  rw [Store.wp_onFile]
  refine ⟨fun f' hf' => ?_, fun hnone => ?_⟩
  · obtain rfl : f = f' := Option.some.inj (hf.symm.trans hf')
    unfold wp
    rw [hrun]
    exact ⟨rfl, rfl⟩
  · rw [hf] at hnone
    cases hnone

theorem onFile_error {α : Type} {s : Store} {w : WorkId} {world : World} {m : Env → FileTx α}
    {f : WorkFile} {e : Failure} (hf : s.file? w = some f)
    (hrun : m (s.env w world) f = .error e) : Store.onFile w world m s = .error e := by
  refine error_of_wp ?_
  rw [Store.wp_onFile]
  refine ⟨fun f' hf' => ?_, fun hnone => ?_⟩
  · obtain rfl : f = f' := Option.some.inj (hf.symm.trans hf')
    unfold wp
    rw [hrun]
  · rw [hf] at hnone
    cases hnone

/-- A request that leaves the Work as it is goes no further than its file. -/
theorem run_disposing {s : Store} {w : WorkId} {world : World} {f g : WorkFile}
    (hf : s.file? w = some f) {actor : Actor} {id : BoundaryId} {r : BoundaryDispositionInput}
    {d : BoundaryDisposition}
    (hrun : disposeBoundary (s.env w world) actor id r true f = .ok (d, g)) (hid : g.id = w)
    (hwork : g.work = f.work) (hs : Store.Files Reviewed s) (there : World)
    (resumer : PrincipalId) :
    (disposing w world actor id r there resumer).run s = .ok (⟨⟩, s.put w g) := by
  show Store.call w world (.disposeBoundary actor id r) there resumer s = _
  have hcall : (Call.disposeBoundary actor id r).run (s.env w world) f = .ok (⟨⟩, g) :=
    run_bind hrun _
  unfold Store.call
  rw [run_bind (show (get : StoreTx Store) s = .ok (s, s) from rfl),
    run_bind (onFile_ok hf hcall),
    run_bind (show (get : StoreTx Store) (s.put w g) = .ok (s.put w g, s.put w g) from rfl),
    if_neg]
  · rfl
  · -- A Work that has not ended before has not ended after.
    rintro ⟨-, hbefore, hafter⟩
    have hput : (s.put w g).file? w = some g := by
      have hfiles : Store.Files (fun _ => True) s := ⟨hs.ids, fun _ _ => trivial⟩
      have hput := (hfiles.put hid trivial).file? (Store.mem_put (Store.mem_of_file? hf) g)
      rwa [hid] at hput
    have hlive : f.work.state.terminal = false := by simpa [hf] using hbefore
    have hended : g.work.state.terminal = true := by simpa [hput] using hafter
    rw [hwork, hlive] at hended
    cases hended

/-- The question that the Worker of the sample Work asks. -/
def question : BoundaryId := ⟨1, 1⟩

/-- The failure that is reported after it. -/
def failureInput : BoundaryInput :=
  { sampleBoundary "failure" .failure with
    metadata := { (sampleBoundary "failure" .failure).metadata with runtimeRecovery := true } }

/-- The decision to hand the question over to the requester. -/
def handOver : BoundaryDispositionInput :=
  { turnId := ⟨1, 5⟩, leaseToken := "token", expectedGeneration := 1, kind := .waitUser,
    reason := "", instruction := "", resumeCondition := "", workerId := none,
    runtimeSessionId := none, expectedPurposeVersion := none }

/-- A question is asked, a failure is reported, and the question is handed over. -/
def handedOver : Store :=
  after [opened 1, called 1 (.recordBoundary sampleWorker (sampleBoundary "question" .question)),
    called 1 (.recordBoundary sampleWorker failureInput),
    called 1 (.acquireReasonerTurn sampleActor (some question) 1 60 (.other "") "token"),
    called 1 (.disposeBoundary sampleActor question handOver)]

/-- The decision is asked for again, in some world. -/
def handedOverAgain (world : World) : Transaction :=
  disposing 1 world sampleActor question handOver world 7

/-- The failure can be proved executable by now. -/
def routed : World := { willing 1 with recoveryRoute := fun _ => .reconcileContinueSameThread }

/-- The conversation of the CAO is not the current one any more. -/
def detached : World := { willing 1 with callerCurrent := .error (.authorization "attachment") }

end Supervision
