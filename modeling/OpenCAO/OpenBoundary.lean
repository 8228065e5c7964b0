import OpenCAO.History

/-!
# The open Boundary of a Work

A Boundary is open until it is disposed or superseded, and the read model
reports a Work with more than one (`boundary.more_than_one_open`).

Only the record of a Boundary opens one; every other write leaves the open
Boundaries of a Work as they are or settles some. So a Work has at most
one as long as a Boundary is recorded only where none is open, or replaces
the one that is. A retry looks for itself; the other recorders do not, or
look only at the Boundaries of one Attempt.
-/

namespace WorkFile

open Tx

variable {f g h : WorkFile} {α β : Type}

/-- Every kind of writes by which no Boundary is recorded. -/
def unrecorded : List WriteKind :=
  .conversationClose :: .abandonedCapture :: .attention :: .bypass :: settled

/-- The columns that tell the Boundaries apart. -/
def mark (b : Boundary) : BoundaryId × PrincipalId × SourceEventId :=
  (b.id, b.sourcePrincipalId, b.sourceEventId)

/-- **No Boundary is recorded, and none is opened again.** -/
structure Settles (f g : WorkFile) : Prop where
  marks : g.boundaries.map mark = f.boundaries.map mark
  opens : ∀ id, g.Open id → f.Open id

theorem Settles.refl : Settles f f := ⟨rfl, fun _ h => h⟩

theorem Settles.trans (h₁ : Settles f g) (h₂ : Settles g h) : Settles f h :=
  ⟨h₂.marks.trans h₁.marks, fun id ho => h₁.opens id (h₂.opens id ho)⟩

theorem Settles.of_commanded (hc : Commanded f g) : Settles f g := by
  refine ⟨by rw [hc.boundaries], fun id ho => ?_⟩
  unfold Open Disposed Superseded at *
  rw [hc.dispositions, hc.supersessions] at ho
  exact ho

theorem Settles.of_replacement {m : Move} (hr : Replacement f m g) : Settles f g := by
  cases hr
  rw [givenUp_eq]
  exact ⟨rfl, fun _ ho => ho⟩

theorem settles_disposition (d : BoundaryDisposition) :
    Settles f { f with dispositions := d :: f.dispositions } := by
  refine ⟨rfl, fun id ho => ⟨fun hd => ho.1 ?_, ho.2⟩⟩
  obtain ⟨e, he, hid⟩ := hd
  exact ⟨e, List.mem_cons_of_mem _ he, hid⟩

/-- **Every write but the record of a Boundary settles.** -/
theorem Settles.of_write {k : WriteKind} (hk : k ∈ unrecorded) (hw : Write f k g) :
    Settles f g := by
  cases hw with
  | message _ hsent => exact .of_commanded (.of_messaged hsent)
  | decide b t d => exact settles_disposition d
  | giveUp b t d =>
    exact Settles.trans (g := complete t.id _ f) ⟨rfl, fun _ ho => ho⟩ (settles_disposition d)
  | sealDecision env b d goalVersion now key =>
    exact Settles.trans (g := { f with turns := sealedFor b d goalVersion now key :: f.turns })
      ⟨rfl, fun _ ho => ho⟩ (settles_disposition d)
  | close env b d result now key =>
    exact Settles.trans
      (g := { f with
        turns := sealedTurn b d.decidedBy b.generation b.goalVersion d.reasonerTurnId
          b.inputDigest result now key :: f.turns })
      ⟨rfl, fun _ ho => ho⟩ (settles_disposition d)
  | supersede s =>
    refine ⟨rfl, fun id ho => ⟨ho.1, fun hs => ho.2 ?_⟩⟩
    obtain ⟨e, he, hid⟩ := hs
    exact ⟨e, List.mem_cons_of_mem _ he, hid⟩
  | record => simp [unrecorded, settled] at hk
  | rederive env f₀ =>
    have hmark : ∀ b, mark (rederived env f b) = mark b := fun _ => rfl
    exact ⟨Rows.map_update (fun b _ => hmark b) _, fun _ ho => ho⟩
  | renew _ _ _ hr => exact .of_commanded (.of_renewal hr)
  | renewContinued _ _ _ _ _ _ hr hsent _ hc =>
    exact .of_commanded (((Commanded.of_renewal hr).trans (.of_messaged hsent)).trans
      (.of_consumption hc))
  | replace _ _ hr => exact .of_replacement hr
  | replaceContinued _ _ _ _ _ _ hr hsent _ hc =>
    exact (Settles.of_replacement hr).trans
      (.of_commanded ((Commanded.of_messaged hsent).trans (.of_consumption hc)))
  | reply a c g' _ _ _ hc =>
    exact (Settles.of_commanded (.of_consumption hc)).trans ⟨rfl, fun _ ho => ho⟩
  | _ => exact ⟨rfl, fun _ ho => ho⟩

/-- **A transaction settles** that records no Boundary. -/
theorem settles_of_makes {m : FileTx α} (hm : Makes (Writes unrecorded) f m) :
    Ensures f m fun _ => Settles f := by
  refine hm.keeps (fun g h hg hw => ?_) .refl
  obtain ⟨k, hk, hw⟩ := hw
  exact hg.trans (.of_write hk hw)

/-- A source event that no Boundary was recorded from. -/
def Fresh (f : WorkFile) (sourceId : PrincipalId) (event : SourceEventId) : Prop :=
  ∀ b ∈ f.boundaries, ¬ (b.sourcePrincipalId = sourceId ∧ b.sourceEventId = event)

instance (f : WorkFile) (sourceId : PrincipalId) (event : SourceEventId) :
    Decidable (f.Fresh sourceId event) := by
  unfold Fresh
  infer_instance

theorem Settles.fresh (hs : Settles f g) {sourceId : PrincipalId} {event : SourceEventId}
    (hg : g.Fresh sourceId event) : f.Fresh sourceId event := by
  intro b hb hsame
  have hmark : mark b ∈ g.boundaries.map mark := hs.marks ▸ List.mem_map_of_mem hb
  obtain ⟨c, hc, hmark⟩ := List.mem_map.mp hmark
  refine hg c hc ?_
  have hcolumns := congrArg Prod.snd hmark
  rw [show c.sourcePrincipalId = b.sourcePrincipalId from congrArg Prod.fst hcolumns,
    show c.sourceEventId = b.sourceEventId from congrArg Prod.snd hcolumns]
  exact hsame

/-! ## How many are open -/

/-- How many Boundaries are open. -/
def openCount (f : WorkFile) : ℕ := f.openBoundaries.length

theorem openCount_eq (f : WorkFile) :
    f.openCount = (f.boundaries.map mark).countP fun m => f.Open m.1 := by
  unfold openCount openBoundaries
  rw [List.countP_map, List.countP_eq_length_filter]
  rfl

theorem Settles.openCount_le (hs : Settles f g) : g.openCount ≤ f.openCount := by
  rw [openCount_eq, openCount_eq, hs.marks]
  refine List.countP_mono_left fun m _ ho => ?_
  simp only [decide_eq_true_eq] at ho ⊢
  exact hs.opens _ ho

/-- **A transaction opens at most one Boundary**, and only under a condition. -/
def Opens (P : Prop) (f : WorkFile) (m : FileTx α) : Prop :=
  Ensures f m fun _ g => g.openCount ≤ f.openCount ∨ P ∧ g.openCount ≤ f.openCount + 1

theorem Opens.of_settles {P : Prop} {m : FileTx α} (hm : Ensures f m fun _ => Settles f) :
    Opens P f m := hm.mono fun _ _ hs => .inl hs.openCount_le

theorem Opens.mono {P Q : Prop} {m : FileTx α} (hm : Opens P f m) (hPQ : P → Q) : Opens Q f m :=
  Ensures.mono hm fun _ _ ho => ho.imp_right fun ho => ⟨hPQ ho.1, ho.2⟩

/-- What settles before a Boundary is opened. -/
theorem Opens.after {P : Prop} {m : FileTx β} {k : β → FileTx α}
    (hm : Ensures f m fun _ => Settles f) (hk : ∀ b g, Settles f g → Opens P g (k b)) :
    Opens P f (m >>= k) := by
  refine Ensures.bind hm fun b g hs => Ensures.mono (hk b g hs) fun _ g' ho => ?_
  have hle := hs.openCount_le
  exact ho.imp (fun ho => by omega) fun ho => ⟨ho.1, by omega⟩

/-- What settles after a Boundary was opened. -/
theorem Opens.followed {P : Prop} {m : FileTx β} {k : β → FileTx α} (hm : Opens P f m)
    (hk : ∀ b g, Ensures g (k b) fun _ => Settles g) : Opens P f (m >>= k) := by
  refine Ensures.bind hm fun b g ho => Ensures.mono (hk b g) fun _ g' hs => ?_
  have hle := hs.openCount_le
  exact ho.imp (fun ho => by omega) fun ho => ⟨ho.1, by omega⟩

theorem openCount_record (b : Boundary) :
    openCount { f with boundaries := b :: f.boundaries } ≤ f.openCount + 1 := by
  unfold openCount openBoundaries
  rw [List.filter_cons]
  split
  · exact Nat.le_refl _
  · exact Nat.le_succ _

theorem settles_backfill (env : Env) :
    Ensures f (backfillRecoveryActions env) fun _ => Settles f :=
  settles_of_makes (makes_mono (by decide) (makes_backfill env))

/-- **The record of a Boundary opens one**, if its source event is fresh. -/
theorem opens_recordBoundaryTx (env : Env) (sourceId : PrincipalId) (role : PrincipalRole)
    (r : BoundaryInput) :
    Opens (f.Fresh sourceId r.sourceEventId) f (recordBoundaryTx env sourceId role r) := by
  have htail : ∀ (b : Boundary) (g : WorkFile), Ensures g (do
      Tx.when (r.metadata.runtimeRecovery = true) (backfillRecoveryActions env)
      pure b) fun _ => Settles g := fun b g => by
    refine Ensures.bind (P := fun _ => Settles g) ?_ fun _ _ hs => hs
    unfold Ensures
    rw [wp_when]
    exact ⟨fun _ => settles_backfill env, fun _ => .refl⟩
  unfold recordBoundaryTx
  refine Ensures.get ?_
  split
  · exact Opens.of_settles (.require fun _ => htail _ _)
  · next hfind =>
    have hfresh : f.Fresh sourceId r.sourceEventId := by
      intro b hb
      simpa using List.find?_eq_none.mp hfind b hb
    refine .require fun _ => .need fun a _ => .require fun _ => .require fun _ => .require fun _ =>
      .require fun _ => .require fun _ => ?_
    refine Reads.bind reads_requireNotPaused fun _ _ => ?_
    unfold insertBoundary Ensures
    rw [wp_bind, wp_newId, wp_bind, Tx.wp_statement]
    refine ⟨fun _ => ?_, fun _ => trivial⟩
    refine Ensures.mono (htail _ _) fun _ g hs => Or.inr ⟨hfresh, ?_⟩
    exact Nat.le_trans hs.openCount_le (openCount_record _)

/-! ## The recorders

What each recorder does before and after it records a Boundary settles. -/

theorem settles_notice (env : Env) (r : MessageRequest) :
    Ensures f (do let _ ← message env r) fun _ => Settles f :=
  settles_of_makes (makes_notice (by decide) env r)

theorem settles_move (m : Move) : Ensures f (move m) fun _ => Settles f := by
  unfold move Ensures
  rw [Tx.wp_statement]
  exact ⟨fun _ => ⟨rfl, fun _ ho => ho⟩, fun _ => trivial⟩

theorem settles_setAttemptState (number : ℕ) (state : AttemptState) :
    Ensures f (setAttemptState number state) fun _ => Settles f := ⟨rfl, fun _ ho => ho⟩

theorem settles_advance (number : ℕ) (u : Attempt → Attempt) (m : Move) :
    Ensures f (advance number u m) fun _ => Settles f := by
  unfold advance Ensures
  rw [wp_bind, wp_modify]
  exact Ensures.mono (settles_move m) fun _ _ hs =>
    Settles.trans (g := withAttempt number u f) ⟨rfl, fun _ ho => ho⟩ hs

theorem settles_insertReview (q : Review) : Ensures f (insertReview q) fun _ => Settles f := by
  unfold insertReview Ensures
  rw [Tx.wp_statement]
  exact ⟨fun _ => ⟨rfl, fun _ ho => ho⟩, fun _ => trivial⟩

theorem settles_newId : Ensures f newId fun _ => Settles f := by
  unfold Ensures
  rw [wp_newId]
  exact ⟨rfl, fun _ ho => ho⟩

/-- A Boundary that is recorded on an Attempt which was handed over. -/
theorem opens_advance_record {P : Prop} (env : Env) (sourceId : PrincipalId)
    (role : PrincipalRole) {r : BoundaryInput} (hP : f.Fresh sourceId r.sourceEventId → P)
    {number : ℕ} {u : Attempt → Attempt} {m : Move} {k : Boundary → FileTx α}
    (hk : ∀ b g, Ensures g (k b) fun _ => Settles g) :
    Opens P f (do
      advance number u m
      let b ← recordBoundaryTx env sourceId role r
      k b) :=
  .after (settles_advance _ _ _) fun _ _ hs => .followed
    ((opens_recordBoundaryTx env sourceId role r).mono fun hfresh => hP (hs.fresh hfresh)) hk

theorem opens_recordBoundary (env : Env) (actor : Actor) (r : BoundaryInput) :
    Opens (f.Fresh actor.id r.sourceEventId) f (recordBoundary env actor r) :=
  Ensures.require fun _ => Opens.followed (opens_recordBoundaryTx env _ _ r) fun _ _ =>
    Ensures.get (settles_notice env _)

/-- A retry looks for open Boundaries itself. -/
theorem opens_createAttempt (env : Env) (actor : Actor) (r : RetryInput) :
    Opens (f.openBoundaries = []) f (createAttempt env actor r) := by
  unfold createAttempt
  have hsettles : ∀ {g : WorkFile} {m : FileTx PUnit}, Makes (Writes settled) g m →
      Ensures g m fun _ => Settles g := fun h => settles_of_makes (makes_mono (by decide) h)
  refine Reads.bind (reads_enter env actor) fun _ _ => ?_
  split
  · exact Opens.of_settles (hsettles (makes_check _))
  · refine Ensures.get (Ensures.need fun previous hprevious => Ensures.require fun _ => ?_)
    have hprevious := mem_of_latestAttempt? hprevious
    split
    · next b hb =>
      refine Ensures.ite (fun _ => Opens.of_settles (hsettles (makes_check _))) fun _ => ?_
      refine Reads.bind reads_requireRetriable fun _ _ => Ensures.require fun _ => ?_
      refine ensures_after_check fun _ _ => Ensures.require fun _ => ?_
      exact Opens.of_settles
        (hsettles (makes_sealRetry env actor hprevious (List.mem_of_find?_eq_some hb) r))
    · refine Reads.bind reads_requireRetriable fun _ _ => ensures_after_check fun _ _ =>
        Ensures.require fun hnone => ?_
      have hopens := opens_recordBoundaryTx (f := f) env actor.id actor.role
        (r.boundaryInput f previous)
      unfold Opens Ensures at hopens
      refine Ensures.bind (wp_mono (wp_and hopens (makes_recordBoundaryTx_mem env _ _ _))
        (fun _ _ h => h) fun _ _ => trivial) fun b g hg => ?_
      obtain ⟨hb, ha⟩ := hg.2.2.2 rfl
      refine Ensures.mono (hsettles (makes_sealRetry env actor (ha ▸ hprevious) hb r))
        fun _ g' hs => ?_
      have hle := hs.openCount_le
      exact hg.1.imp (fun ho => by omega) fun ho => ⟨hnone, by omega⟩

theorem opens_review (env : Env) (actor : Actor) (r : ReviewInput) :
    Opens (r.verdict = .needsWork ∧ f.work.state = .waitingReview) f (review env actor r) := by
  unfold WorkFile.review
  refine Ensures.require fun _ => ensures_after_check fun _ _ => Ensures.get (Ensures.need
    fun a ha => Reads.bind (reads_authorizeWorkActor actor) fun _ _ => Ensures.require fun _ => ?_)
  split
  · exact Opens.of_settles (settles_of_makes (makes_check _))
  · refine ensures_after_check fun _ _ => Ensures.require fun hreviewable =>
      Reads.bind reads_currentGoal fun goal _ => Ensures.require fun _ =>
      ensures_after_check fun _ _ => Ensures.require fun _ => ?_
    refine Opens.after settles_newId fun id g _ => Opens.after (settles_insertReview _) fun _ g _ => ?_
    refine Ensures.ite (fun _ => Opens.of_settles Settles.refl) fun hsubmitted => ?_
    have hstate := (hreviewable.resolve_left hsubmitted).1
    split
    · exact Opens.of_settles (Ensures.bind (settles_advance _ _ _) fun _ _ hs =>
        (settles_notice env _).mono fun _ _ hs' => hs.trans hs')
    · next hverdict =>
      exact opens_advance_record env _ _ (fun _ => ⟨hverdict, hstate⟩) fun b g => settles_notice env _

theorem opens_recordRequesterDecision (env : Env) (actor : Actor) (r : RequesterDecisionInput) :
    Opens (r.accepted = false) f (recordRequesterDecision env actor r) := by
  unfold recordRequesterDecision
  refine Ensures.require fun _ => Ensures.need fun _ _ => ensures_after_check fun _ _ =>
    ensures_after_check fun _ _ => Ensures.get (Ensures.need fun q _ => Ensures.need fun a _ =>
    Reads.bind (reads_authorizeWorkActor actor) fun _ _ => Ensures.need fun _ _ =>
    Ensures.require fun _ => ?_)
  split
  · exact Opens.of_settles (settles_of_makes (makes_check _))
  · refine ensures_after_check fun _ _ => Ensures.require fun _ => Reads.bind reads_currentGoal
      fun goal _ => Ensures.require fun _ => Ensures.require fun _ => ensures_after_check
      fun _ _ => ?_
    dsimp only
    split
    · exact Opens.of_settles (settles_of_makes (makes_require _ _))
    · refine Opens.after (settles_newId) fun id g _ => Ensures.ite (fun _ => ?_) fun hrejected => ?_
      · refine Opens.of_settles ?_
        unfold acceptResult fenceReasonerTurns abandonTurns move insertDecision Ensures
        rw [wp_bind, wp_modify, wp_bind, Tx.wp_statement, Tx.wp_statement]
        exact ⟨fun _ => ⟨fun _ => ⟨rfl, fun _ ho => ho⟩, fun _ => trivial⟩, fun _ => trivial⟩
      · refine Ensures.get (opens_advance_record env _ _ (fun _ => by simpa using hrejected)
          fun b g => ?_)
        unfold insertDecision Ensures
        rw [Tx.wp_statement]
        exact ⟨fun _ => ⟨rfl, fun _ ho => ho⟩, fun _ => trivial⟩

theorem opens_augment (env : Env) (actor : Actor) (directive : DirectiveId) (reason : String) :
    Opens (f.Fresh actor.id (.directive directive)) f (augment env actor directive reason) := by
  unfold augment
  refine Reads.bind (reads_enter env actor) fun _ _ => Ensures.get (Ensures.require fun _ =>
    ensures_after_check fun _ _ => Ensures.need fun a _ => ?_)
  refine Opens.followed (opens_recordBoundaryTx env _ _ _) fun b g => ?_
  refine Ensures.bind (settles_of_makes (makes_message (by decide) env _)) fun _ g' hs => ?_
  unfold move Ensures
  rw [Tx.wp_statement]
  exact ⟨fun _ => hs.trans ⟨rfl, fun _ ho => ho⟩, fun _ => trivial⟩

theorem opens_report (env : Env) (actor : Actor) (r : ReportInput) :
    Opens (r.kind.boundaryKind.isSome ∧ f.Fresh actor.id r.sourceEventId) f
      (report env actor r) := by
  unfold report
  refine Ensures.get (Ensures.need fun a _ => Ensures.require fun _ => ensures_after_check
    fun _ _ => Ensures.require fun _ => ?_)
  split
  · exact Opens.of_settles (settles_of_makes (makes_check _))
  · refine Ensures.require fun _ => Ensures.require fun _ => Ensures.require fun _ =>
      Ensures.require fun _ => Ensures.require fun _ => Ensures.require fun _ =>
      Ensures.require fun _ => ?_
    split
    · exact Opens.of_settles (Ensures.bind (settles_advance _ _ _) fun _ _ hs =>
        (settles_notice env _).mono fun _ _ hs' => hs.trans hs')
    · next hkind =>
      exact opens_advance_record env _ _ (fun hfresh => ⟨by rw [hkind]; rfl, hfresh⟩)
        fun b g => settles_notice env _

/-- The recovery of a Worker records a Boundary by that Worker, or by the
supervisor. -/
theorem opens_recoverWorker (env : Env) (w : WorkerFailure) (bySupervisor : Bool) :
    Opens (∃ a ∈ f.attempt? w.attemptNumber,
        f.Fresh (if bySupervisor then f.work.supervisorId else a.workerId) w.sourceEventId) f
      (recoverWorker env w bySupervisor) := by
  unfold recoverWorker
  refine Ensures.get (Ensures.need fun a ha => Ensures.ite
    (fun _ => Opens.of_settles Settles.refl) fun hnew => Ensures.require fun _ => ?_)
  have hfresh : f.Fresh (if bySupervisor then f.work.supervisorId else a.workerId)
      w.sourceEventId := fun b hb hsame => hnew ⟨b, hb, hsame⟩
  refine Opens.after (settles_move _) fun _ _ _ => Opens.after (settles_setAttemptState _ _)
    fun _ _ _ => ?_
  exact .followed ((opens_recordBoundaryTx env _ _ _).mono fun _ => ⟨a, ha, hfresh⟩) fun _ _ =>
    settles_notice env _

theorem opens_reconcileCompletedTurn (env : Env) (event : SourceEventId) (n : ℕ) :
    Opens ((∀ b ∈ f.openBoundaries, b.attemptNumber ≠ n) ∧
        ∃ a ∈ f.attempt? n, f.Fresh a.workerId event) f (reconcileCompletedTurn env event n) := by
  unfold reconcileCompletedTurn
  refine Ensures.get (Ensures.ite (fun _ => Opens.of_settles Settles.refl) fun hnone => ?_)
  refine (opens_recoverWorker env _ false).mono fun h => ⟨fun b hb hn => hnone ⟨b, hb, hn⟩, ?_⟩
  simpa using h

/-- The failure of a runtime at work that was handed over is recorded at all. -/
def Secondary (f : WorkFile) (a : Attempt) : Prop :=
  f.work.state.terminal = false ∧ ¬ (a.state ∈ workerOwned ∧ f.work.attentionOwner = .worker)

instance (f : WorkFile) (a : Attempt) : Decidable (f.Secondary a) := by
  unfold Secondary
  infer_instance

theorem opens_recordSecondaryFailure (env : Env) (event : SourceEventId) (n : ℕ) :
    Opens (∃ a ∈ f.attempt? n, f.Secondary a ∧ f.Fresh a.workerId event) f
      (recordSecondaryFailure env event n) := by
  unfold recordSecondaryFailure
  refine Ensures.get (Ensures.need fun a ha => Ensures.ite
    (fun _ => Opens.of_settles Settles.refl) fun hsecondary => ?_)
  refine Opens.followed ((opens_recordBoundaryTx env _ _ _).mono fun hfresh => ⟨a, ha, ?_, hfresh⟩)
    fun _ _ => Settles.refl
  exact ⟨by simpa using fun h => hsecondary (.inl h), fun h => hsecondary (.inr h)⟩

/-- The output of a turn is put up for review with a Boundary of its own. -/
def Publishes (f : WorkFile) (c : Capture) (a : Attempt) : Prop :=
  ¬ f.Retired a ∧ f.captureBoundary? c.attemptNumber = none ∧
    f.work.generation = c.workGeneration ∧ c.exact = true ∧ c.successful = true ∧
    f.work.state = .active ∧ c.pending = false

instance (f : WorkFile) (c : Capture) (a : Attempt) : Decidable (f.Publishes c a) := by
  unfold Publishes
  infer_instance

theorem opens_publishCapture (env : Env) (c : Capture) (a : Attempt) (boundary : Option Boundary) :
    Opens ((boundary = none ∧ f.work.state = .active ∧ c.pending = false) ∧
        f.Fresh a.workerId c.sourceEventId) f (publishCapture env c a boundary) := by
  unfold publishCapture
  refine Ensures.get ?_
  split
  · exact Opens.of_settles Settles.refl
  · refine Ensures.ite (fun hactive => ?_) fun _ => Opens.of_settles Settles.refl
    exact opens_advance_record env _ _ (fun hfresh => ⟨⟨rfl, hactive⟩, hfresh⟩) fun _ _ =>
      Settles.refl

theorem opens_finalizeCapture (env : Env) (c : Capture) :
    Opens (∃ a ∈ f.attempt? c.attemptNumber, f.Publishes c a ∧
        f.Fresh a.workerId c.sourceEventId) f (finalizeCapture env c) := by
  unfold finalizeCapture
  refine Ensures.get (Ensures.need fun a ha => Ensures.ite
    (fun _ => Opens.of_settles Settles.refl) fun hpublished => ?_)
  refine Opens.followed ((opens_publishCapture env c a _).mono fun h => ⟨a, ha, ?_, h.2⟩)
    fun _ g => ?_
  · rw [not_or, not_or] at hpublished
    obtain ⟨⟨hnone, hactive, hpending⟩, -⟩ := h
    obtain ⟨hexact, hsuccessful⟩ := not_not.mp fun hn => hpublished.2.2 ⟨hnone, hn⟩
    exact ⟨hpublished.1, hnone, hexact.1, hexact.2, hsuccessful, hactive, hpending⟩
  · unfold Ensures
    rw [wp_when]
    exact ⟨fun _ => settles_notice env _, fun _ => Settles.refl⟩

theorem opens_reconcileAbandonedCapture (env : Env) (c : Capture) :
    Opens (∃ a ∈ f.attempt? c.attemptNumber, f.Abandoned c a ∧
        f.Fresh a.workerId c.sourceEventId) f (reconcileAbandonedCapture env c) := by
  unfold reconcileAbandonedCapture
  refine Ensures.get ?_
  split
  · exact Opens.of_settles Settles.refl
  · next a ha =>
    refine Ensures.ite (fun habandoned => ?_) fun _ => Opens.of_settles Settles.refl
    exact opens_advance_record env _ _ (fun hfresh => ⟨a, ha, habandoned, hfresh⟩) fun _ _ =>
      settles_notice env _

/-! ## The recovery that replaces the open one

A recovery that is recorded supersedes the open recoveries of the same
Attempt and generation in its own transaction, so it may find one. -/

/-- Every open Boundary is a recovery that a failure recorded now on this Attempt
replaces: it has the current generation, and no wake of it is being handed off. -/
def Replaceable (world : World) (f : WorkFile) (attemptNumber : ℕ) : Prop :=
  world.wakeDispatched ⟨f.id, f.nextNumber⟩ = false ∧
    ∀ c ∈ f.openBoundaries, c.kind = .failure ∧ c.Recovering ∧ c.attemptNumber = attemptNumber ∧
      c.generation = f.work.generation ∧ world.wakeDispatched c.id = false

instance (world : World) (f : WorkFile) (attemptNumber : ℕ) :
    Decidable (f.Replaceable world attemptNumber) := by
  unfold Replaceable
  infer_instance

/-- **The backfill settles the stale recoveries.** -/
theorem ensures_backfill (env : Env) :
    Ensures f (backfillRecoveryActions env) fun _ g =>
      Settles f g ∧ ∀ c ∈ f.staleRecoveries env, ¬ g.Open c.id := by
  unfold backfillRecoveryActions
  refine Ensures.get (Ensures.bind (P := fun _ g => Settles f g) ⟨rfl, fun _ ho => ho⟩
    fun _ g hg => ?_)
  refine Ensures.bind (P := fun _ g => Settles f g ∧ ∀ c ∈ f.staleRecoveries env, ¬ g.Open c.id)
    ?_ fun _ g' hg' => ?_
  · -- What is still to be superseded is what is left of the list.
    refine wp_mono (wp_each_rest
      (I := fun rest h => Settles f h ∧ ∀ c ∈ f.staleRecoveries env, c ∈ rest ∨ ¬ h.Open c.id) _
      (fun b rest h hh => ?_) ⟨hg, fun _ hc => .inl hc⟩) (fun _ h hh => ?_) fun _ he => he
    · unfold insertSupersession
      rw [wp_bind, Tx.wp_statement]
      refine ⟨fun _ => ?_, fun _ => trivial⟩
      refine ⟨hh.1.trans ⟨rfl, fun _ ho => ⟨ho.1, fun hs => ho.2 ?_⟩⟩, fun c hc => ?_⟩
      · obtain ⟨e, he, hid⟩ := hs
        exact ⟨e, List.mem_cons_of_mem _ he, hid⟩
      · rcases hh.2 c hc with hrest | hclosed
        · rcases List.mem_cons.mp hrest with rfl | hrest
          · exact .inr fun ho => ho.2 ⟨_, List.mem_cons_self, rfl⟩
          · exact .inl hrest
        · refine .inr fun ho => hclosed ⟨ho.1, fun hs => ho.2 ?_⟩
          obtain ⟨e, he, hid⟩ := hs
          exact ⟨e, List.mem_cons_of_mem _ he, hid⟩
    · exact ⟨hh.1, fun c hc => (hh.2 c hc).resolve_left (by simp)⟩
  · refine Ensures.get ⟨hg'.1.trans ⟨?_, fun _ ho => ho⟩, hg'.2⟩
    have hmark : ∀ b, mark (rederived env g' b) = mark b := fun _ => rfl
    exact Rows.map_update (fun b _ => hmark b) _

/-- With a failure recorded on their Attempt, replaceable recoveries are stale. -/
theorem mem_staleRecoveries {env : Env} {b : Boundary} (hkind : b.kind = .failure)
    (hruntime : b.metadata.runtimeRecovery = true) (hid : b.id = ⟨f.id, f.nextNumber⟩)
    (hgeneration : b.generation = f.work.generation) (hnew : ∀ c ∈ f.boundaries, c.id ≠ b.id)
    (hopen : f.Open b.id) (hreplaced : f.Replaceable env.toWorld b.attemptNumber)
    (hg : g = { f with boundaries := b :: f.boundaries, nextNumber := g.nextNumber })
    {c : Boundary} (hc : c ∈ f.openBoundaries) : c ∈ g.staleRecoveries env := by
  have hopens : g.openBoundaries = b :: f.openBoundaries := by
    rw [hg]
    refine List.filter_cons_of_pos ?_
    rw [decide_eq_true_eq]
    exact hopen
  have hrecovers : g.openRecoveries = b :: f.openRecoveries := by
    unfold openRecoveries
    rw [hopens]
    exact List.filter_cons_of_pos (by simp [hkind, Boundary.Recovering, hruntime])
  obtain ⟨hwake, hall⟩ := hreplaced
  obtain ⟨hckind, hcrecovering, hcattempt, hcgeneration, hcwake⟩ := hall c hc
  unfold staleRecoveries
  rw [List.mem_filter, hrecovers]
  refine ⟨List.mem_cons_of_mem _ (by simp [openRecoveries, hc, hckind, hcrecovering]), ?_⟩
  simp only [decide_eq_true_eq]
  refine ⟨?_, fun d hd hattempt => ?_⟩
  · -- The failure just recorded is the canonical recovery of its Attempt.
    unfold canonicalRecovery?
    rw [hrecovers, List.find?_cons_of_pos (by simp [hcattempt])]
    intro hsame
    have hmem : c ∈ f.boundaries := (f.mem_openBoundaries.mp hc).1
    exact hnew c hmem (by rw [Option.some.inj hsame])
  · rcases List.mem_cons.mp hd with rfl | hd
    · exact ⟨hgeneration.trans hcgeneration.symm, by rw [hid]; exact hwake⟩
    · have hdopen : d ∈ f.openBoundaries := (List.mem_filter.mp hd).1
      obtain ⟨-, -, -, hdgeneration, hdwake⟩ := hall d hdopen
      exact ⟨hdgeneration.trans hcgeneration.symm, hdwake⟩

/-- Where everything else was settled, only the Boundary just recorded is open. -/
theorem openCount_le_one {b : Boundary}
    (hg : g = { f with boundaries := b :: f.boundaries, nextNumber := g.nextNumber })
    (hs : Settles g h) (hclosed : ∀ c ∈ f.openBoundaries, ¬ h.Open c.id) : h.openCount ≤ 1 := by
  have hmarks : h.boundaries.map mark = mark b :: f.boundaries.map mark := by
    rw [hs.marks, hg]
    rfl
  have hnone : (f.boundaries.map mark).countP (fun m => h.Open m.1) = 0 := by
    rw [List.countP_eq_zero]
    intro m hm ho
    obtain ⟨c, hc, rfl⟩ := List.mem_map.mp hm
    rw [decide_eq_true_eq] at ho
    have hopen : f.Open c.id := by
      have hgo := hs.opens _ ho
      rw [hg] at hgo
      exact hgo
    exact hclosed c (f.mem_openBoundaries.mpr ⟨hc, hopen⟩) ho
  rw [openCount_eq, hmarks, List.countP_cons, hnone]
  split
  · exact Nat.le_refl _
  · exact Nat.zero_le _

/-- **A recovery that replaces what is open leaves at most itself open.** -/
theorem ensures_recordBoundaryTx_replacing (env : Env) (sourceId : PrincipalId)
    (role : PrincipalRole) {r : BoundaryInput} (hkind : r.kind = .failure)
    (hruntime : r.metadata.runtimeRecovery = true)
    (hreplaced : f.Replaceable env.toWorld r.attemptNumber) (hf : f.openCount ≤ 1) :
    Ensures f (recordBoundaryTx env sourceId role r) fun _ g => g.openCount ≤ 1 := by
  unfold recordBoundaryTx
  refine Ensures.get ?_
  rw [hruntime]
  split
  · refine Ensures.require fun _ => Ensures.bind (settles_backfill env) fun _ g hs => ?_
    exact Nat.le_trans hs.openCount_le hf
  · refine Ensures.require fun _ => Ensures.need fun a _ => Ensures.require fun _ =>
      Ensures.require fun _ => Ensures.require fun _ => Ensures.require fun hgeneration =>
      Ensures.require fun _ => ?_
    refine Reads.bind reads_requireNotPaused fun _ _ => ?_
    unfold insertBoundary Ensures
    rw [wp_bind, wp_newId, wp_bind, Tx.wp_statement]
    refine ⟨fun hinsertable => ?_, fun _ => trivial⟩
    refine Ensures.bind (ensures_backfill env) fun _ g' hg' => ?_
    by_cases hopen : f.Open ⟨f.id, f.nextNumber⟩
    · refine openCount_le_one (f := f) rfl hg'.1 fun c hc => hg'.2 c ?_
      exact mem_staleRecoveries (f := f) hkind hruntime rfl hgeneration.symm hinsertable.1 hopen
        hreplaced rfl hc
    · -- The new Boundary is not even open.
      refine Nat.le_trans hg'.1.openCount_le (Nat.le_trans (Nat.le_of_eq ?_) hf)
      unfold openCount openBoundaries
      rw [List.filter_cons_of_neg]
      · rfl
      · rw [decide_eq_true_eq]
        exact hopen

end WorkFile

/-! ## The runs with one open Boundary -/

open WorkFile Tx

/-- **The call records a Boundary**, by what it is asked for and what it finds in
its file. -/
def Call.Adds (f : WorkFile) : Call → Prop
  | .recordBoundary actor r => f.Fresh actor.id r.sourceEventId
  | .review _ r => r.verdict = .needsWork ∧ f.work.state = .waitingReview
  | .recordRequesterDecision _ r => r.accepted = false
  | .augment actor directive _ => f.Fresh actor.id (.directive directive)
  | .report actor r => r.kind.boundaryKind.isSome ∧ f.Fresh actor.id r.sourceEventId
  | .reconcileCompletedTurn event n =>
      (∀ b ∈ f.openBoundaries, b.attemptNumber ≠ n) ∧
        ∃ a ∈ f.attempt? n, f.Fresh a.workerId event
  | .recoverUnstartedWorker event n | .recoverAmbiguousWorker event n
  | .recoverTerminalWorker event n _ => ∃ a ∈ f.attempt? n, f.Fresh a.workerId event
  | .failAssignmentDependency event _ => f.Fresh f.work.supervisorId event
  | .recordSecondaryFailure event n =>
      ∃ a ∈ f.attempt? n, f.Secondary a ∧ f.Fresh a.workerId event
  | .finalizeCapture c =>
      ∃ a ∈ f.attempt? c.attemptNumber, f.Publishes c a ∧ f.Fresh a.workerId c.sourceEventId
  | .reconcileAbandonedCapture c =>
      ∃ a ∈ f.attempt? c.attemptNumber, f.Abandoned c a ∧ f.Fresh a.workerId c.sourceEventId
  | _ => False

/-- The call records a recovery that replaces everything that is open. -/
def Call.Replaces (world : World) (f : WorkFile) : Call → Prop
  | .recordBoundary _ r => r.kind = .failure ∧ r.metadata.runtimeRecovery = true ∧
      f.Replaceable world r.attemptNumber
  | .recordSecondaryFailure _ n => f.Replaceable world n
  | _ => False

/-- A call opens a Boundary only where it adds one, or where none is open. -/
theorem Call.opens (c : Call) (env : Env) {f : WorkFile} :
    Opens (c.Adds f ∨ f.openBoundaries = []) f (c.run env) := by
  by_cases hr : c.Records
  · cases c with
    | recordBoundary actor r => exact (opens_recordBoundary env actor r).mono .inl
    | createAttempt actor r => exact (opens_createAttempt env actor r).mono .inr
    | review actor r => exact (opens_review env actor r).mono .inl
    | recordRequesterDecision actor r =>
      exact (opens_recordRequesterDecision env actor r).mono .inl
    | augment actor directive reason => exact (opens_augment env actor directive reason).mono .inl
    | report actor r => exact (opens_report env actor r).mono .inl
    | reconcileCompletedTurn event n =>
      exact (opens_reconcileCompletedTurn env event n).mono .inl
    | recoverUnstartedWorker event n | recoverAmbiguousWorker event n
    | recoverTerminalWorker event n reason =>
      refine (opens_recoverWorker env _ false).mono fun h => .inl ?_
      obtain ⟨a, ha, hfresh⟩ := h
      exact ⟨a, ha, hfresh⟩
    | failAssignmentDependency event n =>
      refine (opens_recoverWorker env _ true).mono fun h => .inl ?_
      obtain ⟨a, _, hfresh⟩ := h
      exact hfresh
    | recordSecondaryFailure event n => exact (opens_recordSecondaryFailure env event n).mono .inl
    | finalizeCapture c => exact (opens_finalizeCapture env c).mono .inl
    | reconcileAbandonedCapture c => exact (opens_reconcileAbandonedCapture env c).mono .inl
    | _ => exact hr.elim
  · by_cases hc : c.Closes
    · cases c with
      | closeConversation actor attachment =>
        exact .of_settles (settles_of_makes
          (makes_mono (by decide) (makes_closeConversationWork env actor attachment)))
      | _ => exact hc.elim
    · exact .of_settles (settles_of_makes
        (makes_mono (by decide) (c.makes_settled env (fun h => absurd h hc) hr)))

/-- A call that replaces what is open leaves at most one Boundary open. -/
theorem Call.ensures_replacing (c : Call) (env : Env) {f : WorkFile}
    (hc : c.Replaces env.toWorld f) (hf : f.openCount ≤ 1) :
    Ensures f (c.run env) fun _ g => g.openCount ≤ 1 := by
  cases c with
  | recordBoundary actor r =>
    obtain ⟨hkind, hruntime, hreplaced⟩ := hc
    refine Ensures.require fun _ => Ensures.bind
      (ensures_recordBoundaryTx_replacing env _ _ hkind hruntime hreplaced hf) fun b g hg => ?_
    exact Ensures.get ((settles_notice env _).mono fun _ _ hs => Nat.le_trans hs.openCount_le hg)
  | recordSecondaryFailure event n =>
    show Ensures f (WorkFile.recordSecondaryFailure env event n) _
    unfold WorkFile.recordSecondaryFailure
    refine Ensures.get (Ensures.need fun a _ => Ensures.ite (fun _ => hf) fun _ => ?_)
    exact Ensures.bind (ensures_recordBoundaryTx_replacing env _ _ rfl rfl hc hf) fun _ _ hg => hg
  | _ => exact hc.elim

namespace Store

/-- **A Boundary is recorded only where none is open**, or where it replaces the
one that is. -/
def OneAtATime : World → Part → WorkFile → Prop
  | world, .call c, f => c.Adds f → f.openBoundaries = [] ∨ c.Replaces world f
  | _, _, _ => True

theorem openCount_parts : PartsKeep OneAtATime fun f => f.openCount ≤ 1 where
  part env p f hp hf hguard := by
    have hsettles : ∀ {m : FileTx PUnit}, Ensures f m (fun _ => Settles f) →
        Ensures f m fun _ g => g.openCount ≤ 1 := fun hm =>
      hm.mono fun _ _ hs => Nat.le_trans hs.openCount_le hf
    cases p with
    | call c =>
      by_cases hreplaces : c.Replaces env.toWorld f
      · exact c.ensures_replacing env hreplaces hf
      · refine Ensures.mono (c.opens env) fun _ g hg => ?_
        refine hg.elim (fun hle => Nat.le_trans hle hf) fun hopened => ?_
        obtain ⟨hadds, hle⟩ := hopened
        have hnone : f.openBoundaries = [] := hadds.elim
          (fun h => (hguard h).resolve_right hreplaces) fun h => h
        have hzero : f.openCount = 0 := by rw [openCount, hnone, List.length_nil]
        rw [hzero] at hle
        exact hle
    | interrupt w =>
      exact hsettles (settles_of_makes (makes_mono (by decide) (makes_interruptTarget w)))
    | resume w actorId =>
      exact hsettles (settles_of_makes
        (makes_mono (by decide) (makes_resumeInterruptedTarget env w actorId)))
    | recoverExpired t => exact absurd rfl (hp t)
  expired env t f hf := (settles_of_makes (makes_mono (by decide)
    (makes_recoverExpiredTurn env t))).mono fun _ _ hs => Nat.le_trans hs.openCount_le hf
  assign env n f hf := (settles_of_makes (makes_message (by decide) env _)).mono
    fun _ _ hs => Nat.le_trans hs.openCount_le hf
  new n world packet runtime _ := by simp [openCount, openBoundaries, NewWork.file]

end Store

namespace Supervision

/-- No Work has more than one open Boundary: `boundary.more_than_one_open` does not
fire. -/
def OneOpen (s : Store) : Prop := ∀ f ∈ s.files, f.openBoundaries.length ≤ 1

instance (s : Store) : Decidable (OneOpen s) := by
  unfold OneOpen
  infer_instance

/-- **At most one open Boundary for each Work**, in every run in which a Boundary is
recorded only where none is open or where it replaces the one that is. -/
theorem at_most_one_open_boundary {s : Store}
    (hs : (system.restrict (Store.Guarded Store.OneAtATime)).Reachable s) : OneOpen s :=
  fun f hf => (files_of_guarded Store.openCount_parts hs).holds f hf

/-- The Worker of the sample Work asks a question with `record_boundary`. -/
def asked (event : String) : Transaction :=
  called 1 (.recordBoundary sampleWorker (sampleBoundary event .question))

/-- A question is asked and the Work is canceled. -/
theorem at_most_one_open_boundary_canceled :
    OneOpen (after [opened 1, asked "", called 1 (.cancelWork sampleActor "" none)]) := by
  refine at_most_one_open_boundary ?_
  have hinit : (system.restrict (Store.Guarded Store.OneAtATime)).Reachable ⟨[]⟩ :=
    .of_init rfl
  have hopened : (system.restrict (Store.Guarded Store.OneAtATime)).Reachable
      (after [opened 1]) := hinit.next (e := opened 1) ⟨fun _ hi => (nomatch hi), rfl⟩
  have hnone : ∀ f ∈ (after [opened 1]).file? 1, f.openBoundaries = [] := by decide
  have hasked : (system.restrict (Store.Guarded Store.OneAtATime)).Reachable
      (after [opened 1, asked ""]) :=
    hopened.next (e := asked "") ⟨⟨fun f hf _ => .inl (hnone f hf), fun _ _ _ => trivial⟩, rfl⟩
  exact hasked.next (e := called 1 (.cancelWork sampleActor "" none))
    ⟨⟨fun _ _ hadds => hadds.elim, fun _ _ _ => trivial⟩, rfl⟩

/-- **Two questions of a Worker leave two Boundaries open.** -/
theorem two_open_boundaries :
    system.Reachable (after [opened 1, asked "a", asked "b"]) ∧
      ¬ OneOpen (after [opened 1, asked "a", asked "b"]) :=
  ⟨reachable_after _, by decide⟩

end Supervision
