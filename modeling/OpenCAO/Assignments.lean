import OpenCAO.History

/-!
# Assignments

An assignment hands an Attempt to its Worker. Its payload seals the
generation of the Work and its envelope the goal version, so it *stands*
as long as its Attempt is the latest one and still assigned, its Work
active, and both numbers are those of the Work.

What a transaction leaves of that is the subject here. A message and its
Attempt never part (`Retains`), the latest Attempt is on the current goal
(`OnGoal`), and a transaction that only writes beside the Work and its
Attempts – `quiet` – leaves every assignment standing. On a Work that is
active many transactions are quiet that are not in general, because what
they would change is something else (`Call.ensures_quiet`).
-/

namespace WorkFile

open Tx

variable {f g h : WorkFile} {α β : Type}

/-! ## Messages and their Attempts -/

/-- **A message keeps its Attempt**: the Attempts are still there, and a
new message is about one of them, on the goal of that Attempt. -/
structure Retains (f g : WorkFile) : Prop where
  attempts : ∀ a ∈ f.attempts, ∃ b ∈ g.attempts, SameAttempt a b
  messages : ∀ m ∈ g.messages, m ∈ f.messages ∨
    ∃ b ∈ g.attempts, b.number = m.attemptNumber ∧ b.goalVersion = m.goalVersion

theorem SameAttempt.refl (a : Attempt) : SameAttempt a a := ⟨rfl, rfl, rfl, rfl, rfl, rfl⟩

theorem SameAttempt.trans {a b c : Attempt} (h₁ : SameAttempt a b) (h₂ : SameAttempt b c) :
    SameAttempt a c := by
  unfold SameAttempt at *
  simp only [h₁, h₂, and_self]

theorem Retains.refl (f : WorkFile) : Retains f f :=
  ⟨fun a ha => ⟨a, ha, .refl a⟩, fun _ hm => .inl hm⟩

theorem Retains.trans (h₁ : Retains f g) (h₂ : Retains g h) : Retains f h where
  attempts := by
    intro a ha
    obtain ⟨b, hb, hab⟩ := h₁.attempts a ha
    obtain ⟨c, hc, hbc⟩ := h₂.attempts b hb
    exact ⟨c, hc, hab.trans hbc⟩
  messages := by
    intro m hm
    rcases h₂.messages m hm with hm | hm
    · rcases h₁.messages m hm with hm | ⟨b, hb, hnumber, hgoal⟩
      · exact .inl hm
      · obtain ⟨c, hc, hsame⟩ := h₂.attempts b hb
        exact .inr ⟨c, hc, hsame.1 ▸ hnumber, hsame.2.2.2.1 ▸ hgoal⟩
    · exact .inr hm

/-- The Attempts change in place, and no message is sent. -/
theorem Retains.of_forall₂ (hattempts : List.Forall₂ SameAttempt f.attempts g.attempts)
    (hmessages : g.messages ⊆ f.messages) : Retains f g :=
  ⟨fun _ ha => Rows.exists_right hattempts ha, fun _ hm => .inl (hmessages hm)⟩

theorem sameAttempts_refl : List.Forall₂ SameAttempt f.attempts f.attempts :=
  List.forall₂_same.mpr fun a _ => .refl a

theorem sameAttempts_withAttempt {number : ℕ} {u : Attempt → Attempt}
    (hu : ∀ a, SameAttempt a (u a)) :
    List.Forall₂ SameAttempt f.attempts (withAttempt number u f).attempts :=
  Rows.evolve_update .refl (fun a _ => hu a) _

theorem sameAttempts_endAttempts :
    List.Forall₂ SameAttempt f.attempts (endAttempts f).attempts :=
  Rows.evolve_update .refl (fun a _ => sameAttempt_inState _ a) _

theorem Retains.of_messaged (hsent : Messaged f g) : Retains f g := by
  cases hsent with
  | again => exact .refl f
  | sent r a hpackets _ =>
    refine ⟨fun b hb => ⟨b, hb, .refl b⟩, fun m hm => ?_⟩
    rcases List.mem_cons.mp hm with rfl | hm
    · right
      obtain ⟨goal, _, ha⟩ := Option.bind_eq_some_iff.mp hpackets
      obtain ⟨ha, hpacket⟩ := Option.filter_eq_some_iff.mp ha
      have hgoal : a.goalVersion = r.goalVersion := by
        simp only [decide_eq_true_eq] at hpacket
        exact hpacket.1
      exact ⟨a, (mem_of_attempt? ha).1, (mem_of_attempt? ha).2, hgoal⟩
    · exact .inl hm

theorem Retains.of_renewal {m : Move} (hr : Renewal f m g) : Retains f g := by
  obtain ⟨goal, previous, m, worker, runtime, _, _, _, _, _⟩ := hr
  refine ⟨fun a ha => ?_, fun m hm => .inl ?_⟩
  · obtain ⟨b, hb, hab⟩ := Rows.exists_right (sameAttempt_givenUp previous f) ha
    exact ⟨b, List.mem_cons_of_mem _ hb, hab⟩
  · rw [givenUp_eq] at hm
    exact hm

theorem Retains.of_replacement {m : Move} (hr : Replacement f m g) : Retains f g := by
  obtain ⟨goal, previous, m, worker, runtime, r, o, requester, supervisor, packet, _, _, _, _, _,
    _, _, _, _⟩ := hr
  refine ⟨fun a ha => ?_, fun m hm => .inl ?_⟩
  · obtain ⟨b, hb, hab⟩ := Rows.exists_right
      (sameAttempt_givenUp previous { f with goals := goal :: f.goals }) ha
    exact ⟨b, List.mem_cons_of_mem _ hb, hab⟩
  · rw [givenUp_eq] at hm
    exact hm

theorem Retains.of_consumption {c : BoundaryContinuation} (hc : Consumption f c g) :
    Retains f g := by
  cases hc
  exact .of_forall₂ sameAttempts_refl (List.Subset.refl _)

/-- **Every write retains the messages and their Attempts.** -/
theorem Retains.of_write {k : WriteKind} (hw : Write f k g) : Retains f g := by
  cases hw with
  | message g hsent => exact .of_messaged hsent
  | prune keep _ =>
    exact .of_forall₂ sameAttempts_refl (List.filter_subset_self _)
  | acknowledge a _ _ =>
    exact .of_forall₂ (sameAttempts_withAttempt (sameAttempt_inState _)) (List.Subset.refl _)
  | handover k number u m hm _ _ =>
    exact .of_forall₂ (sameAttempts_withAttempt hm.sameAttempt) (List.Subset.refl _)
  | finish => exact .of_forall₂ sameAttempts_endAttempts (List.Subset.refl _)
  | renew _ _ g hr => exact .of_renewal hr
  | replace _ g hr => exact .of_replacement hr
  | renewContinued _ f₁ f₂ g c _ hr hsent _ hconsumed =>
    exact ((Retains.of_renewal hr).trans (.of_messaged hsent)).trans (.of_consumption hconsumed)
  | replaceContinued _ f₁ f₂ g c _ hr hsent _ hconsumed =>
    exact ((Retains.of_replacement hr).trans (.of_messaged hsent)).trans
      (.of_consumption hconsumed)
  | reply a c g _ _ _ hconsumed =>
    exact (Retains.of_consumption hconsumed).trans
      (.of_forall₂ (sameAttempts_withAttempt (sameAttempt_inState _)) (List.Subset.refl _))
  | _ => exact .of_forall₂ sameAttempts_refl (List.Subset.refl _)

theorem Retains.of_writes {kinds : List WriteKind}
    (hw : Relation.ReflTransGen (Writes kinds) f g) : Retains f g := by
  induction hw with
  | refl => exact .refl f
  | tail _ hlast ih =>
    obtain ⟨_, _, hlast⟩ := hlast
    exact ih.trans (.of_write hlast)

/-! ## The goal of the latest Attempt -/

/-- **The latest Attempt is on the current goal.** -/
def OnGoal (f : WorkFile) : Prop := ∀ a ∈ f.latestAttempt?, a.goalVersion = f.work.goalVersion

theorem head?_of_forall₂ {R : α → β → Prop} {as : List α} {bs : List β}
    (h : List.Forall₂ R as bs) {b : β} (hb : bs.head? = some b) :
    ∃ a, as.head? = some a ∧ R a b := by
  cases h with
  | nil => cases hb
  | cons hab _ =>
    obtain rfl := Option.some.inj hb
    exact ⟨_, rfl, hab⟩

theorem OnGoal.of_forall₂ (hf : OnGoal f)
    (hattempts : List.Forall₂ SameAttempt f.attempts g.attempts)
    (hgoal : g.work.goalVersion = f.work.goalVersion) : OnGoal g := by
  intro b hb
  unfold latestAttempt? at hb
  obtain ⟨a, ha, hab⟩ := head?_of_forall₂ hattempts hb
  rw [hgoal, ← hab.2.2.2.1]
  exact hf a ha

theorem OnGoal.of_messaged (hf : OnGoal f) (hsent : Messaged f g) : OnGoal g := by
  cases hsent with
  | again => exact hf
  | sent => exact hf

theorem OnGoal.of_consumption {c : BoundaryContinuation} (hf : OnGoal f)
    (hc : Consumption f c g) : OnGoal g := by
  cases hc
  exact hf

theorem OnGoal.of_renewal {m : Move} (hr : Renewal f m g) : OnGoal g := by
  have hwork := hr.work_eq
  obtain ⟨goal, previous, m, worker, runtime, hgoal, _, hmove, _, _⟩ := hr
  intro a ha
  obtain rfl := Option.some.inj ha
  rw [hwork]
  show goal.version = _
  rw [(mem_of_goal? hgoal).2]
  rcases hmove with rfl | ⟨paused, rfl⟩ <;> rfl

theorem OnGoal.of_replacement {m : Move} (hr : Replacement f m g) : OnGoal g := by
  have hwork := hr.work_eq
  obtain ⟨goal, previous, m, worker, runtime, r, o, requester, supervisor, packet, rfl, _, _, _, _,
    _, hmove, _, _⟩ := hr
  intro a ha
  obtain rfl := Option.some.inj ha
  rw [hwork]
  rcases hmove with rfl | rfl <;> rfl

/-- **Every write keeps the latest Attempt on the current goal.** -/
theorem OnGoal.write (hf : OnGoal f) {k : WriteKind} (hw : Write f k g) : OnGoal g := by
  cases hw with
  | message g hsent => exact hf.of_messaged hsent
  | acknowledge a _ _ => exact hf.of_forall₂ (sameAttempts_withAttempt (sameAttempt_inState _)) rfl
  | handover k number u m hm _ _ =>
    exact hf.of_forall₂ (sameAttempts_withAttempt hm.sameAttempt) (hm.goalVersion f.work)
  | finish => exact hf.of_forall₂ sameAttempts_endAttempts rfl
  | bypass m _ hm => cases hm <;> exact hf
  | renew _ _ g hr => exact .of_renewal hr
  | replace _ g hr => exact .of_replacement hr
  | renewContinued _ f₁ f₂ g c _ hr hsent _ hconsumed =>
    exact ((OnGoal.of_renewal hr).of_messaged hsent).of_consumption hconsumed
  | replaceContinued _ f₁ f₂ g c _ hr hsent _ hconsumed =>
    exact ((OnGoal.of_replacement hr).of_messaged hsent).of_consumption hconsumed
  | reply a c g _ _ _ hconsumed =>
    exact (hf.of_consumption hconsumed).of_forall₂
      (sameAttempts_withAttempt (sameAttempt_inState _)) rfl
  | _ => exact hf

/-- **What the files of the lanes are known by.** -/
structure Addressed (f : WorkFile) : Prop extends History f where
  onGoal : OnGoal f
  about : ∀ m ∈ f.messages, ∃ a ∈ f.attempts, a.number = m.attemptNumber ∧
    a.goalVersion = m.goalVersion

theorem Addressed.write (hf : Addressed f) {k : WriteKind} (hw : Write f k g) : Addressed g where
  toHistory := hf.toHistory.write hw
  onGoal := hf.onGoal.write hw
  about := by
    intro m hm
    have hretains := Retains.of_write hw
    rcases hretains.messages m hm with hm | hm
    · obtain ⟨a, ha, hnumber, hgoal⟩ := hf.about m hm
      obtain ⟨b, hb, hsame⟩ := hretains.attempts a ha
      exact ⟨b, hb, hsame.1 ▸ hnumber, hsame.2.2.2.1 ▸ hgoal⟩
    · exact hm

theorem addressed_file {n : NewWork} {world : World} {packet : Option AttachmentPacket}
    (h : n.packet world = .ok packet) (runtime : Option RuntimeId) :
    Addressed (n.file packet runtime) where
  toHistory := history_file h runtime
  onGoal := by
    intro a ha
    obtain rfl := Option.some.inj ha
    rfl
  about := by simp [NewWork.file]

/-! ## Assignments that stand -/

/-- **The assignment stands** for a runtime: its Attempt is the latest one,
still assigned and on that runtime, its Work is active and not paused, and
what it seals is current. -/
def Stands (f : WorkFile) (m : Message) (runtime : Option RuntimeId) : Prop :=
  (∃ a, f.latestAttempt? = some a ∧ a.number = m.attemptNumber ∧ a.state = .assigned ∧
      a.runtimeSessionId = runtime) ∧
    f.work.state = .active ∧ f.work.pausedBoundaryId = none ∧
    m.payload.generation = some f.work.generation ∧ m.goalVersion = f.work.goalVersion

theorem Stands.of_eq {m : Message} {runtime : Option RuntimeId} (hf : f.Stands m runtime)
    (hattempts : g.attempts = f.attempts) (hstate : g.work.state = f.work.state)
    (hpaused : g.work.pausedBoundaryId = f.work.pausedBoundaryId)
    (hgeneration : g.work.generation = f.work.generation)
    (hgoal : g.work.goalVersion = f.work.goalVersion) : g.Stands m runtime := by
  unfold Stands latestAttempt? at *
  rw [hattempts, hstate, hpaused, hgeneration, hgoal]
  exact hf

/-- A quiet write is beside the Work and its Attempts. -/
theorem Write.eq_of_quiet {k : WriteKind} (hk : k ∈ quiet) (hw : Write f k g) :
    g.work = f.work ∧ g.attempts = f.attempts := by
  cases hw with
  | message g hsent => cases hsent <;> exact ⟨rfl, rfl⟩
  | number | prune | abandon | lease | supersede | record | rederive => exact ⟨rfl, rfl⟩
  | handover k number u m hm => cases hm <;> simp [quiet] at hk
  | complete | decide | giveUp | sealDecision | close | acknowledge | cancel | finish | attend
  | bypass | release | renew | renewContinued | replace | replaceContinued | reply | pause | resume
  | review | reject | accept => simp [quiet] at hk

theorem eq_of_quiet (hw : Relation.ReflTransGen (Writes quiet) f g) :
    g.work = f.work ∧ g.attempts = f.attempts := by
  induction hw with
  | refl => exact ⟨rfl, rfl⟩
  | tail _ hlast ih =>
    obtain ⟨k, hk, hlast⟩ := hlast
    obtain ⟨hwork, hattempts⟩ := hlast.eq_of_quiet hk
    exact ⟨hwork.trans ih.1, hattempts.trans ih.2⟩

/-! ## Transactions on an active Work -/

theorem makes_recordBoundaryTx_quiet (env : Env) (sourceId : PrincipalId) (role : PrincipalRole)
    (r : BoundaryInput) : Makes (Writes quiet) f (recordBoundaryTx env sourceId role r) :=
  wp_mono (wp_recordBoundaryTx env sourceId role r) (fun _ _ h => h.1) fun _ h => h

theorem makes_backfill_quiet (env : Env) : Makes (Writes quiet) f (backfillRecoveryActions env) :=
  makes_mono (by decide) (makes_backfillRecoveryActions env)

/-- What the reconciliation of recoveries leaves alone. -/
theorem dispositions_of_reconciled
    (hw : Relation.ReflTransGen (Writes reconciliations) f g) : g.dispositions = f.dispositions := by
  induction hw with
  | refl => rfl
  | tail _ hlast ih =>
    obtain ⟨k, hk, hlast⟩ := hlast
    cases hlast with
    | abandon | supersede | rederive => exact ih
    | handover _ _ _ _ hm => cases hm <;> simp [reconciliations] at hk
    | number | message | prune | lease | complete | decide | giveUp | sealDecision | close | record
    | acknowledge | cancel | finish | attend | bypass | release | renew | renewContinued
    | replace | replaceContinued | reply | pause | resume | review | reject | accept =>
      simp [reconciliations] at hk

/-- A decision that was made is only looked up, and no decision pauses an
active Work. -/
theorem makes_disposeBoundary_quiet (env : Env) (actor : Actor) (id : BoundaryId)
    (r : BoundaryDispositionInput) (escalate : Bool) (hactive : f.work.state = .active)
    (h : f.Disposed id ∨ r.kind = .pause) :
    Makes (Writes quiet) f (disposeBoundary env actor id r escalate) := by
  unfold disposeBoundary
  refine .require fun _ => makes_after_check fun _ _ => .bind_of
    (P := fun _ g => g.work = f.work ∧ g.dispositions = f.dispositions)
    (wp_mono (makes_backfillRecoveryActions env) (fun _ g hg => ⟨Relation.ReflTransGen.mono
      (fun _ _ hw => hw.imp fun _ hk => ⟨(by decide : reconciliations ⊆ quiet) hk.1, hk.2⟩) _ _ hg,
      work_of_reconciled hg, dispositions_of_reconciled hg⟩) fun _ h => h) fun _ g hg => ?_
  obtain ⟨hwork, hdispositions⟩ := hg
  refine .get (.need fun b hb => .reads (reads_authorizeWorkActor actor) fun _ _ => ?_)
  split
  · exact .require fun _ => makes_pure _
  · next hnone =>
    have hpause : r.kind = .pause := by
      refine h.resolve_left fun ⟨d, hd, hid⟩ => ?_
      rw [← hdispositions] at hd
      have := List.find?_eq_none.mp hnone d hd
      simp [hid] at this
    refine makes_after_check fun _ _ => .require fun _ => .require fun _ => .require fun _ =>
      .require fun _ => .need fun t _ => .require fun _ => .require fun _ => .require fun _ =>
      .need fun a _ => .require fun _ => makes_after_check fun _ _ => ?_
    simp only [hpause, Tx.when, if_true]
    refine .reads (reads_requirePauseSafe env b) fun _ hsafe => ?_
    rw [hwork, hactive] at hsafe
    rcases hsafe.2.1 with h | h <;> cases h

theorem makes_recoverIncompleteTurn_quiet (env : Env) (id : BoundaryId) (m : WorkMessageId) (n : ℕ)
    (h : ¬ f.HasReasonerRecovery id) : Makes (Writes quiet) f (recoverIncompleteTurn env id m n) := by
  unfold recoverIncompleteTurn
  refine .get ?_
  split
  · next b m hb _ =>
    refine .ite (fun _ => makes_after_abandon (by decide) (.ite (fun hwoken => ?_) fun _ => ?_))
      fun _ => makes_pure _
    · rw [(mem_of_boundary? hb).2] at hwoken
      exact absurd hwoken h
    · exact makes_after_abandon (by decide) (makes_notice (by decide) env _)
  · exact makes_pure _

theorem makes_resumeWork_quiet (env : Env) (actor : Actor) (r : WorkResumeInput)
    (hrunning : f.work.pausedBoundaryId = none) :
    Makes (Writes quiet) f (resumeWork env actor r) := by
  unfold resumeWork
  refine makes_after_check fun _ _ => .reads (reads_enter env actor) fun _ _ => ?_
  split
  · exact makes_check _
  · refine makes_after_check fun _ _ => .get (.require fun _ => .require fun hpaused => ?_)
    rw [hrunning] at hpaused
    cases hpaused

theorem makes_replyUserNeeded_quiet (env : Env) (actor : Actor) (r : ReplyInput)
    (hactive : f.work.state = .active) : Makes (Writes quiet) f (replyUserNeeded env actor r) := by
  unfold replyUserNeeded
  refine makes_after_check fun _ _ => .reads (reads_enter env actor) fun _ _ => ?_
  split
  · exact makes_check _
  · refine makes_after_check fun _ _ => .get (.need fun a ha => ?_)
    have hstate := (Option.filter_eq_some_iff.mp ha).2
    simp [hactive] at hstate

theorem makes_review_quiet (env : Env) (actor : Actor) (r : ReviewInput)
    (hactive : f.work.state = .active) : Makes (Writes quiet) f (review env actor r) := by
  unfold review
  refine .require fun _ => makes_after_check fun _ _ => .get (.need fun a _ =>
    .reads (reads_authorizeWorkActor actor) fun _ _ => .require fun _ => ?_)
  split
  · exact makes_check _
  · refine makes_after_check fun _ _ => .require fun hreviewable => ?_
    rw [hactive] at hreviewable
    rcases hreviewable with h | h
    · cases h.2.1
    · cases h.1

theorem makes_recordRequesterDecision_quiet (env : Env) (actor : Actor)
    (r : RequesterDecisionInput) (hactive : f.work.state = .active) :
    Makes (Writes quiet) f (recordRequesterDecision env actor r) := by
  unfold recordRequesterDecision
  refine .require fun _ => .need fun attachment _ => makes_after_check fun _ _ =>
    makes_after_check fun _ _ => .get (.need fun q _ => .need fun a _ =>
    .reads (reads_authorizeWorkActor actor) fun _ _ => .need fun requester _ => .require fun _ => ?_)
  split
  · exact makes_check _
  · refine makes_after_check fun _ _ => .require fun _ => .reads reads_currentGoal fun goal _ =>
      .require fun _ => .require fun hawaiting => ?_
    rw [hactive] at hawaiting
    cases hawaiting.1

end WorkFile

/-- A call that leaves an active Work and its Attempts as they are: it
records or looks up, it waits for another state of the Work, or it repeats
what was done. -/
def Call.Quiet (world : World) (f : WorkFile) : Call → Prop
  | .recordBoundary _ _ | .acquireReasonerTurn _ _ _ _ _ _ | .recordSecondaryFailure _ _
  | .backfillRecoveryActions | .pruneMessages _ | .resumeWork _ _ | .replyUserNeeded _ _
  | .review _ _ | .recordRequesterDecision _ _ => True
  | .disposeBoundary _ id r => f.Disposed id ∨ r.kind = .pause
  | .createAttempt _ _ | .replyOpenBoundary _ _ _ _ _ | .report _ _ => world.cached.isSome
  | .recoverIncompleteTurn id _ _ => ¬ f.HasReasonerRecovery id
  | _ => False

open WorkFile Tx in
/-- **A quiet call** makes quiet writes on an active Work that is not
paused. -/
theorem Call.makes_quiet (c : Call) (env : Env) {f : WorkFile} (hc : c.Quiet env.toWorld f)
    (hactive : f.work.state = .active) (hrunning : f.work.pausedBoundaryId = none) :
    Makes (Writes quiet) f (c.run env) := by
  have hcached : env.cached.isSome → ∃ result, env.cached = some result := Option.isSome_iff_exists.mp
  cases c with
  | recordBoundary actor r =>
    exact .require fun _ => .bind (makes_recordBoundaryTx_quiet env _ _ _) fun _ _ _ => .get <|
      makes_notice (by decide) env _
  | acquireReasonerTurn actor b g l key token =>
    exact makes_acquireReasonerTurn_of (by decide) env actor b g l key token
  | recordSecondaryFailure event n =>
    exact .get (.need fun _ _ => .ite (fun _ => makes_pure _) fun _ =>
      .bind (makes_recordBoundaryTx_quiet env _ _ _) fun _ _ _ => makes_pure _)
  | backfillRecoveryActions => exact makes_backfill_quiet env
  | pruneMessages handled =>
    refine makes_modify (k := .prune) (by decide) (.prune _ fun m _ hm => ?_)
    simp only [decide_eq_true_eq]
    exact .inr (.inl hm)
  | resumeWork actor r => exact makes_resumeWork_quiet env actor r hrunning
  | replyUserNeeded actor r => exact makes_replyUserNeeded_quiet env actor r hactive
  | review actor r => exact makes_review_quiet env actor r hactive
  | recordRequesterDecision actor r => exact makes_recordRequesterDecision_quiet env actor r hactive
  | disposeBoundary actor id r =>
    exact .bind (makes_disposeBoundary_quiet env actor id r true hactive hc) fun _ _ _ =>
      makes_pure _
  | createAttempt actor r =>
    obtain ⟨result, hresult⟩ := hcached hc
    refine .reads (reads_enter env actor) fun _ _ => ?_
    rw [hresult]
    exact makes_check _
  | replyOpenBoundary actor m text key token =>
    obtain ⟨result, hresult⟩ := hcached hc
    refine makes_after_check fun _ _ => .reads (reads_enter env actor) fun _ _ => ?_
    rw [hresult]
    exact makes_check _
  | report actor r =>
    obtain ⟨result, hresult⟩ := hcached hc
    refine .get (.need fun a _ => .require fun _ => makes_after_check fun _ _ =>
      .require fun _ => ?_)
    rw [hresult]
    exact makes_check _
  | recoverIncompleteTurn id m n => exact makes_recoverIncompleteTurn_quiet env id m n hc
  | _ => exact hc.elim
