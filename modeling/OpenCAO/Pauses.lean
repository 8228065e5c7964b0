import OpenCAO.LaneHeads

/-!
# Pauses

A Work is paused at a Boundary of its current generation, when nothing of
it is being executed, and the pause is recorded in a ledger of its own. It
lasts until the supervisor resumes it, which leaves a second row, or until
the Work ends.

Four facts have to agree about a pause, and no statement writes all of
them: the pointer of the Work, its state, its generation and the ledger.
They agree because a transaction does one of four things to a Work, and
nothing else (`WorkFile.Course`): the pause – or the absence of one –
lasts, the Work ends, the pause is resumed, or the Work is paused.
-/

namespace WorkFile

open Tx

variable {f f₀ g h : WorkFile} {α β : Type}

/-! ## What becomes of a pause -/

/-- No pause was recorded, and none was resumed. -/
structure SameLedger (f g : WorkFile) : Prop where
  pauses : g.pauses = f.pauses
  resumptions : g.resumptions = f.resumptions

/-- **A Work stays paused, or not paused**; while it is paused it is left alone,
and its Attempts change in place. -/
structure Lasts (f g : WorkFile) : Prop extends SameLedger f g where
  pointer : g.work.pausedBoundaryId = f.work.pausedBoundaryId
  still : f.work.pausedBoundaryId ≠ none →
    g.work = f.work ∧ List.Forall₂ SameAttempt f.attempts g.attempts

/-- **The Work ends, and its pause with it.** -/
structure Ends (f g : WorkFile) : Prop extends SameLedger f g where
  pointer : g.work.pausedBoundaryId = none
  ended : f.work.pausedBoundaryId ≠ none →
    g.work.state.terminal = true ∧ f.work.generation < g.work.generation

/-- **The pause is resumed**: there is one resumption more, and it is of this
pause. -/
structure Resumes (f g : WorkFile) : Prop where
  pauses : g.pauses = f.pauses
  resumption : ∃ r : WorkPauseResumption, g.resumptions = r :: f.resumptions ∧
    f.work.pausedBoundaryId = some r.boundaryId ∧ r.expectedGeneration = f.work.generation ∧
    r.successorGeneration = f.work.generation + 1 ∧ ∀ q ∈ f.resumptions, q.boundaryId ≠ r.boundaryId
  running : g.work.pausedBoundaryId = none ∧ g.work.state = .active ∧ g.work.attentionOwner = .worker
  generation : g.work.generation = f.work.generation + 1

/-- **The Work is paused** at a Boundary, which it was never paused at before. -/
structure Pauses (f g : WorkFile) (id : BoundaryId) : Prop where
  running : f.work.pausedBoundaryId = none
  pause : ∃ p : WorkPause, g.pauses = p :: f.pauses ∧ p.boundaryId = id ∧
    p.sourceGeneration = f.work.generation ∧ p.pauseGeneration = f.work.generation + 1 ∧
    ∀ q ∈ f.pauses, q.boundaryId ≠ id
  resumptions : g.resumptions = f.resumptions
  suspended : g.work.pausedBoundaryId = some id ∧ g.work.state = .suspended
  generation : g.work.generation = f.work.generation + 1

theorem Lasts.refl (f : WorkFile) : Lasts f f := ⟨⟨rfl, rfl⟩, rfl, fun _ => ⟨rfl, sameAttempts_refl⟩⟩

theorem SameLedger.beside (h : SameLedger f g) {g' : WorkFile} (hb : Beside g g') :
    SameLedger f g' := ⟨hb.pauses.trans h.pauses, hb.resumptions.trans h.resumptions⟩

theorem Lasts.beside (h : Lasts f g) {g' : WorkFile} (hb : Beside g g') : Lasts f g' where
  toSameLedger := h.toSameLedger.beside hb
  pointer := by
    rw [hb.work]
    exact h.pointer
  still := by
    intro hpaused
    obtain ⟨hwork, hattempts⟩ := h.still hpaused
    exact ⟨hb.work.trans hwork, Rows.evolve_trans (fun _ _ _ h₁ h₂ => h₁.trans h₂) hattempts
      hb.attempts⟩

theorem Ends.beside (h : Ends f g) {g' : WorkFile} (hb : Beside g g') : Ends f g' where
  toSameLedger := h.toSameLedger.beside hb
  pointer := by
    rw [hb.work]
    exact h.pointer
  ended := by
    rw [hb.work]
    exact h.ended

theorem Pauses.beside {id : BoundaryId} (h : Pauses f g id) {g' : WorkFile} (hb : Beside g g') :
    Pauses f g' id where
  running := h.running
  pause := by
    rw [hb.pauses]
    exact h.pause
  resumptions := hb.resumptions.trans h.resumptions
  suspended := by
    rw [hb.work]
    exact h.suspended
  generation := by
    rw [hb.work]
    exact h.generation

theorem Move.pointer_of_runs {m : Move} (h : m.runs = true) (w : Work) :
    (m.apply w).pausedBoundaryId = w.pausedBoundaryId := by
  cases m <;> first | rfl | cases h

/-- A Work that is not paused may move as long as its pointer stays where it
is. -/
theorem Lasts.moved (h : Lasts f g) {m : Move} (hrunning : g.work.pausedBoundaryId = none)
    (hm : (m.apply g.work).pausedBoundaryId = g.work.pausedBoundaryId) : Lasts f (moved m g) where
  toSameLedger := ⟨h.pauses, h.resumptions⟩
  pointer := hm.trans h.pointer
  still hpaused := absurd (h.pointer ▸ hrunning) hpaused

instance (f : WorkFile) : Steady (Lasts f) where
  beside h hb _ := h.beside hb
  sent h hb _ _ := h.beside hb
  moved h hm hmovable := h.moved (hmovable.unpaused hm) (Move.pointer_of_runs hm _)

instance (f : WorkFile) : Still (Ends f) where
  beside h hb _ := h.beside hb
  sent h hb _ _ := h.beside hb

instance (f : WorkFile) (id : BoundaryId) : Still fun g => Pauses f g id where
  beside h hb _ := h.beside hb
  sent h hb _ _ := h.beside hb

/-! ## Programs that leave a pause alone -/

/-- Any message. -/
theorem keeps_lasts_message (env : Env) (r : MessageRequest) :
    Keeps (Lasts f) (message env r) := fun g hg => by
  refine wp_mono (wp_message_request env r) (fun _ g' hg' => ?_) fun _ h => h
  rcases hg' with rfl | ⟨m, -, rfl⟩
  · exact hg
  · exact hg.beside ⟨rfl, sameAttempts_refl, rfl, rfl⟩

/-- What may be done to a Work that is not paused. -/
theorem keeps_lasts_startAttempt (hrunning : f.work.pausedBoundaryId = none) (previous : Attempt)
    {m : Move} (hm : ∀ w, (m.apply w).pausedBoundaryId = w.pausedBoundaryId) (a : Attempt) :
    Keeps (Lasts f) (startAttempt previous m a) := fun g hg => by
  rw [wp_startAttempt]
  refine ⟨fun _ => ⟨fun _ => ?_, fun _ => trivial⟩, fun _ => trivial⟩
  rw [givenUp_eq]
  exact ⟨⟨hg.pauses, hg.resumptions⟩, (hm _).trans hg.pointer, fun h => absurd hrunning h⟩

theorem keeps_lasts_consume (actorId : PrincipalId) (work : Work) (continuation : Option Boundary)
    (source successor generation : ℕ) (id : WorkMessageId) :
    Keeps (Lasts f) (consume actorId work continuation source successor generation id) := by
  unfold consume
  split
  · exact keeps_consumeUserNeededBoundary _ _ _ _ _ _ _
  · exact keeps_pure _

/-- A program that starts by asking for a Work that is not paused. -/
theorem keeps_lasts_of_running {c : Prop} [Decidable c] (hc : c) {k : PUnit → FileTx α}
    (hk : f.work.pausedBoundaryId = none → Keeps (Lasts f) (k ⟨⟩)) :
    Keeps (Lasts f) (Tx.when c requireNotPaused >>= k) := fun g hg => by
  rw [wp_bind, wp_when]
  refine ⟨fun _ => ?_, fun h => absurd hc h⟩
  refine wp_mono (reads_requireNotPaused (f := g)) (fun _ g' hg' => ?_) fun _ _ => trivial
  rw [hg'.1]
  exact hk (hg.pointer.symm.trans hg'.2) g hg

/-- **Another Attempt.** -/
theorem keeps_lasts_retryAttempt (env : Env) (actorId : PrincipalId) (previous : Attempt)
    (reason : String) (worker : Option PrincipalId) (action : MessageAction) :
    Keeps (Lasts f) (retryAttempt env actorId previous reason worker false action) :=
  keeps_lasts_of_running rfl fun hrunning => .bind (keeps_of_reads fun _ => reads_currentGoal)
    fun _ => .bind (keeps_of_reads fun _ => reads_currentUserNeededBoundary _ _) fun _ =>
    keeps_after_check fun _ => .get fun _ => .bind keeps_fenceReasonerTurns fun _ =>
    .bind (keeps_lasts_startAttempt hrunning _ (fun _ => by split <;> rfl) _) fun _ =>
    keeps_after_check fun _ => .bind (keeps_lasts_message env _) fun _ =>
    .bind (keeps_lasts_consume _ _ _ _ _ _ _) fun _ => keeps_pure _

theorem keeps_lasts_applyContinue (env : Env) (actor : Actor) (b : Boundary) (a : Attempt)
    (r : BoundaryDispositionInput) (action : MessageAction) :
    Keeps (Lasts f) (applyContinue env actor b a r action) := by
  have hretry : Keeps (Lasts f)
      (do let _ ← retryAttempt env actor.id a r.reason none false action) :=
    .bind (keeps_lasts_retryAttempt env _ _ _ _ _) fun _ => keeps_pure _
  refine .ite (fun _ => hretry) fun _ => keeps_after_check fun admission =>
    .require (.ite (fun _ => hretry) fun _ => ?_)
  exact .get fun _ => .bind (keeps_handOver _ _ rfl) fun _ => keeps_notice env fun h => (nomatch h)

/-- The decisions that neither pause the Work nor end it. -/
theorem keeps_lasts_applyDisposition (env : Env) (actor : Actor) (b : Boundary) (a : Attempt)
    (review : Option Review) {r : BoundaryDispositionInput} (hpause : r.kind ≠ .pause)
    (hcancel : r.kind ≠ .cancel) : Keeps (Lasts f) (applyDisposition env actor b a review r) := by
  unfold applyDisposition
  cases hkind : r.kind with
  | «continue» => exact keeps_lasts_applyContinue env actor b a r _
  | correct => exact keeps_lasts_applyContinue env actor b a r _
  | pause => exact absurd hkind hpause
  | waitUser => exact keeps_handOver _ _ rfl
  | accept =>
    exact .ite (fun _ => keeps_after_check fun _ => keeps_verify _) fun _ => keeps_handOver _ _ rfl
  | cancel => exact absurd hkind hcancel
  | retry => exact .bind (keeps_lasts_retryAttempt env _ _ _ _ _) fun _ => keeps_pure _
  | fail => exact keeps_pure _

/-- What follows a decision in its transaction. -/
theorem keeps_decided {I : WorkFile → Prop} [Still I] (env : Env) (actor : Actor) (b : Boundary)
    (a : Attempt) (work : Work) (r : BoundaryDispositionInput) (d : BoundaryDisposition)
    (result : Digest) :
    Keeps I (do
      completeTurn r.turnId result
      Tx.when (r.kind = .waitUser ∨ r.kind = .pause) do
        let _ ← message env (escalationMessage actor work b a d)
      Tx.when (r.kind = .cancel)
        (supersedeBoundaries (fun c => c.generation ≤ r.expectedGeneration) .workTerminalDisposition)
      pure d) :=
  .bind (keeps_change fun _ => rfl) fun _ =>
    .bind (.when fun _ => keeps_notice env (by simp [escalationMessage])) fun _ =>
    .bind (.when fun _ => keeps_supersedeBoundaries _ _) fun _ => keeps_pure _

theorem keeps_lasts_decideBoundary (env : Env) (actor : Actor) (b : Boundary) (a : Attempt)
    (review : Option Review) {r : BoundaryDispositionInput} (hpause : r.kind ≠ .pause)
    (hcancel : r.kind ≠ .cancel) : Keeps (Lasts f) (decideBoundary env actor b a review r) :=
  .get fun _ => .bind keeps_newId fun _ => .bind (keeps_insertDisposition _) fun _ =>
    .bind (keeps_lasts_applyDisposition env actor b a review hpause hcancel) fun _ =>
    keeps_decided env actor b a _ r _ _

theorem keeps_lasts_disposeBoundary (env : Env) (actor : Actor) (id : BoundaryId)
    {r : BoundaryDispositionInput} (hpause : r.kind ≠ .pause) (hcancel : r.kind ≠ .cancel)
    (escalate : Bool) : Keeps (Lasts f) (disposeBoundary env actor id r escalate) := by
  unfold disposeBoundary
  refine .require (keeps_after_check fun _ => .bind (keeps_backfill env) fun _ => .get fun g =>
    .need fun b => .bind (keeps_of_reads fun _ => reads_authorizeWorkActor actor) fun _ => ?_)
  split
  · exact .require (keeps_pure _)
  · refine keeps_after_check fun _ => .require (.require (.require (.require (.need fun t =>
      .require (.require (.require (.need fun a => .require (keeps_after_check fun _ =>
      .bind (.when fun h => absurd h hpause) fun _ => .ite (fun _ => ?_) fun _ => ?_))))))))
    · split
      · exact keeps_lasts_decideBoundary env actor b a _ hpause hcancel
      · exact keeps_escalateSupervision env b _ _ _
      · exact keeps_throw _
    · exact keeps_lasts_decideBoundary env actor b a _ hpause hcancel

theorem keeps_lasts_sealRetry (env : Env) (actor : Actor) (previous : Attempt) (b : Boundary)
    (r : RetryInput) : Keeps (Lasts f) (sealRetry env actor previous b r) :=
  .get fun _ => .bind keeps_newId fun _ => .bind keeps_newId fun _ =>
    .bind (keeps_insertTurn env _) fun _ => .bind (keeps_insertDisposition _) fun _ =>
    .bind (keeps_lasts_retryAttempt env _ _ _ _ _) fun _ => keeps_pure _

theorem keeps_lasts_createAttempt (env : Env) (actor : Actor) (r : RetryInput) :
    Keeps (Lasts f) (createAttempt env actor r) := by
  unfold createAttempt
  refine .bind (keeps_enter env actor) fun _ => ?_
  split
  · exact keeps_check _
  · refine .get fun g => .need fun previous => .require ?_
    split
    · exact .ite (fun _ => keeps_check _) fun _ => .bind (keeps_of_reads fun _ =>
        reads_requireRetriable) fun _ => .require (keeps_after_check fun _ =>
        .require (keeps_lasts_sealRetry env actor _ _ r))
    · exact .bind (keeps_of_reads fun _ => reads_requireRetriable) fun _ =>
        keeps_after_check fun _ => .require (.bind (keeps_recordBoundaryTx env _ _ _) fun _ =>
        keeps_lasts_sealRetry env actor _ _ r)

theorem keeps_lasts_replyUserNeeded (env : Env) (actor : Actor) (r : ReplyInput) :
    Keeps (Lasts f) (replyUserNeeded env actor r) := by
  unfold replyUserNeeded
  refine keeps_after_check fun _ => .bind (keeps_enter env actor) fun _ => ?_
  split
  · exact keeps_check _
  · refine keeps_after_check fun _ => .get fun _ => .need fun a => .bind (keeps_of_reads fun _ =>
      reads_currentUserNeededBoundary _ _) fun _ => .need fun b => keeps_after_check fun admission =>
      .ite (fun _ => ?_) fun _ => ?_
    · exact .bind (keeps_lasts_retryAttempt env _ _ _ _ _) fun _ => keeps_pure _
    · exact .bind (keeps_message env fun h => (nomatch h)) fun _ =>
        .bind (keeps_consumeUserNeededBoundary _ _ _ _ _ _ _) fun _ => keeps_setAttemptState _ _

theorem keeps_lasts_replyOpenBoundary (env : Env) (actor : Actor)
    (inReplyTo : Option WorkMessageId) (text key token : String) :
    Keeps (Lasts f) (replyOpenBoundary env actor inReplyTo text key token) := by
  unfold replyOpenBoundary
  refine keeps_after_check fun _ => .bind (keeps_enter env actor) fun _ => ?_
  split
  · exact keeps_check _
  · refine keeps_after_check fun _ => .bind (keeps_of_reads fun _ => reads_requireNotPaused)
      fun _ => .get fun _ => .need fun _ => .when fun _ => .bind (keeps_of_reads fun _ =>
      reads_repliedBoundary _) fun id => ?_
    exact .get fun _ => .need fun b => .require (.require (.bind (keeps_abandonTurns _) fun _ =>
      .bind keeps_newId fun _ => .bind (keeps_insertTurn env _) fun _ =>
      .bind (keeps_lasts_disposeBoundary env actor _ (by simp) (by simp) _) fun _ => keeps_pure _))

/-- **Another goal.** -/
theorem keeps_lasts_replaceGoal (env : Env) (actorId : PrincipalId) (r : WorkAssignment)
    (reason : String) (directive : DirectiveId) (intent receipt : Option ℕ)
    (purpose : Option String) :
    Keeps (Lasts f) (replaceGoal env actorId r reason directive intent receipt purpose) :=
  keeps_lasts_of_running (c := True) trivial fun hrunning => .get fun _ => .need fun previous =>
    .bind (keeps_of_reads fun _ => reads_currentUserNeededBoundary _ _) fun _ =>
    keeps_after_check fun _ => keeps_after_check fun _ =>
    .bind (keeps_of_reads fun _ => reads_currentGoal) fun _ =>
    .bind (keeps_of_reads fun _ => reads_attachmentPacket env) fun _ =>
    .bind keeps_fenceReasonerTurns fun _ => .bind (keeps_statement fun _ => rfl) fun _ =>
    .bind (keeps_lasts_startAttempt hrunning _ (fun _ => by split <;> rfl) _) fun _ =>
    .bind (keeps_lasts_message env _) fun _ => .bind (keeps_lasts_consume _ _ _ _ _ _ _) fun _ =>
    keeps_supersedeBoundaries _ _

/-- The return to a Work that was interrupted is none to a Work that is paused. -/
theorem keeps_lasts_resumeInterruptedTarget
    (hpaused : f.work.pausedBoundaryId ≠ none → f.work.suspendedByWorkItemId = none) (env : Env)
    (w : WorkId) (resumer : PrincipalId) :
    Keeps (Lasts f) (resumeInterruptedTarget env w resumer) := fun g hg => by
  unfold resumeInterruptedTarget
  refine Ensures.get (.ite (fun hwaits => ?_) fun _ => hg)
  have hrunning : f.work.pausedBoundaryId = none := by
    by_contra h
    have hnone := hpaused h
    rw [← (hg.still h).1, hwaits.2] at hnone
    cases hnone
  refine Keeps.bind keeps_fenceReasonerTurns (fun _ => ?_) g hg
  split
  · exact keeps_move rfl
  · split
    · exact keeps_pure _
    · exact keeps_throw _
    · refine .ite (fun _ => .bind (keeps_lasts_retryAttempt env _ _ _ _ _) fun _ => ?_) fun _ => ?_
      · intro g hg
        unfold move
        rw [Tx.wp_statement]
        exact ⟨fun _ => hg.moved (hg.pointer.trans hrunning) rfl, fun _ => trivial⟩
      · exact .bind (keeps_move rfl) fun _ => .bind (.when fun _ => keeps_setAttemptState _ _)
          fun _ => keeps_notice env fun h => (nomatch h)

/-! ## The end of a Work -/

theorem Lasts.ends_of_running (h : Lasts f g) (hrunning : f.work.pausedBoundaryId = none) :
    Ends f g := ⟨h.toSameLedger, h.pointer.trans hrunning, fun hid => absurd hrunning hid⟩

/-- The updates that end a Work end its pause. -/
theorem Lasts.ends (h : Lasts f g) {m : Move} (hm : m = .cancel ∨ ∃ keeps, m = .finish keeps) :
    Ends f (WorkFile.moved m g) where
  toSameLedger := ⟨h.pauses, h.resumptions⟩
  pointer := by rcases hm with rfl | ⟨keeps, rfl⟩ <;> rfl
  ended := by
    intro hid
    obtain ⟨hwork, -⟩ := h.still hid
    rcases hm with rfl | ⟨keeps, rfl⟩
    all_goals
      refine ⟨rfl, ?_⟩
      show f.work.generation < g.work.generation + 1
      rw [hwork]
      exact Nat.lt_succ_self _

theorem ends_move (h : Lasts f g) {m : Move} (hm : m = .cancel ∨ ∃ keeps, m = .finish keeps) :
    Ensures g (move m) fun _ => Ends f := by
  unfold move Ensures
  rw [Tx.wp_statement]
  exact ⟨fun _ => h.ends hm, fun _ => trivial⟩

theorem ends_applyCancel (h : Lasts f g) (a : Attempt) :
    Ensures g (applyCancel a) fun _ => Ends f :=
  .bind (keeps_fenceReasonerTurns g h) fun _ _ h => .bind
    (keeps_withAttempt _ (sameAttempt_inState _) _ h) fun _ _ h => ends_move h (.inl rfl)

section Ends

variable (hpaused : f.work.pausedBoundaryId ≠ none → f.work.state = .suspended)

include hpaused

/-- A Work that has ended is not paused. -/
theorem running_of_terminal (hterminal : f.work.state.terminal = true) :
    f.work.pausedBoundaryId = none := by
  by_contra hid
  rw [hpaused hid] at hterminal
  cases hterminal

theorem ends_cancelWork (h : Lasts f g) (env : Env) (actorId : PrincipalId) (reason : String)
    (directive : Option DirectiveId) :
    Ensures g (cancelWork env actorId reason directive) fun _ => Ends f := by
  unfold cancelWork
  refine .get (.require fun _ => .ite (fun hcanceled => h.ends_of_running ?_) fun _ => ?_)
  · by_contra hid
    rw [(h.still hid).1, hpaused hid] at hcanceled
    cases hcanceled
  · refine .bind (keeps_fenceReasonerTurns g h) fun _ g h => .bind (ends_move h (.inl rfl))
      fun _ g h => ?_
    exact Keeps.bind (keeps_cancelAttempt env _ _ _ _ _) (fun _ => .get fun _ =>
      keeps_supersedeBoundaries _ _) g h

theorem ends_closeConversationWork (env : Env) (actor : Actor) (attachment : AttachmentId) :
    Ensures f (closeConversationWork env actor attachment) fun _ => Ends f := by
  unfold closeConversationWork
  refine .get (.bind (keeps_closeBoundaries env actor attachment _ f (Lasts.refl f))
    fun _ g h => .ite (fun hterminal => ?_) fun _ => ends_cancelWork hpaused h env _ _ _)
  exact h.ends_of_running (running_of_terminal hpaused hterminal)

theorem ends_finishWorker (worker : PrincipalId) (keeps : Bool) :
    Ensures f (finishWorker worker keeps) fun _ => Ends f := by
  unfold finishWorker
  refine .get (.require fun _ => .ite (fun hterminal => ?_) fun _ => ?_)
  · exact (Lasts.refl f).ends_of_running (running_of_terminal hpaused hterminal)
  · refine .bind (keeps_fenceReasonerTurns f (Lasts.refl f)) fun _ g h =>
      .bind (ends_move h (.inr ⟨_, rfl⟩)) fun _ g h => ?_
    have hended : Beside g (endAttempts g) := ⟨rfl, sameAttempts_endAttempts, rfl, rfl⟩
    exact keeps_supersedeBoundaries (I := Ends f) _ _ _ (h.beside hended)

end Ends

end WorkFile
