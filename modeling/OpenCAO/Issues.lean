import OpenCAO.Steady

/-!
# The assignments that a transaction issues

An assignment that is queued is to stand until its Worker has it, and it
does so from the start: whatever a transaction issues, stands when the
transaction is over. Two programs issue assignments, the one for another
Attempt (`retryAttempt`) and the one for another goal (`replaceGoal`), and
both seal the authority that they themselves give to the Work; nothing
that follows them in their transactions moves the Work again.

All other programs are *silent*: they send no assignment, whatever else
they write (`Said`).
-/

namespace WorkFile

open Tx

variable {ms : List Message} {f g : WorkFile} {α β : Type}

/-- **No assignment was sent but these.** -/
def Said (ms : List Message) (f : WorkFile) : Prop :=
  ∀ m ∈ f.messages, m.kind = .assignment → m ∈ ms

theorem said_self (f : WorkFile) : Said f.messages f := fun _ hm _ => hm

theorem Said.of_subset (hf : Said ms f) (h : g.messages ⊆ f.messages) : Said ms g :=
  fun m hm => hf m (h hm)

theorem said_moved (f : WorkFile) (m : Move) (hf : Said ms f) : Said ms (moved m f) := hf

instance (ms : List Message) : Steady (Said ms) where
  beside hf _ h := hf.of_subset h
  sent := by
    intro f g m hf _ hm hg m' hm' hkind
    rw [hg] at hm'
    rcases List.mem_cons.mp hm' with rfl | hold
    · exact absurd hkind hm
    · exact hf m' hold hkind
  moved hf _ _ := hf

theorem keeps_said_advance (number : ℕ) (u : Attempt → Attempt) (m : Move) :
    Keeps (Said ms) (advance number u m) :=
  .bind (keeps_modify fun _ hf => hf) fun _ => keeps_endWork said_moved m

theorem keeps_pauseWork (env : Env) (actorId : PrincipalId) (a : Attempt) (b : Boundary) :
    Keeps (Said ms) (pauseWork env actorId a b) :=
  .bind (keeps_of_reads fun _ => reads_requirePauseSafe env b) fun _ => .get fun _ =>
    .bind (fun f hf => by
      unfold insertPause
      rw [Tx.wp_statement]
      exact ⟨fun _ => hf.of_subset (List.Subset.refl _), fun _ => trivial⟩) fun _ =>
    keeps_said_advance _ _ _

/-! ## Assignments that are handed over -/

/-- **The assignment is handed to the Worker**: it stands, and the Work is with
that Worker. -/
def Handed (f : WorkFile) (m : Message) (recipientId : PrincipalId) (runtime : Option RuntimeId) :
    Prop :=
  f.Stands m runtime ∧ f.work.attentionOwner = .worker ∧ f.work.assignedWorkerId = recipientId ∧
    ∃ a ∈ f.latestAttempt?, a.workerId = recipientId

/-- **All assignments but these are handed to their Workers**, on the runtime of
the latest Attempt. -/
def Issued (ms : List Message) (f : WorkFile) : Prop :=
  ∀ m ∈ f.messages, m.kind = .assignment →
    m ∈ ms ∨ ∃ a ∈ f.latestAttempt?, f.Handed m m.recipientId a.runtimeSessionId

theorem Said.issued (hf : Said ms f) : Issued ms f := fun m hm hkind => .inl (hf m hm hkind)

theorem issued_of_keeps {m : FileTx α} (h : Keeps (Said ms) m) (hf : Said ms f) :
    Ensures f m fun _ => Issued ms := wp_mono (h f hf) (fun _ _ hg => hg.issued) fun _ h => h

theorem Handed.of_eq {m : Message} {recipient : PrincipalId} {runtime : Option RuntimeId}
    (hf : f.Handed m recipient runtime) (hattempts : g.attempts = f.attempts)
    (hwork : g.work = { f.work with suspendedByWorkItemId := g.work.suspendedByWorkItemId }) :
    g.Handed m recipient runtime := by
  obtain ⟨hstands, hattention, hassignee, hworker⟩ := hf
  refine ⟨hstands.of_eq hattempts ?_ ?_ ?_ ?_, ?_, ?_, ?_⟩
  · rw [hwork]
  · rw [hwork]
  · rw [hwork]
  · rw [hwork]
  · rw [hwork]
    exact hattention
  · rw [hwork]
    exact hassignee
  · unfold latestAttempt? at *
    rw [hattempts]
    exact hworker

/-- What follows an assignment in its transaction leaves the Work and its
Attempts alone, and sends no other. -/
theorem Issued.of_eq (hf : Issued ms f) (hattempts : g.attempts = f.attempts)
    (hwork : g.work = { f.work with suspendedByWorkItemId := g.work.suspendedByWorkItemId })
    (hmessages : ∀ m ∈ g.messages, m.kind = .assignment → m ∈ f.messages) : Issued ms g := by
  intro m hm hkind
  rcases hf m (hmessages m hm hkind) hkind with hold | ⟨a, ha, hhanded⟩
  · exact .inl hold
  · refine .inr ⟨a, ?_, hhanded.of_eq hattempts hwork⟩
    unfold latestAttempt? at *
    rw [hattempts]
    exact ha

theorem keeps_issued {c : WorkFile → Prop} [DecidablePred c] {error : String}
    {change : WorkFile → WorkFile} (hattempts : ∀ f, (change f).attempts = f.attempts)
    (hwork : ∀ f, (change f).work = f.work) (hmessages : ∀ f, (change f).messages = f.messages) :
    Keeps (Issued ms) (Tx.statement c error change) := fun f hf => by
  rw [Tx.wp_statement]
  refine ⟨fun _ => hf.of_eq (hattempts f) ?_ fun m hm _ => ?_, fun _ => trivial⟩
  · rw [hwork f]
  · rw [← hmessages f]
    exact hm

theorem keeps_issued_abandonTurns (p : ReasonerTurn → Bool) :
    Keeps (Issued ms) (abandonTurns p) := keeps_modify fun _ hf => hf.of_eq rfl rfl fun _ hm _ => hm

theorem keeps_issued_completeTurn (id : TurnId) (result : Digest) :
    Keeps (Issued ms) (completeTurn id result) :=
  keeps_modify fun _ hf => hf.of_eq rfl rfl fun _ hm _ => hm

theorem keeps_issued_supersedeBoundaries (p : Boundary → Bool) (reason : SupersessionReason) :
    Keeps (Issued ms) (supersedeBoundaries p reason) :=
  .get fun _ => .each fun _ _ =>
    .bind (keeps_issued (fun _ => rfl) (fun _ => rfl) fun _ => rfl) fun _ =>
      keeps_issued_abandonTurns _

theorem keeps_issued_notice (env : Env) {r : MessageRequest} (hr : r.kind ≠ .assignment) :
    Keeps (Issued ms) (do let _ ← message env r) := by
  refine .bind (fun f hf => ?_) fun _ => keeps_pure _
  refine wp_mono (wp_message_request env r) (fun _ g hg => ?_) fun _ _ => trivial
  rcases hg with rfl | ⟨m, hrequest, rfl⟩
  · exact hf
  · refine hf.of_eq rfl rfl fun m' hm' hkind => ?_
    rcases List.mem_cons.mp hm' with rfl | hold
    · rw [← hrequest] at hr
      exact absurd hkind hr
    · exact hold

/-- An update that leaves the Work in another state than suspended leaves it
unpaused. -/
theorem Movable.running {m : Move} (hm : Movable m f) (h : (m.apply f.work).state ≠ .suspended) :
    (m.apply f.work).pausedBoundaryId = none := by
  cases hpaused : (m.apply f.work).pausedBoundaryId with
  | none => rfl
  | some id => exact absurd (hm.2.2.1 id hpaused).1 h

/-- An Attempt was started, by an update of its Work. -/
structure Started (f : WorkFile) (m : Move) (a : Attempt) (g : WorkFile) : Prop where
  work : g.work = m.apply f.work
  latest : g.latestAttempt? = some a
  messages : g.messages = f.messages
  running : g.work.state ≠ .suspended → g.work.pausedBoundaryId = none

theorem Started.said {m : Move} {a : Attempt} (h : Started f m a g) (hf : Said ms f) : Said ms g :=
  hf.of_subset (h.messages ▸ List.Subset.refl _)

theorem ensures_startAttempt (previous : Attempt) (m : Move) (a : Attempt) :
    Ensures f (startAttempt previous m a) fun _ g => Started f m a g := by
  unfold Ensures
  rw [wp_startAttempt]
  refine ⟨fun hm => ⟨fun _ => ?_, fun _ => trivial⟩, fun _ => trivial⟩
  have hrunning := hm.running
  rw [givenUp_eq] at hrunning
  rw [givenUp_eq]
  exact ⟨rfl, rfl, rfl, hrunning⟩

/-- A message was asked for, and nothing else happened. -/
structure Asked (r : MessageRequest) (f g : WorkFile) : Prop where
  work : g.work = f.work
  attempts : g.attempts = f.attempts
  messages : g.messages = f.messages ∨
    ∃ m : Message, m.toMessageRequest = r ∧ g.messages = m :: f.messages

theorem ensures_message (env : Env) (r : MessageRequest) :
    Ensures f (message env r) fun _ g => Asked r f g := by
  refine wp_mono (wp_message_request env r) (fun _ g hg => ?_) fun _ _ => trivial
  rcases hg with rfl | ⟨m, hrequest, rfl⟩
  · exact ⟨rfl, rfl, .inl rfl⟩
  · exact ⟨rfl, rfl, .inr ⟨m, hrequest, rfl⟩⟩

/-- The Work after the decision of a requester, if there was one, is
consumed. -/
theorem ensures_consume (actorId : PrincipalId) (work : Work) (continuation : Option Boundary)
    (source successor generation : ℕ) (id : WorkMessageId) :
    Ensures f (consume actorId work continuation source successor generation id) fun _ g =>
      g.attempts = f.attempts ∧ g.messages = f.messages ∧
        (continuation = none → g.work = f.work) ∧
        (continuation.isSome → g.work = (Move.consume generation).apply f.work ∧
          g.work.pausedBoundaryId = none) := by
  unfold consume
  cases continuation with
  | none => exact ⟨rfl, rfl, fun _ => rfl, fun h => (nomatch h)⟩
  | some b =>
    refine wp_mono (wp_consumeUserNeededBoundary actorId work b source successor generation id)
      (fun _ g hg => ?_) fun _ h => h
    obtain ⟨c, hconsumed, -, rfl⟩ := hg
    cases hconsumed with
    | intro _ hm =>
      exact ⟨rfl, rfl, fun h => (nomatch h), fun _ => ⟨rfl, hm.running (by simp [Move.apply])⟩⟩

/-- **An assignment is handed over** when it was asked for about the latest
Attempt, and the Work is active under the authority that it seals. -/
theorem issued_of_asked {f₁ : WorkFile} {a : Attempt} {r : MessageRequest} (hf : Said ms f)
    (hlatest : f.latestAttempt? = some a) (hasked : Asked r f f₁)
    (hattempts : g.attempts = f₁.attempts) (hmessages : g.messages = f₁.messages)
    (hassigned : a.state = .assigned) (hnumber : a.number = r.attemptNumber)
    (hworker : a.workerId = r.recipientId) (hstate : g.work.state = .active)
    (hattention : g.work.attentionOwner = .worker) (hassignee : g.work.assignedWorkerId = r.recipientId)
    (hrunning : g.work.pausedBoundaryId = none)
    (hgeneration : r.payload.generation = some g.work.generation)
    (hgoal : r.goalVersion = g.work.goalVersion) : Issued ms g := by
  have hlatest : g.latestAttempt? = some a := by
    unfold latestAttempt? at *
    rw [hattempts, hasked.attempts]
    exact hlatest
  have hnew : ∀ m : Message, m.toMessageRequest = r →
      ∃ a ∈ g.latestAttempt?, g.Handed m m.recipientId a.runtimeSessionId := by
    rintro m rfl
    exact ⟨a, hlatest, ⟨⟨a, hlatest, hnumber, hassigned, rfl⟩, hstate, hrunning, hgeneration,
      hgoal⟩, hattention, hassignee, a, hlatest, hworker⟩
  intro m hm hkind
  rw [hmessages] at hm
  rcases hasked.messages with hsame | ⟨m', hrequest, hsent⟩
  · rw [hsame] at hm
    exact .inl (hf m hm hkind)
  · rw [hsent] at hm
    rcases List.mem_cons.mp hm with rfl | hm
    · exact .inr (hnew m hrequest)
    · exact .inl (hf m hm hkind)

/-- **Another Attempt is handed over.** -/
theorem issued_retryAttempt (hf : Said ms f) (env : Env) (actorId : PrincipalId)
    (previous : Attempt) (reason : String) (worker : Option PrincipalId) (paused : Bool)
    (action : MessageAction) :
    Ensures f (retryAttempt env actorId previous reason worker paused action) fun _ =>
      Issued ms := by
  unfold retryAttempt
  refine (reads_when reads_requireNotPaused).bind fun _ _ => reads_currentGoal.bind
    fun goal _ => (reads_currentUserNeededBoundary _ _).bind fun continuation _ =>
    ensures_after_check fun admission _ => .get ?_
  unfold fenceReasonerTurns
  refine .bind (P := fun _ g => g = abandon (fun _ => true) f) rfl fun _ f₀ hf₀ =>
    .bind (ensures_startAttempt _ _ _) fun _ f₁ hstarted => ensures_after_check fun _ _ =>
    .bind (ensures_message env _) fun id f₂ hasked =>
    .bind (ensures_consume _ _ _ _ _ _ _) fun _ g hg => ?_
  obtain ⟨hattempts, hmessages, hnone, hsome⟩ := hg
  have hworks : f₂.work = _ := hasked.work.trans hstarted.work
  rw [hf₀] at hworks hstarted
  have hsaid : Said ms f₁ := hstarted.said hf
  cases continuation with
  | none =>
    have hwork := (hnone rfl).trans hworks
    refine issued_of_asked hsaid hstarted.latest hasked hattempts hmessages rfl rfl rfl ?_ ?_ ?_ ?_ ?_ ?_
    · rw [hwork]
      rfl
    · rw [hwork]
      rfl
    · rw [hwork]
      rfl
    · rw [hnone rfl, hasked.work]
      refine hstarted.running ?_
      rw [hstarted.work]
      simp [Move.apply]
    · rw [hwork]
      rfl
    · rw [hwork]
      rfl
  | some b =>
    obtain ⟨hwork, hrunning⟩ := hsome rfl
    rw [hworks] at hwork
    refine issued_of_asked hsaid hstarted.latest hasked hattempts hmessages rfl rfl rfl ?_ ?_ ?_ hrunning
      ?_ ?_
    · rw [hwork]
      rfl
    · rw [hwork]
      rfl
    · rw [hwork]
      rfl
    · rw [hwork]
      rfl
    · rw [hwork]
      rfl

/-- **Another goal is handed over**, where its Work does not wait for another. -/
theorem issued_replaceGoal (hf : Said ms f) (hstate : f.work.state ≠ .suspended) (env : Env)
    (actorId : PrincipalId) (r : WorkAssignment) (reason : String) (directive : DirectiveId)
    (intent receipt : Option ℕ) (purpose : Option String) :
    Ensures f (replaceGoal env actorId r reason directive intent receipt purpose) fun _ =>
      Issued ms := by
  unfold replaceGoal
  refine reads_requireNotPaused.bind fun _ _ => .get (.need fun previous _ =>
    (reads_currentUserNeededBoundary _ _).bind fun continuation _ =>
    ensures_after_check fun admission _ => ensures_after_check fun _ _ =>
    reads_currentGoal.bind fun prior _ => (reads_attachmentPacket env).bind fun packet _ => ?_)
  unfold fenceReasonerTurns insertGoal
  refine .bind (P := fun _ g => g = abandon (fun _ => true) f) rfl fun _ f₀ hf₀ => ?_
  refine .bind (P := fun _ g => g.work = f.work ∧ g.messages = f.messages) ?_ fun _ f₁ hf₁ =>
    .bind (ensures_startAttempt _ _ _) fun _ f₂ hstarted =>
    .bind (ensures_message env _) fun id f₃ hasked =>
    .bind (ensures_consume _ _ _ _ _ _ _) fun _ g hg => ?_
  · rw [hf₀]
    unfold Ensures
    rw [Tx.wp_statement]
    exact ⟨fun _ => ⟨rfl, rfl⟩, fun _ => trivial⟩
  · refine keeps_issued_supersedeBoundaries _ _ g ?_
    obtain ⟨hattempts, hmessages, hnone, hsome⟩ := hg
    have hworks : f₃.work = _ := hasked.work.trans hstarted.work
    rw [hf₁.1] at hworks
    have hsaid : Said ms f₂ := hstarted.said (hf.of_subset (hf₁.2 ▸ List.Subset.refl _))
    cases continuation with
    | none =>
      have hwork := (hnone rfl).trans hworks
      refine issued_of_asked hsaid hstarted.latest hasked hattempts hmessages (if_neg hstate) rfl rfl ?_ ?_
        ?_ ?_ ?_ ?_
      · rw [hwork]
        exact if_neg hstate
      · rw [hwork]
        exact if_neg hstate
      · rw [hwork]
        rfl
      · rw [hnone rfl, hasked.work]
        refine hstarted.running ?_
        rw [hstarted.work, hf₁.1]
        simp [Move.apply, hstate]
      · rw [hwork]
        rfl
      · rw [hwork]
        rfl
    | some b =>
      obtain ⟨hwork, hrunning⟩ := hsome rfl
      rw [hworks] at hwork
      refine issued_of_asked hsaid hstarted.latest hasked hattempts hmessages (if_neg hstate) rfl rfl ?_ ?_
        ?_ hrunning ?_ ?_
      · rw [hwork]
        rfl
      · rw [hwork]
        rfl
      · rw [hwork]
        rfl
      · rw [hwork]
        rfl
      · rw [hwork]
        rfl

/-! ### Decisions that hand over -/

theorem issued_applyContinue (hf : Said ms f) (env : Env) (actor : Actor) (b : Boundary)
    (a : Attempt) (r : BoundaryDispositionInput) (action : MessageAction) :
    Ensures f (applyContinue env actor b a r action) fun _ => Issued ms := by
  have hretry : ∀ g, Said ms g → Ensures g
      (do let _ ← retryAttempt env actor.id a r.reason none false action) fun _ => Issued ms :=
    fun g hg => .bind (issued_retryAttempt hg env _ _ _ _ _ _) fun _ _ h => h
  refine .ite (fun _ => hretry f hf) fun _ => ensures_after_check fun admission _ => .require fun _ =>
    .ite (fun _ => hretry f hf) fun _ => issued_of_keeps ?_ hf
  exact .get fun _ => .bind (keeps_said_advance _ _ _) fun _ => keeps_notice env fun h => (nomatch h)

theorem issued_applyDisposition (hf : Said ms f) (env : Env) (actor : Actor) (b : Boundary)
    (a : Attempt) (review : Option Review) (r : BoundaryDispositionInput) :
    Ensures f (applyDisposition env actor b a review r) fun _ => Issued ms := by
  unfold applyDisposition
  split
  · exact issued_applyContinue hf env actor b a r _
  · exact issued_applyContinue hf env actor b a r _
  · exact issued_of_keeps (keeps_pauseWork env _ a b) hf
  · exact issued_of_keeps (keeps_said_advance _ _ _) hf
  · exact issued_of_keeps (.ite (fun _ => keeps_after_check fun _ => keeps_said_advance _ _ _) fun _ =>
      keeps_said_advance _ _ _) hf
  · exact issued_of_keeps (.bind keeps_fenceReasonerTurns fun _ => keeps_said_advance _ _ _) hf
  · exact .bind (issued_retryAttempt hf env _ _ _ _ _ _) fun _ _ h => h
  · exact hf.issued

theorem issued_decideBoundary (hf : Said ms f) (env : Env) (actor : Actor) (b : Boundary)
    (a : Attempt) (review : Option Review) (r : BoundaryDispositionInput) :
    Ensures f (decideBoundary env actor b a review r) fun _ => Issued ms := by
  unfold decideBoundary
  refine .get (.bind (keeps_newId f hf) fun id f₁ hf₁ =>
    .bind (keeps_insertDisposition _ f₁ hf₁) fun _ f₂ hf₂ =>
    .bind (issued_applyDisposition hf₂ env actor b a review r) fun _ g hg => ?_)
  exact Keeps.bind (keeps_issued_completeTurn _ _) (fun _ =>
    .bind (.when fun _ => keeps_issued_notice env (by simp [escalationMessage])) fun _ =>
    .bind (.when fun _ => keeps_issued_supersedeBoundaries _ _) fun _ => keeps_pure _) g hg

theorem issued_disposeBoundary (hf : Said ms f) (env : Env) (actor : Actor) (id : BoundaryId)
    (r : BoundaryDispositionInput) (escalate : Bool) :
    Ensures f (disposeBoundary env actor id r escalate) fun _ => Issued ms := by
  unfold disposeBoundary
  refine .require fun _ => ensures_after_check fun _ _ => .bind (keeps_backfill env f hf)
    fun _ f₁ hf₁ => .get (.need fun b _ => (reads_authorizeWorkActor actor).bind fun _ _ => ?_)
  split
  · exact .require fun _ => hf₁.issued
  · refine ensures_after_check fun _ _ => .require fun _ => .require fun _ => .require fun _ =>
      .require fun _ => .need fun t _ => .require fun _ => .require fun _ => .require fun _ =>
      .need fun a _ => .require fun _ => ensures_after_check fun _ _ =>
      (reads_when (reads_requirePauseSafe env b)).bind fun _ _ => .ite (fun _ => ?_) fun _ => ?_
    · split
      · exact issued_decideBoundary hf₁ env actor b a _ r
      · exact issued_of_keeps (keeps_escalateSupervision env b _ _ _) hf₁
      · exact ensures_throw _
    · exact issued_decideBoundary hf₁ env actor b a _ r

/-! ### Commands that hand over -/

theorem issued_sealRetry (hf : Said ms f) (env : Env) (actor : Actor) (previous : Attempt)
    (b : Boundary) (r : RetryInput) :
    Ensures f (sealRetry env actor previous b r) fun _ => Issued ms := by
  unfold sealRetry
  refine .get (.bind (keeps_newId f hf) fun turn f₁ hf₁ => .bind (keeps_newId f₁ hf₁)
    fun id f₂ hf₂ => ?_)
  exact .bind (keeps_insertTurn env _ f₂ hf₂) fun _ f₃ hf₃ =>
    .bind (keeps_insertDisposition _ f₃ hf₃) fun _ f₄ hf₄ =>
    .bind (issued_retryAttempt hf₄ env _ _ _ _ _ _) fun _ _ h => h

theorem issued_createAttempt (hf : Said ms f) (env : Env) (actor : Actor) (r : RetryInput) :
    Ensures f (createAttempt env actor r) fun _ => Issued ms := by
  unfold createAttempt
  refine (reads_enter env actor).bind fun _ _ => ?_
  split
  · exact issued_of_keeps (keeps_check _) hf
  · refine .get (.need fun previous _ => .require fun _ => ?_)
    split
    · refine .ite (fun _ => issued_of_keeps (keeps_check _) hf) fun _ => ?_
      exact reads_requireRetriable.bind fun _ _ => .require fun _ => ensures_after_check fun _ _ =>
        .require fun _ => issued_sealRetry hf env actor _ _ r
    · refine reads_requireRetriable.bind fun _ _ => ensures_after_check fun _ _ =>
        .require fun _ => ?_
      exact .bind (keeps_recordBoundaryTx env _ _ _ f hf) fun b f₁ hf₁ =>
        issued_sealRetry hf₁ env actor _ b r

theorem keeps_issued_insertResumption (r : WorkPauseResumption) :
    Keeps (Issued ms) (insertResumption r) :=
  keeps_issued (fun _ => rfl) (fun _ => rfl) fun _ => rfl

theorem issued_resumeWork (hf : Said ms f) (env : Env) (actor : Actor) (r : WorkResumeInput) :
    Ensures f (resumeWork env actor r) fun _ => Issued ms := by
  unfold resumeWork
  refine ensures_after_check fun _ _ => (reads_enter env actor).bind fun _ _ => ?_
  split
  · exact issued_of_keeps (keeps_check _) hf
  · refine ensures_after_check fun _ _ => .get (.require fun _ => .require fun _ =>
      .need fun previous _ => .bind (issued_retryAttempt hf env _ _ _ _ _ _) fun a g hg =>
      .get (.need fun m _ => ?_))
    exact keeps_issued_insertResumption _ g hg

theorem issued_replyUserNeeded (hf : Said ms f) (env : Env) (actor : Actor) (r : ReplyInput) :
    Ensures f (replyUserNeeded env actor r) fun _ => Issued ms := by
  unfold replyUserNeeded
  refine ensures_after_check fun _ _ => (reads_enter env actor).bind fun _ _ => ?_
  split
  · exact issued_of_keeps (keeps_check _) hf
  · refine ensures_after_check fun _ _ => .get (.need fun a _ =>
      (reads_currentUserNeededBoundary _ _).bind fun pointed _ => .need fun b _ =>
      ensures_after_check fun admission _ => .ite (fun _ => ?_) fun _ => issued_of_keeps ?_ hf)
    · exact .bind (issued_retryAttempt hf env _ _ _ _ _ _) fun _ _ h => h
    · exact .bind (keeps_message env fun h => (nomatch h)) fun _ =>
        .bind (keeps_consumeUserNeededBoundary _ _ _ _ _ _ _) fun _ => keeps_setAttemptState _ _

theorem issued_replyOpenBoundary (hf : Said ms f) (env : Env) (actor : Actor)
    (inReplyTo : Option WorkMessageId) (text key token : String) :
    Ensures f (replyOpenBoundary env actor inReplyTo text key token) fun _ => Issued ms := by
  unfold replyOpenBoundary
  refine ensures_after_check fun _ _ => (reads_enter env actor).bind fun _ _ => ?_
  split
  · exact issued_of_keeps (keeps_check _) hf
  · refine ensures_after_check fun _ _ => reads_requireNotPaused.bind fun _ _ => .get
      (.need fun _ _ => ?_)
    refine Ensures.ite (fun _ => ?_) fun _ => hf.issued
    refine (reads_repliedBoundary _).bind fun id _ => ?_
    unfold answerBoundary
    refine .get (.need fun b _ => .require fun _ => .require fun _ =>
      .bind (keeps_abandonTurns _ f hf) fun _ f₁ hf₁ => .bind (keeps_newId f₁ hf₁) fun _ f₂ hf₂ => ?_)
    exact .bind (keeps_insertTurn env _ f₂ hf₂) fun _ f₃ hf₃ =>
      .bind (issued_disposeBoundary hf₃ env actor _ _ _) fun _ _ h => h

theorem issued_resumeInterruptedTarget (hf : Said ms f) (env : Env) (w : WorkId)
    (resumer : PrincipalId) :
    Ensures f (resumeInterruptedTarget env w resumer) fun _ => Issued ms := by
  unfold resumeInterruptedTarget
  refine .get (.ite (fun _ => .bind (keeps_fenceReasonerTurns f hf) fun _ f₁ hf₁ => ?_)
    fun _ => hf.issued)
  split
  · exact issued_of_keeps (keeps_endWork said_moved _) hf₁
  · split
    · exact hf₁.issued
    · exact ensures_throw _
    · refine .ite (fun _ => ?_) fun _ => issued_of_keeps ?_ hf₁
      · refine .bind (issued_retryAttempt hf₁ env _ _ _ _ _ _) fun _ g hg => ?_
        unfold move Ensures
        rw [Tx.wp_statement]
        exact ⟨fun _ => hg.of_eq rfl rfl fun _ hm _ => hm, fun _ => trivial⟩
      · exact .bind (keeps_endWork said_moved _) fun _ => .bind (.when fun _ => keeps_setAttemptState _ _) fun _ =>
          keeps_notice env fun h => (nomatch h)

end WorkFile

/-! ## Transactions -/

namespace Store

open WorkFile Tx

/-- Another goal is given only to a Work that does not wait for another. -/
def Part.ReplacesRunning (f : WorkFile) : Part → Prop
  | .call (.replaceGoal _ _ _ _ _ _ _) => f.work.state ≠ .suspended
  | _ => True

/-- **What a part issues is handed over.** -/
theorem Part.issued {ms : List Message} {f : WorkFile} (hf : Said ms f) {p : Part}
    (hp : p.ReplacesRunning f) (env : Env) : Ensures f (p.run env) fun _ => Issued ms := by
  cases p with
  | interrupt w => exact issued_of_keeps (keeps_interruptTarget w) hf
  | resume w resumer => exact issued_resumeInterruptedTarget hf env w resumer
  | recoverExpired t => exact issued_of_keeps (keeps_recoverExpiredTurn env t) hf
  | call c =>
    cases c with
    | recordBoundary actor r => exact issued_of_keeps (keeps_recordBoundary env actor r) hf
    | acquireReasonerTurn actor b g l key token =>
      exact issued_of_keeps (keeps_of_makes fun _ =>
        makes_acquireReasonerTurn_of (by decide) env actor b g l key token) hf
    | disposeBoundary actor id r =>
      exact .bind (issued_disposeBoundary hf env actor id r true) fun _ _ h => h
    | createAttempt actor r => exact issued_createAttempt hf env actor r
    | resumeWork actor r => exact issued_resumeWork hf env actor r
    | replyUserNeeded actor r => exact issued_replyUserNeeded hf env actor r
    | replyOpenBoundary actor m text key token =>
      exact issued_replyOpenBoundary hf env actor m text key token
    | replaceGoal actor r reason directive intent receipt purpose =>
      exact (reads_enter env actor).bind fun _ _ => (reads_requireLive _).bind fun _ _ =>
        issued_replaceGoal hf hp env _ r reason directive intent receipt purpose
    | cancelWork actor reason directive =>
      exact issued_of_keeps (.bind (keeps_enter env actor) fun _ =>
        .bind (keeps_of_reads fun _ => reads_requireLive _) fun _ => keeps_cancelWork said_moved env _ _ _) hf
    | closeConversation actor attachment =>
      exact issued_of_keeps (keeps_closeConversationWork said_moved env actor attachment) hf
    | finishWorker worker keeps => exact issued_of_keeps (keeps_finishWorker said_moved worker keeps) hf
    | review actor r => exact issued_of_keeps (keeps_review env actor r) hf
    | recordRequesterDecision actor r =>
      exact issued_of_keeps (keeps_recordRequesterDecision env actor r fun _ => keeps_move rfl) hf
    | augment actor directive reason =>
      exact issued_of_keeps (keeps_augment env actor directive reason) hf
    | report actor r => exact issued_of_keeps (keeps_report env actor r) hf
    | recoverIncompleteTurn id m n =>
      exact issued_of_keeps (keeps_recoverIncompleteTurn env id m n) hf
    | reconcileCompletedTurn event n =>
      exact issued_of_keeps (.get fun _ => .ite (fun _ => keeps_pure _) fun _ =>
        keeps_recoverWorker env _ _) hf
    | recoverUnstartedWorker | recoverAmbiguousWorker | recoverTerminalWorker
    | failAssignmentDependency => exact issued_of_keeps (keeps_recoverWorker env _ _) hf
    | recordSecondaryFailure event n =>
      exact issued_of_keeps (keeps_recordSecondaryFailure env event n) hf
    | finalizeCapture c => exact issued_of_keeps (keeps_finalizeCapture env c) hf
    | reconcileAbandonedCapture c => exact issued_of_keeps (keeps_reconcileAbandonedCapture env c) hf
    | backfillRecoveryActions => exact issued_of_keeps (keeps_backfill env) hf
    | acceptAssignment n =>
      exact issued_of_keeps (.get fun _ => .need fun _ => .ite (fun _ => keeps_setAttemptState _ _)
        fun _ => keeps_pure _) hf
    | pruneMessages handled => exact issued_of_keeps (keeps_pruneMessages handled) hf

variable {s s' : Store}

/-- The first assignment of a new Work is handed over. -/
theorem issued_file (n : NewWork) (packet : Option AttachmentPacket) (runtime : Option RuntimeId)
    (env : Env) :
    Ensures (n.file packet runtime) (do let _ ← message env n.assignmentMessage) fun _ =>
      Issued [] := by
  have hsaid : Said [] (n.file packet runtime) := by simp [Said, NewWork.file]
  refine .bind (ensures_message env n.assignmentMessage) fun _ g hasked => ?_
  refine issued_of_asked hsaid rfl hasked rfl rfl rfl rfl rfl ?_ ?_ ?_ ?_ ?_ ?_
  all_goals
    rw [hasked.work]
    rfl

/-- A transaction opens at most one file, and hands its assignment over. -/
theorem opens_transaction (hs : (s.files.map (·.id)).Nodup) (t : Transaction) :
    wp t.run (fun _ s' => s'.files.map (·.id) = s.files.map (·.id) ∨
      ∃ g, Has s' g ∧ Issued [] g ∧ s'.files.map (·.id) = g.id :: s.files.map (·.id))
      (fun _ => True) s := by
  cases t with
  | createWork world n interrupts =>
    show wp (Store.createWork world n interrupts) _ _ s
    unfold Store.createWork
    rw [wp_bind]
    refine wp_mono (Q := fun _ s' => s'.files.map (·.id) = s.files.map (·.id))
      (E := fun _ => True) ?_ (fun _ s' hs' => ?_) fun _ h => h
    · unfold Store.interrupt
      cases interrupts with
      | none => rfl
      | some i => exact ids_onFile fun env f => Part.makes (.interrupt n.id) env
    · rw [wp_bind, wp_get, wp_bind, wp_require]
      refine ⟨fun hfresh => ?_, fun _ => trivial⟩
      rw [wp_bind, Tx.wp_check]
      refine ⟨fun admission _ => ?_, fun _ _ => trivial⟩
      rw [wp_bind, Tx.wp_check]
      refine ⟨fun packet _ => ?_, fun _ _ => trivial⟩
      rw [wp_bind, wp_set]
      have hfiles : Files (fun _ => True) s' := ⟨hs' ▸ hs, fun _ _ => trivial⟩
      have hcons : Has ⟨n.file packet admission.runtimeSessionId :: s'.files⟩
          (n.file packet admission.runtimeSessionId) :=
        ⟨(hfiles.cons trivial hfresh).ids, List.mem_cons_self⟩
      have hmakes : ∀ env f, Makes (Writes everything) f (do let _ ← message env n.assignmentMessage) :=
        fun env f => makes_notice (by decide) env _
      refine wp_mono (wp_and (has_onFile hcons hmakes (issued_file n packet _ _))
        (ids_onFile hmakes)) (fun _ s'' hs'' => ?_) fun _ _ => trivial
      obtain ⟨⟨g, hg, hid, hissued⟩, hids⟩ := hs''
      refine .inr ⟨g, hg, hissued, hids.trans ?_⟩
      rw [hid, ← hs']
      rfl
  | call w world c there resumer =>
    show wp (Store.call w world c there resumer) _ _ s
    unfold Store.call
    rw [wp_bind, wp_get, wp_bind]
    refine wp_mono (ids_onFile fun env f => c.makes env) (fun _ s' hs' => ?_) fun _ h => h
    rw [wp_bind, wp_get, wp_ite]
    refine ⟨fun _ => ?_, fun _ => .inl hs'⟩
    split
    · exact wp_mono (ids_onFile fun env f => Part.makes (.resume w resumer) env)
        (fun _ _ h => .inl (h.trans hs')) fun _ h => h
    · exact .inl hs'
  | recoverExpiredReasonerTurns world =>
    show wp (Store.recoverExpiredReasonerTurns world) _ _ s
    unfold Store.recoverExpiredReasonerTurns
    rw [wp_bind, wp_get]
    refine wp_mono (wp_each (I := fun s' => s'.files.map (·.id) = s.files.map (·.id)) _
      (fun t _ s' hs' => ?_) rfl) (fun _ _ h => .inl h) fun _ h => h
    exact wp_mono (ids_onFile fun env f => makes_expired env t.2) (fun _ _ h => h.trans hs')
      fun _ h => h

/-- **Whatever a transaction issues is handed over.** -/
theorem issued_of_run (hs : (s.files.map (·.id)).Nodup) {t : Transaction}
    (hrun : t.run s = .ok (⟨⟩, s'))
    (ht : ∀ w f, s.file? w = some f → ∀ world p, Touches s w t world p → p.ReplacesRunning f)
    {g : WorkFile} (hg : g ∈ s'.files) :
    Issued (((s.file? g.id).map (·.messages)).getD []) g := by
  have hfiles : Files (fun _ => True) s := ⟨hs, fun _ _ => trivial⟩
  cases hf : s.file? g.id with
  | none =>
    -- The file was opened by the transaction.
    have hnew : g.id ∉ s.files.map (·.id) := by
      intro hmem
      obtain ⟨f, hf', hid⟩ := List.mem_map.mp hmem
      rw [← hid, hfiles.file? hf'] at hf
      cases hf
    have hids : g.id ∈ s'.files.map (·.id) := List.mem_map_of_mem hg
    rcases Tx.of_wp (opens_transaction hs t) hrun with hsame | ⟨g', hg', hissued, hsame⟩
    · rw [hsame] at hids
      exact absurd hids hnew
    · rw [hsame] at hids
      rcases List.mem_cons.mp hids with hid | hid
      · obtain rfl : g = g' := Rows.eq_of_key hg'.1 hg hg'.2 hid
        exact hissued
      · exact absurd hid hnew
  | some f =>
    have hmem := mem_of_file? hf
    have hhas : Has s f := ⟨hs, hmem.1⟩
    have hself : Issued f.messages f := (said_self f).issued
    have hafter : ∃ g', Has s' g' ∧ g'.id = f.id ∧ Issued f.messages g' := by
      cases t with
      | recoverExpiredReasonerTurns world =>
        have hscan := has_scan hhas (said_self f) world fun env t => keeps_recoverExpiredTurn env t
        obtain ⟨g', hg', hid, hsaid⟩ := Tx.of_wp hscan hrun
        exact ⟨g', hg', hid, hsaid.issued⟩
      | createWork world n interrupts =>
        refine Tx.of_wp (has_transaction hhas hself _ fun env p htouches => ⟨fun u hu => ?_,
          Part.issued (said_self f) (ht f.id f (hfiles.file? hmem.1) _ p htouches) env⟩) hrun
        obtain ⟨_, _, _, _, hp⟩ := htouches
        rw [hu] at hp
        cases hp
      | call w world c there resumer =>
        refine Tx.of_wp (has_transaction hhas hself _ fun env p htouches => ⟨fun u hu => ?_,
          Part.issued (said_self f) (ht f.id f (hfiles.file? hmem.1) _ p htouches) env⟩) hrun
        rcases htouches with ⟨_, _, hp⟩ | ⟨_, _, hp⟩
        · rw [hu] at hp
          cases hp
        · rw [hu] at hp
          cases hp
    obtain ⟨g', hg', hid, hissued⟩ := hafter
    obtain rfl : g = g' := Rows.eq_of_key hg'.1 hg hg'.2 (hmem.2.symm.trans hid.symm)
    exact hissued

end Store
