import OpenCAO.Writes

/-!
# Every transaction is made of writes

The theorems follow the programs of the model one by one. A program that
writes what it read before is treated where it stands, with what it read
still in sight; all others are composed by the rules of `Tx.Makes`.
-/

namespace WorkFile

open Tx

variable {S : List WriteKind} {f : WorkFile} {α β : Type}

/-! ## Rules -/

theorem makes_statement {k : WriteKind} (hk : k ∈ S) {c : WorkFile → Prop} [DecidablePred c]
    {message : String} {change : WorkFile → WorkFile} (h : c f → Write f k (change f)) :
    Makes (Writes S) f (Tx.statement c message change) := by
  unfold Makes
  rw [Tx.wp_statement]
  exact ⟨fun hc => .single ⟨k, hk, h hc⟩, fun _ => trivial⟩

theorem makes_modify {k : WriteKind} (hk : k ∈ S) {change : WorkFile → WorkFile}
    (h : Write f k (change f)) : Makes (Writes S) f (modify change : FileTx PUnit) :=
  .single ⟨k, hk, h⟩

theorem makes_check (result : Except ServiceError α) : Makes (Writes S) f (Tx.check result) := by
  unfold Makes
  rw [Tx.wp_check]
  exact ⟨fun _ _ => .refl, fun _ _ => trivial⟩

theorem makes_after_check {result : Except ServiceError β} {k : β → FileTx α}
    (hk : ∀ b, result = .ok b → Makes (Writes S) f (k b)) :
    Makes (Writes S) f (Tx.check result >>= k) := by
  unfold Makes
  rw [wp_bind, Tx.wp_check]
  exact ⟨hk, fun _ _ => trivial⟩

theorem ensures_after_check {result : Except ServiceError β} {k : β → FileTx α}
    {Q : α → WorkFile → Prop} (hk : ∀ b, result = .ok b → Ensures f (k b) Q) :
    Ensures f (Tx.check result >>= k) Q := by
  unfold Ensures
  rw [wp_bind, Tx.wp_check]
  exact ⟨hk, fun _ _ => trivial⟩

theorem makes_after_newId (hS : .number ∈ S) {k : RowId → FileTx α}
    (hk : Makes (Writes S) { f with nextNumber := f.nextNumber + 1 } (k ⟨f.id, f.nextNumber⟩)) :
    Makes (Writes S) f (newId >>= k) := by
  unfold Makes
  rw [wp_bind, wp_newId]
  exact hk.after (.single ⟨_, hS, .number⟩)

theorem makes_after_abandon (hS : .abandonment ∈ S) {p : ReasonerTurn → Bool}
    {k : PUnit → FileTx α} (hk : Makes (Writes S) (abandon p f) (k ⟨⟩)) :
    Makes (Writes S) f (abandonTurns p >>= k) := by
  unfold Makes
  rw [wp_bind]
  exact hk.after (.single ⟨_, hS, .abandon p⟩)

theorem makes_abandonTurns (hS : .abandonment ∈ S) (p : ReasonerTurn → Bool) :
    Makes (Writes S) f (abandonTurns p) := makes_modify hS (.abandon p)

theorem wp_abandonTurns {p : ReasonerTurn → Bool} {Q : PUnit → WorkFile → Prop}
    {E : Failure → Prop} : wp (abandonTurns p) Q E f ↔ Q ⟨⟩ (abandon p f) := Iff.rfl

theorem makes_mono {T : List WriteKind} (hST : S ⊆ T) {m : FileTx α}
    (h : Makes (Writes S) f m) : Makes (Writes T) f m :=
  h.mono fun _ _ hw => hw.imp fun _ hk => ⟨hST hk.1, hk.2⟩

theorem generation_le_of_writes {g : WorkFile} (h : Relation.ReflTransGen (Writes S) f g) :
    f.work.generation ≤ g.work.generation := by
  induction h with
  | refl => exact Nat.le_refl _
  | tail _ hlast ih =>
    obtain ⟨_, _, hw⟩ := hlast
    exact Nat.le_trans ih hw.generation_le

/-- What was gained before is kept. -/
theorem grown_of_makes {f₀ : WorkFile} {m : FileTx α} (h : Makes (Writes S) f m)
    (hpre : Relation.ReflTransGen (Writes S) f₀ f)
    (hless : f₀.work.generation < f.work.generation) :
    Ensures f m fun _ g =>
      Relation.ReflTransGen (Writes S) f₀ g ∧ f₀.work.generation < g.work.generation :=
  wp_mono h (fun _ _ hrun => ⟨hpre.trans hrun,
    Nat.lt_of_lt_of_le hless (generation_le_of_writes hrun)⟩) fun _ h => h

/-! ## What only reads -/

theorem reads_authorizeWorkActor (actor : Actor) :
    Reads (fun _ => True) f (authorizeWorkActor actor) := by
  simp [Reads, authorizeWorkActor]

theorem reads_enter (env : Env) (actor : Actor) :
    Reads (fun _ => actor.role = .cao) f (enter env actor) := by
  simp only [Reads, enter, authorizeWorkActor, wp_bind, wp_require, Tx.wp_check, wp_get]
  exact ⟨fun hrole => ⟨fun _ _ => ⟨fun _ => ⟨trivial, hrole⟩, fun _ => trivial⟩,
    fun _ _ => trivial⟩, fun _ => trivial⟩

theorem reads_requireNotPaused :
    Reads (fun _ => f.work.pausedBoundaryId = none) f requireNotPaused := by
  simp [Reads, requireNotPaused]

theorem reads_requireLive (message : String) :
    Reads (fun _ => f.work.state.terminal = false) f (requireLive message) := by
  simp [Reads, requireLive]

theorem reads_currentGoal :
    Reads (fun goal => f.goal? f.work.goalVersion = some goal) f currentGoal := by
  simp [Reads, currentGoal]

theorem reads_when {c : Prop} [Decidable c] {P : PUnit → Prop} {m : FileTx PUnit}
    (h : Reads P f m) : Reads (fun _ => True) f (Tx.when c m) := by
  unfold Reads
  rw [wp_when]
  exact ⟨fun _ => wp_mono h (fun _ _ h => ⟨h.1, trivial⟩) fun _ h => h, fun _ => ⟨rfl, trivial⟩⟩

theorem reads_requireRetriable : Reads (fun _ => True) f requireRetriable := by
  simp [Reads, requireRetriable]

/-- The continuation of a Work that awaits its requester is the Boundary it
points to, decided for exactly this Attempt. -/
theorem reads_currentUserNeededBoundary (actorId : PrincipalId) (source : Attempt) :
    Reads (fun continuation =>
      (f.work.state ≠ .userNeeded ∧ f.work.userNeededBoundaryId = none ∧ continuation = none) ∨
        ∃ b, continuation = some b ∧ f.work.state = .userNeeded ∧
          f.work.userNeededBoundaryId = some b.id ∧ b ∈ f.boundaries ∧
          f.Decided .waitUser actorId f.work.generation b source ∧ ¬ f.Continued b.id ∧
          ∀ c ∈ f.openBoundaries, c.generation ≠ f.work.generation)
      f (currentUserNeededBoundary actorId source) := by
  unfold Reads currentUserNeededBoundary
  rw [wp_bind, wp_get, wp_ite]
  refine ⟨fun hstate => ?_, fun hstate => ?_⟩
  · rw [wp_bind, wp_require]
    exact ⟨fun hpointer => ⟨rfl, .inl ⟨hstate, hpointer, rfl⟩⟩, fun _ => trivial⟩
  · rw [wp_bind, wp_need]
    refine ⟨fun id hid => ?_, fun _ => trivial⟩
    rw [wp_bind, wp_need]
    refine ⟨fun b hb => ?_, fun _ => trivial⟩
    rw [wp_bind, wp_require]
    refine ⟨fun h => ⟨rfl, .inr ⟨b, rfl, not_not.mp hstate, ?_, ?_, h.1, h.2.1, h.2.2.1⟩⟩,
      fun _ => trivial⟩
    · have hbid : b.id = id := by simpa using List.find?_some hb
      rw [hid, hbid]
    · exact List.mem_of_find?_eq_some hb

theorem awaiting_of_continuation {b : Boundary} {P : Boundary → Prop} {Q : Prop}
    (h : (f.work.state ≠ .userNeeded ∧ Q ∧ some b = none) ∨
      ∃ c, some b = some c ∧ f.work.state = .userNeeded ∧ P c) : f.work.state = .userNeeded := by
  rcases h with h | ⟨_, _, hstate, _⟩
  · exact absurd h.2.2 (Option.some_ne_none b)
  · exact hstate

theorem reads_requirePauseSafe (env : Env) (b : Boundary) :
    Reads (fun _ => f.work.pausedBoundaryId = none ∧ (f.work.state = .waitingSupervisor ∨
      f.work.state = .waitingReview) ∧ f.work.attentionOwner = .cao ∧
      f.work.userNeededBoundaryId = none ∧
      ∀ c ∈ f.openBoundaries, c.generation = f.work.generation → c.id = b.id)
      f (requirePauseSafe env b) := by
  simp only [Reads, requirePauseSafe, requireNotPaused, wp_bind, wp_get, wp_require]
  exact ⟨fun hpaused => ⟨fun h => ⟨trivial, hpaused, h.1, h.2.1, h.2.2.2.1, h.2.2.2.2.2⟩,
    fun _ => trivial⟩, fun _ => trivial⟩

theorem reads_attachmentPacket (env : Env) : Reads (SealedFor f) f (attachmentPacket env) := by
  unfold Reads attachmentPacket SealedFor
  rw [wp_bind, wp_get]
  cases f.work.supervisorAttachmentId with
  | none => exact ⟨rfl, rfl⟩
  | some id =>
    show wp (Tx.need f.attachment _ >>= _) _ _ _
    rw [wp_bind, wp_need]
    refine ⟨fun identity hidentity => ?_, fun _ => trivial⟩
    rw [wp_bind, Tx.wp_check]
    exact ⟨fun current _ => ⟨rfl, identity, hidentity, _, _, rfl⟩, fun _ _ => trivial⟩

theorem reads_repliedBoundary (inReplyTo : Option WorkMessageId) :
    Reads (fun _ => True) f (repliedBoundary inReplyTo) := by
  simp [Reads, repliedBoundary]

/-! ## Commands -/

/-- The message was sent, now or before, and nothing else happened. -/
structure Sent (r : MessageRequest) (id : WorkMessageId) (f g : WorkFile) : Prop where
  sent : ∃ m ∈ g.messages, m.id = id ∧ m.toMessageRequest = r
  rest : g = { f with messages := g.messages, nextNumber := g.nextNumber }

/-- **What sending a message does**; it fails only with errors of the
service's own. -/
theorem wp_message (env : Env) (r : MessageRequest) :
    wp (message env r) (fun id g => Sent r id f g ∧ Messaged f g) Failure.Typed f := by
  unfold message
  rw [wp_bind, wp_get, wp_bind, wp_need]
  refine ⟨fun a ha => ?_, fun _ => trivial⟩
  rw [wp_bind, wp_require]
  refine ⟨fun _ => ?_, fun _ => trivial⟩
  split
  · next m hfind =>
    rw [wp_bind, wp_require]
    refine ⟨fun hsame => ⟨⟨⟨m, List.mem_of_find?_eq_some hfind, rfl, hsame.1⟩, rfl⟩, .again⟩,
      fun _ => trivial⟩
  · next hnone =>
    rw [wp_bind, wp_require]
    refine ⟨fun _ => ?_, fun _ => trivial⟩
    rw [wp_bind, Tx.wp_check]
    refine ⟨fun _ _ => ?_, fun _ _ => trivial⟩
    rw [wp_bind, wp_newId, wp_bind, wp_modify, wp_pure]
    refine ⟨⟨⟨_, List.mem_cons_self, rfl, rfl⟩, rfl⟩, .sent r a ha fun hkey m hm hsender hsame => ?_⟩
    have := List.find?_eq_none.mp hnone m hm
    simp [hkey, hsender, hsame] at this

theorem makes_message (hS : .message ∈ S) (env : Env) (r : MessageRequest) :
    Makes (Writes S) f (message env r) :=
  wp_mono (wp_message env r) (fun _ g h => .single ⟨.message, hS, .message g h.2⟩)
    fun _ _ => trivial

/-- A message that a command ends with. -/
theorem makes_notice (hS : .message ∈ S) (env : Env) (r : MessageRequest) :
    Makes (Writes S) f (do let _ ← message env r) :=
  .bind (makes_message hS env r) fun _ _ _ => makes_pure _

theorem Targets.of_latest {m : Move} {a : Attempt} (h : f.latestAttempt? = some a) :
    Targets f m a.number := .inl ⟨a, h, rfl⟩

theorem Targets.of_live {m : Move} {a : Attempt} (ha : a ∈ f.attempts)
    (h : a.state.terminal = false) : Targets f m a.number := .inr (.inl ⟨a, ha, rfl, h⟩)

theorem Targets.of_boundary {m : Move} {b : Boundary} (hb : b ∈ f.boundaries)
    (h : b.generation = f.work.generation) : Targets f m b.attemptNumber :=
  .inr (.inr (.inl ⟨b, hb, rfl, .inl h⟩))

/-- An Attempt and its Work are handed over together. -/
theorem makes_advance {k : WriteKind} {number : ℕ} {g : Attempt → Attempt} {m : Move}
    (hk : k ∈ S) (hg : Handover f number k g m) (htarget : Targets f m number) :
    Makes (Writes S) f (advance number g m) := by
  unfold advance move Makes
  rw [wp_bind, wp_modify, Tx.wp_statement]
  exact ⟨fun hm => .single ⟨k, hk, .handover k number g m hg htarget (.inr hm)⟩, fun _ => trivial⟩

/-- The Work is moved first, and its Attempt after it. -/
theorem makes_moveAttempt {k : WriteKind} {number : ℕ} {state : AttemptState} {m : Move}
    {c : FileTx α} (hk : k ∈ S) (hg : Handover f number k (.inState state) m)
    (htarget : Targets f m number)
    (hc : Makes (Writes S) (moved m (withAttempt number (.inState state) f)) c) :
    Makes (Writes S) f (do move m; setAttemptState number state; c) := by
  unfold move setAttemptState Makes
  rw [wp_bind, Tx.wp_statement]
  refine ⟨fun hm => ?_, fun _ => trivial⟩
  rw [wp_bind, wp_modify]
  exact Makes.after hc (.single ⟨k, hk, .handover k number _ m hg htarget (.inl hm)⟩)

theorem sameAttempt_inState (state : AttemptState) (a : Attempt) :
    SameAttempt a (a.inState state) := ⟨rfl, rfl, rfl, rfl, rfl, rfl⟩

theorem wp_consumeUserNeededBoundary (actorId : PrincipalId) (work : Work) (b : Boundary)
    (source successor generation : ℕ) (id : WorkMessageId) :
    wp (consumeUserNeededBoundary actorId work b source successor generation id)
      (fun _ g => ∃ c, Consumption f c g ∧ c.successorAttemptNumber = successor ∧
        c.successorGeneration = generation) (fun _ => True) f := by
  unfold consumeUserNeededBoundary insertContinuation move
  simp only [wp_bind, Tx.wp_statement, wp_get, wp_require]
  exact ⟨fun hc => ⟨fun _ => ⟨fun hm => ⟨_, .intro _ hc hm, rfl, rfl⟩, fun _ => trivial⟩,
    fun _ => trivial⟩, fun _ => trivial⟩

theorem wp_startAttempt {previous : Attempt} {m : Move} {a : Attempt}
    {Q : PUnit → WorkFile → Prop} {E : Failure → Prop} :
    wp (startAttempt previous m a) Q E f ↔
      (Movable m (givenUp previous f) →
        ((∀ c ∈ (givenUp previous f).attempts, c.number ≠ a.number) →
          Q ⟨⟩ { moved m (givenUp previous f) with
            attempts := a :: (givenUp previous f).attempts }) ∧
        (¬ (∀ c ∈ (givenUp previous f).attempts, c.number ≠ a.number) →
          E (.integrity "attempts"))) ∧
      (¬ Movable m (givenUp previous f) → E (.integrity "work_items")) := by
  unfold startAttempt move insertAttempt
  simp only [wp_bind, wp_modify, Tx.wp_statement]
  rfl

/-- **What a retry does**: another Attempt, under new authority. -/
theorem wp_retryAttempt (env : Env) (actorId : PrincipalId) {previous : Attempt}
    (hprevious : previous ∈ f.attempts) (reason : String) (worker : Option PrincipalId)
    (paused : Bool) (action : MessageAction) :
    wp (retryAttempt env actorId previous reason worker paused action)
      (fun _ g => Relation.ReflTransGen (Writes commands) f g ∧ g.work.state = .active ∧
        g.work.generation = f.work.generation + 1) (fun _ => True) f := by
  unfold retryAttempt
  refine (reads_when reads_requireNotPaused).bind fun _ _ => reads_currentGoal.bind
    fun goal hgoal => (reads_currentUserNeededBoundary _ _).bind fun continuation hcontinuation => ?_
  unfold Ensures
  rw [wp_bind, Tx.wp_check]
  refine ⟨fun admission _ => ?_, fun _ _ => trivial⟩
  have habandoned : Relation.ReflTransGen (Writes commands) f (abandon (fun _ => true) f) :=
    .single ⟨.abandonment, by decide, .abandon _⟩
  rw [wp_bind, wp_get, wp_bind]
  unfold fenceReasonerTurns
  rw [wp_abandonTurns, wp_bind, wp_startAttempt]
  refine ⟨fun hm => ⟨fun hnew => ?_, fun _ => trivial⟩, fun _ => trivial⟩
  rw [wp_bind, Tx.wp_check]
  refine ⟨fun _ _ => ?_, fun _ _ => trivial⟩
  rw [wp_bind]
  cases continuation with
  | none =>
    have hrenewed : Write (abandon (fun _ => true) f) .renewal _ :=
      .renew (worker.getD previous.workerId) paused _
        (.intro goal previous _ _ admission.runtimeSessionId hgoal hprevious (.inr ⟨_, rfl⟩) hm hnew)
    refine wp_mono (wp_message env _) (fun id g hg => ?_) fun _ _ => trivial
    refine ⟨(habandoned.tail ⟨.renewal, by decide, hrenewed⟩).tail
      ⟨.message, by decide, .message g hg.2⟩, ?_, ?_⟩
    · rw [hg.1.rest]
      rfl
    · rw [hg.1.rest]
      show (moved _ (givenUp previous (abandon (fun _ => true) f))).work.generation = _
      rw [givenUp_eq]
      rfl
  | some b =>
    refine wp_mono (wp_message env _) (fun id f₂ hsent => ?_) fun _ _ => trivial
    rw [wp_bind]
    refine wp_mono (wp_consumeUserNeededBoundary _ _ _ _ _ _ _) (fun _ g hg => ?_) fun _ h => h
    obtain ⟨c, hconsumed, -, hgeneration⟩ := hg
    refine ⟨habandoned.tail ⟨.renewal, by decide, .renewContinued (worker.getD previous.workerId)
      _ f₂ g c (awaiting_of_continuation hcontinuation) (.intro goal previous _ _
        admission.runtimeSessionId hgoal hprevious (.inl rfl) hm hnew) hsent.2 hgeneration
      hconsumed⟩, ?_⟩
    cases hconsumed
    exact ⟨rfl, hgeneration⟩

theorem makes_retryAttempt (env : Env) (actorId : PrincipalId) {previous : Attempt}
    (hprevious : previous ∈ f.attempts) (reason : String) (worker : Option PrincipalId)
    (paused : Bool) (action : MessageAction) :
    Makes (Writes commands) f (retryAttempt env actorId previous reason worker paused action) :=
  wp_mono (wp_retryAttempt env actorId hprevious reason worker paused action) (fun _ _ h => h.1)
    fun _ h => h

theorem makes_pauseWork (env : Env) (actorId : PrincipalId) {a : Attempt} (b : Boundary)
    (htarget : ∀ m, Targets f m a.number) :
    Makes (Writes commands) f (pauseWork env actorId a b) :=
  .reads (reads_requirePauseSafe env b) fun _ _ => .get <|
    .bind_of (P := fun _ g => ∀ m, Targets g m a.number) (by
      unfold insertPause
      rw [Tx.wp_statement]
      exact ⟨fun hp => ⟨.single ⟨.pause, by decide, .pause _ hp⟩, htarget⟩, fun _ => trivial⟩)
    fun _ g hg => makes_advance (k := .handover) (by decide) (.pause b.id) (hg _)

theorem makes_applyContinue (env : Env) (actor : Actor) (b : Boundary) {a : Attempt}
    (ha : a ∈ f.attempts) (htarget : ∀ m, Targets f m a.number) (r : BoundaryDispositionInput)
    (action : MessageAction) :
    Makes (Writes commands) f (applyContinue env actor b a r action) := by
  unfold applyContinue
  refine .ite (fun _ => .bind (makes_retryAttempt env _ ha _ _ _ _) fun _ _ _ => makes_pure _)
    fun _ => makes_after_check fun admission _ => .require fun _ => .ite
      (fun _ => .bind (makes_retryAttempt env _ ha _ _ _ _) fun _ _ _ => makes_pure _) fun _ => ?_
  exact .get <| .bind (makes_advance (k := .handover) (by decide) .goOn (htarget _)) fun _ _ _ =>
    makes_notice (by decide) env _

theorem makes_applyAccept (env : Env) {a : Attempt} (review : Option Review)
    (htarget : ∀ m, Targets f m a.number) :
    Makes (Writes commands) f (applyAccept env a review) :=
  .ite (fun _ => makes_after_check fun _ _ =>
      makes_advance (k := .handover) (by decide) .present (htarget _))
    fun _ => makes_advance (k := .handover) (by decide) .submit (htarget _)

theorem makes_applyDisposition (env : Env) (actor : Actor) (b : Boundary) {a : Attempt}
    (ha : a ∈ f.attempts) (htarget : ∀ m, Targets f m a.number) (review : Option Review)
    (r : BoundaryDispositionInput) :
    Makes (Writes commands) f (applyDisposition env actor b a review r) := by
  unfold applyDisposition
  cases r.kind with
  | «continue» => exact makes_applyContinue env actor b ha htarget r _
  | correct => exact makes_applyContinue env actor b ha htarget r _
  | pause => exact makes_pauseWork env _ b htarget
  | waitUser => exact makes_advance (k := .handover) (by decide) (.awaitUser b.id) (htarget _)
  | accept => exact makes_applyAccept env review htarget
  | cancel =>
    exact makes_after_abandon (by decide)
      (makes_advance (k := .handover) (by decide) .cancel (by exact htarget _))
  | retry => exact .bind (makes_retryAttempt env _ ha _ _ _ _) fun _ _ _ => makes_pure _
  | fail => exact makes_pure _

/-! ## What a command leaves alone -/

/-- A turn that may have lost its lease. -/
def MaybeAbandoned (t u : ReasonerTurn) : Prop := u = t ∨ u = abandoned t

theorem maybeAbandoned_trans (t u v : ReasonerTurn) (h₁ : MaybeAbandoned t u)
    (h₂ : MaybeAbandoned u v) : MaybeAbandoned t v := by
  rcases h₁ with rfl | rfl
  · exact h₂
  · rcases h₂ with rfl | rfl
    · exact .inr rfl
    · exact .inr rfl

theorem maybeAbandoned_abandon (p : ReasonerTurn → Bool) (f : WorkFile) :
    List.Forall₂ MaybeAbandoned f.turns (abandon p f).turns :=
  Rows.evolve_update (fun _ => .inl rfl) (fun _ _ => .inr rfl) _

/-- **What a command leaves alone**: everything that was decided, reported
and asked for. -/
structure Commanded (f g : WorkFile) : Prop where
  id : g.id = f.id
  boundaries : g.boundaries = f.boundaries
  dispositions : g.dispositions = f.dispositions
  supersessions : g.supersessions = f.supersessions
  goals : g.goals = f.goals
  reviews : g.reviews = f.reviews
  decisions : g.decisions = f.decisions
  turns : List.Forall₂ MaybeAbandoned f.turns g.turns

theorem Commanded.of_eq {g : WorkFile} (hid : g.id = f.id) (hb : g.boundaries = f.boundaries)
    (hd : g.dispositions = f.dispositions) (hs : g.supersessions = f.supersessions)
    (hgoals : g.goals = f.goals) (hr : g.reviews = f.reviews) (hdec : g.decisions = f.decisions)
    (ht : g.turns = f.turns) : Commanded f g := by
  refine ⟨hid, hb, hd, hs, hgoals, hr, hdec, ?_⟩
  rw [ht]
  exact List.forall₂_same.mpr fun _ _ => .inl rfl

theorem Commanded.trans {g h : WorkFile} (h₁ : Commanded f g) (h₂ : Commanded g h) :
    Commanded f h :=
  ⟨h₂.id.trans h₁.id, h₂.boundaries.trans h₁.boundaries, h₂.dispositions.trans h₁.dispositions,
    h₂.supersessions.trans h₁.supersessions, h₂.goals.trans h₁.goals, h₂.reviews.trans h₁.reviews,
    h₂.decisions.trans h₁.decisions, Rows.evolve_trans maybeAbandoned_trans h₁.turns h₂.turns⟩

theorem Commanded.of_messaged {g : WorkFile} (h : Messaged f g) : Commanded f g := by
  cases h with
  | again => exact .of_eq rfl rfl rfl rfl rfl rfl rfl rfl
  | sent => exact .of_eq rfl rfl rfl rfl rfl rfl rfl rfl

theorem Commanded.of_renewal {m : Move} {g : WorkFile} (h : Renewal f m g) : Commanded f g := by
  cases h
  rw [givenUp_eq]
  exact .of_eq rfl rfl rfl rfl rfl rfl rfl rfl

theorem Commanded.of_consumption {c : BoundaryContinuation} {g : WorkFile}
    (h : Consumption f c g) : Commanded f g := by
  cases h
  exact .of_eq rfl rfl rfl rfl rfl rfl rfl rfl

theorem Commanded.of_write {k : WriteKind} (hk : k ∈ commands) {g : WorkFile} (h : Write f k g) :
    Commanded f g := by
  cases h with
  | abandon p => exact ⟨rfl, rfl, rfl, rfl, rfl, rfl, rfl, maybeAbandoned_abandon p f⟩
  | message _ h => exact .of_messaged h
  | renew _ _ _ h => exact .of_renewal h
  | renewContinued _ _ _ _ _ _ h hsent _ hconsumed =>
    exact ((Commanded.of_renewal h).trans (.of_messaged hsent)).trans (.of_consumption hconsumed)
  | reply a c g' _ _ _ hconsumed =>
    have h := Commanded.of_consumption hconsumed
    exact ⟨h.id, h.boundaries, h.dispositions, h.supersessions, h.goals, h.reviews, h.decisions,
      h.turns⟩
  | number | handover | cancel | finish | pause => exact .of_eq rfl rfl rfl rfl rfl rfl rfl rfl
  | prune | lease | complete | decide | giveUp | sealDecision | close | supersede | record
  | rederive | acknowledge | attend | bypass | release | replace | replaceContinued | resume
  | review | reject | accept => simp [commands] at hk

theorem Commanded.of_writes {g : WorkFile} (h : Relation.ReflTransGen (Writes commands) f g) :
    Commanded f g := by
  induction h with
  | refl => exact .of_eq rfl rfl rfl rfl rfl rfl rfl rfl
  | tail _ hlast ih =>
    obtain ⟨k, hk, hw⟩ := hlast
    exact ih.trans (.of_write hk hw)

/-- What is known after a command, beside the command itself. -/
theorem Commanded.of_makes {m : FileTx α} (h : Makes (Writes commands) f m) :
    wp m (fun _ g => Relation.ReflTransGen (Writes settled) f g ∧ Commanded f g)
      (fun _ => True) f :=
  wp_mono h (fun _ _ hg => ⟨Relation.ReflTransGen.mono (fun _ _ hw => hw.imp fun _ hk =>
    ⟨(by decide : commands ⊆ settled) hk.1, hk.2⟩) _ _ hg, .of_writes hg⟩) fun _ h => h

theorem commands_subset : commands ⊆ settled := by decide

theorem reconciliations_subset : reconciliations ⊆ settled := by decide

theorem settled_subset : settled ⊆ paired := by decide

theorem paired_subset : paired ⊆ supervisions := by decide

theorem makes_paired {m : FileTx α} (h : Makes (Writes paired) f m) :
    Makes (Writes supervisions) f m := makes_mono paired_subset h

theorem makes_settled {m : FileTx α} (h : Makes (Writes settled) f m) :
    Makes (Writes paired) f m := makes_mono settled_subset h

theorem makes_command {m : FileTx α} (h : Makes (Writes commands) f m) :
    Makes (Writes settled) f m := makes_mono commands_subset h

/-! ## Settling -/

theorem makes_supersede (hS : .supersession ∈ S) (hS' : .abandonment ∈ S) (id : BoundaryId)
    (reason : SupersessionReason) :
    Makes (Writes S) f (do insertSupersession ⟨id, reason⟩; supersedeBoundaryDeliveries id) :=
  .bind (makes_statement hS fun hs => .supersede _ hs) fun _ _ _ => makes_abandonTurns hS' _

theorem makes_supersedeBoundaries (p : Boundary → Bool) (reason : SupersessionReason) :
    Makes (Writes settled) f (supersedeBoundaries p reason) :=
  .get (.each fun b _ _ => makes_supersede (by decide) (by decide) b.id reason)

theorem makes_backfillRecoveryActions (env : Env) :
    Makes (Writes reconciliations) f (backfillRecoveryActions env) := by
  unfold backfillRecoveryActions
  refine .get (makes_after_abandon (by decide) ?_)
  refine .bind (.each fun b _ _ => makes_supersede (by decide) (by decide) b.id _) fun _ g _ =>
    .get ?_
  exact .single ⟨_, by decide, .rederive env f⟩

theorem work_of_reconciled {g : WorkFile}
    (h : Relation.ReflTransGen (Writes reconciliations) f g) : g.work = f.work := by
  induction h with
  | refl => rfl
  | tail _ hlast ih =>
    obtain ⟨k, hk, hw⟩ := hlast
    cases hw with
    | abandon | supersede | rederive => exact ih
    | handover _ _ _ _ hg => cases hg <;> simp [reconciliations] at hk
    | number | message | prune | lease | complete | decide | giveUp | sealDecision | close | record
    | acknowledge | cancel | finish | attend | bypass | release | renew | renewContinued
    | replace | replaceContinued | reply | pause | resume | review | reject | accept =>
      simp [reconciliations] at hk

theorem makes_backfill (env : Env) :
    Makes (Writes settled) f (backfillRecoveryActions env) :=
  makes_mono reconciliations_subset (makes_backfillRecoveryActions env)

/-- The disposition of a decision, the turn that it ends and everything the
decision asks for. -/
theorem makes_decideBoundary (env : Env) (actor : Actor) {b : Boundary} {a : Attempt}
    {t : ReasonerTurn} (hb : b ∈ f.boundaries) (ha : a ∈ f.attempts) (ht : t ∈ f.turns)
    (htarget : ∀ m, Targets f m a.number) (review : Option Review) (r : BoundaryDispositionInput)
    (hid : t.id = r.turnId) (htb : t.boundaryId = b.id) :
    Makes (Writes settled) f (decideBoundary env actor b a review r) := by
  unfold decideBoundary
  refine .get (makes_after_newId (by decide) ?_)
  unfold insertDisposition Makes
  rw [wp_bind, Tx.wp_statement]
  refine ⟨fun hd => ?_, fun _ => trivial⟩
  set d := decision r b actor.id ⟨f.id, f.nextNumber⟩ with hddef
  refine Makes.after ?_ (.single ⟨_, by decide, .decide b t d hb ht hd ⟨rfl, hid.symm, htb⟩⟩)
  -- The command writes neither Boundaries nor dispositions, and keeps the turns.
  refine .bind_of (P := fun _ g => b ∈ g.boundaries ∧ d ∈ g.dispositions ∧
      ∃ u ∈ g.turns, u.id = r.turnId ∧ u.boundaryId = b.id)
    (wp_mono (Commanded.of_makes (makes_applyDisposition env actor b (by exact ha)
      (by exact htarget) review r))
      (fun _ g hg => ?_) fun _ h => h)
    fun _ g hg => ?_
  · obtain ⟨hg, hframe⟩ := hg
    refine ⟨hg, ?_, ?_, ?_⟩
    · rw [hframe.boundaries]
      exact hb
    · rw [hframe.dispositions]
      exact List.mem_cons_self
    · obtain ⟨u, hu, htu⟩ := Rows.exists_right hframe.turns ht
      rcases htu with rfl | rfl
      · exact ⟨u, hu, hid, htb⟩
      · exact ⟨_, hu, hid, htb⟩
  · obtain ⟨hgb, hgd, u, hu, huid, hub⟩ := hg
    rw [← huid]
    refine .bind (makes_modify (by decide)
      (.complete b u d hgb hu hgd ⟨rfl, huid.symm, hub⟩)) fun _ _ _ => ?_
    exact .bind (.when fun _ => .bind (makes_message (by decide) env _) fun _ _ _ =>
      makes_pure _) fun _ _ _ => .bind (.when fun _ => makes_supersedeBoundaries _ _)
      fun _ _ _ => makes_pure _

/-- The tail of an escalation, after its decision. -/
theorem makes_escalated (env : Env) {b : Boundary} (hb : b ∈ f.boundaries) (m : MessageRequest)
    (d : BoundaryDisposition) :
    Makes (Writes settled) f (do
      advance b.attemptNumber (.inState .inputRequired) (.awaitUser b.id)
      supersedeBoundaryDeliveries b.id
      let _ ← message env m
      pure d) :=
  .bind (makes_advance (k := .handover) (by decide) (.awaitUser b.id)
      (.inr (.inr (.inl ⟨b, hb, rfl, .inr rfl⟩)))) fun _ _ _ =>
    .bind (makes_abandonTurns (by decide) _) fun _ _ _ =>
    .bind (makes_message (by decide) env _) fun _ _ _ => makes_pure _

theorem wp_escalationTurn_some (env : Env) (b : Boundary) (supervisorId : PrincipalId)
    (t : TurnId) (result : Digest) {Q : TurnId → WorkFile → Prop} {E : Failure → Prop} :
    wp (escalationTurn env b supervisorId (some t) result) Q E f ↔ Q t (complete t result f) :=
  Iff.rfl

theorem wp_escalationTurn_none (env : Env) (b : Boundary) (supervisorId : PrincipalId)
    (result : Digest) {Q : TurnId → WorkFile → Prop} {E : Failure → Prop}
    (h : ∀ t : ReasonerTurn, t = sealedTurn b supervisorId b.generation b.goalVersion
        ⟨f.id, f.nextNumber⟩ (turnInputDigest b b.generation) result env.now
        (.systemEscalation b.id) →
      TurnInsertable env t { f with nextNumber := f.nextNumber + 1 } →
      Q t.id { f with nextNumber := f.nextNumber + 1, turns := t :: f.turns })
    (hE : E (.integrity "reasoner_turns")) :
    wp (escalationTurn env b supervisorId none result) Q E f := by
  unfold escalationTurn insertTurn
  rw [wp_bind, wp_newId, wp_bind, Tx.wp_statement]
  exact ⟨fun ht => h _ rfl ht, fun _ => hE⟩

theorem makes_escalateSupervision (env : Env) {b : Boundary} (hb : b ∈ f.boundaries)
    (code : EscalationReason) {turn : Option TurnId}
    (hturn : ∀ id ∈ turn, ∃ t ∈ f.turns, t.id = id ∧ t.boundaryId = b.id)
    (request : Option Digest) :
    Makes (Writes settled) f (escalateSupervision env b code turn request) := by
  unfold escalateSupervision
  refine .get (makes_after_newId (by decide) ?_)
  unfold Makes insertDisposition
  cases turn with
  | some id =>
    obtain ⟨t, ht, rfl, htb⟩ := hturn id rfl
    rw [wp_bind, wp_escalationTurn_some, wp_bind, Tx.wp_statement]
    refine ⟨fun hd => (makes_escalated env (by exact hb) _ _).after ?_, fun _ => trivial⟩
    exact .single ⟨_, by decide, .giveUp b t _ (by exact hb) (by exact ht) ⟨rfl, rfl, htb⟩ hd⟩
  | none =>
    rw [wp_bind]
    refine wp_escalationTurn_none env b _ _ (fun t htdef ht => ?_) trivial
    rw [wp_bind, Tx.wp_statement]
    refine ⟨fun hd => (makes_escalated env (by exact hb) _ _).after ?_, fun _ => trivial⟩
    have htsealed : t = sealedFor b
        (escalation b f.work.supervisorId ⟨f.id, f.nextNumber⟩ t.id
          (request.getD (.escalation b.id code)))
        b.goalVersion env.now (.systemEscalation b.id) := by
      rw [htdef]
      rfl
    rw [htsealed] at ht hd ⊢
    exact .tail (.single ⟨_, by decide, .number⟩) ⟨_, by decide,
      .sealDecision env b _ b.goalVersion env.now (.systemEscalation b.id) (by exact hb) rfl ht hd⟩

theorem mem_of_boundary? {id : BoundaryId} {b : Boundary} (h : f.boundary? id = some b) :
    b ∈ f.boundaries ∧ b.id = id :=
  ⟨List.mem_of_find?_eq_some h, by simpa using List.find?_some h⟩

theorem mem_of_turn? {id : TurnId} {t : ReasonerTurn} (h : f.turn? id = some t) :
    t ∈ f.turns ∧ t.id = id :=
  ⟨List.mem_of_find?_eq_some h, by simpa using List.find?_some h⟩

theorem mem_of_attempt? {number : ℕ} {a : Attempt} (h : f.attempt? number = some a) :
    a ∈ f.attempts ∧ a.number = number :=
  ⟨List.mem_of_find?_eq_some h, by simpa using List.find?_some h⟩

theorem mem_of_latestAttempt? {a : Attempt} (h : f.latestAttempt? = some a) : a ∈ f.attempts :=
  List.mem_of_mem_head? h

/-- The latest Attempt keeps its place when Attempts change in place. -/
theorem latestAttempt?_withAttempt {number : ℕ} {g : Attempt → Attempt} {a : Attempt}
    (hsame : ∀ a, (g a).number = a.number)
    (h : (withAttempt number g f).latestAttempt? = some a) :
    ∃ a₀, f.latestAttempt? = some a₀ ∧ a₀.number = a.number := by
  unfold latestAttempt? withAttempt Rows.update at *
  rw [List.head?_map, Option.map_eq_some_iff] at h
  obtain ⟨a₀, ha₀, rfl⟩ := h
  refine ⟨a₀, ha₀, ?_⟩
  split
  · exact (hsame a₀).symm
  · rfl

theorem makes_disposeBoundary (env : Env) (actor : Actor) (id : BoundaryId)
    (r : BoundaryDispositionInput) (escalate : Bool) :
    Makes (Writes settled) f (disposeBoundary env actor id r escalate) := by
  unfold disposeBoundary
  refine .require fun _ => makes_after_check fun _ _ => .bind (makes_backfill env) fun _ f _ =>
    .get (.need fun b hb => .reads (reads_authorizeWorkActor actor) fun _ _ => ?_)
  split
  · exact .require fun _ => makes_pure _
  · refine makes_after_check fun _ _ => .require fun _ => .require fun _ => .require fun hwork =>
      .require fun hboundary => .need fun t ht => .require fun howns => .require fun _ => .require fun _ =>
      .need fun a ha => .require fun _ => makes_after_check fun _ _ => ?_
    refine .reads (P := fun _ => True) (reads_when (reads_requirePauseSafe env b)) fun _ _ => ?_
    have hb := mem_of_boundary? hb
    have ht := mem_of_turn? ht
    have htb : t.boundaryId = b.id := howns.2.2.2.2.1
    have ha := mem_of_attempt? ha
    have htarget : ∀ m, Targets f m a.number := fun m => by
      rw [ha.2]
      exact .of_boundary hb.1 (hboundary.trans hwork.symm)
    have hdecide := makes_decideBoundary env actor hb.1 ha.1 ht.1 htarget
      (f.reviews.find? fun q => q.boundaryId = some id) r ht.2 htb
    refine .ite (fun _ => ?_) fun _ => hdecide
    split
    · exact hdecide
    · refine makes_escalateSupervision env hb.1 _ (fun u hu => ⟨t, ht.1, ?_, htb⟩) _
      exact Option.some.inj hu
    · exact makes_throw _

/-- What a recorded Boundary is known by, once it has been recorded. -/
theorem wp_recordBoundaryTx (env : Env) (sourceId : PrincipalId) (role : PrincipalRole)
    (r : BoundaryInput) :
    wp (recordBoundaryTx env sourceId role r)
      (fun b g => Relation.ReflTransGen (Writes quiet) f g ∧ g.work = f.work ∧
        (r.metadata.runtimeRecovery = false → b ∈ g.boundaries ∧ g.attempts = f.attempts))
      (fun _ => True) f := by
  have htail : ∀ (b : Boundary) (g : WorkFile), b ∈ g.boundaries → g.attempts = f.attempts →
      g.work = f.work → Relation.ReflTransGen (Writes quiet) f g →
      wp (Tx.when (r.metadata.runtimeRecovery = true) (backfillRecoveryActions env))
        (fun _ g => Relation.ReflTransGen (Writes quiet) f g ∧ g.work = f.work ∧
          (r.metadata.runtimeRecovery = false → b ∈ g.boundaries ∧ g.attempts = f.attempts))
        (fun _ => True) g := fun b g hb ha hwork hg => by
    rw [wp_when]
    refine ⟨fun hc => ?_, fun _ => ⟨hg, hwork, fun _ => ⟨hb, ha⟩⟩⟩
    refine wp_mono (makes_backfillRecoveryActions env) (fun _ g' hg' => ⟨hg.trans ?_,
      (work_of_reconciled hg').trans hwork, fun hn => ?_⟩) fun _ h => h
    · exact Relation.ReflTransGen.mono (fun _ _ hw => hw.imp fun _ hk =>
        ⟨(by decide : reconciliations ⊆ quiet) hk.1, hk.2⟩) _ _ hg'
    · rw [hc] at hn
      cases hn
  unfold recordBoundaryTx
  rw [wp_bind, wp_get]
  split
  · next b hfind =>
    rw [wp_bind, wp_require, wp_bind]
    exact ⟨fun _ => htail b f (List.mem_of_find?_eq_some hfind) rfl rfl .refl, fun _ => trivial⟩
  · simp only [wp_bind, wp_require, wp_need, requireNotPaused, wp_get, wp_newId, insertBoundary,
      Tx.wp_statement]
    refine ⟨fun _ => ⟨fun a ha => ⟨fun _ => ⟨fun hgoal => ⟨fun hpackets => ⟨fun hgeneration =>
      ⟨fun hlatest => ⟨fun hpaused => ⟨fun hb => ?_, ?_⟩, ?_⟩, ?_⟩, ?_⟩, ?_⟩, ?_⟩, ?_⟩, ?_⟩, ?_⟩
    case refine_1 =>
      have hreports : ReportsOn f a
          { id := ⟨f.id, f.nextNumber⟩, sourcePrincipalId := sourceId,
            sourceEventId := r.sourceEventId, attemptNumber := r.attemptNumber,
            goalVersion := r.expectedGoalVersion, generation := r.expectedGeneration,
            goalPacketDigest := r.expectedGoalPacketDigest,
            taskPacketDigest := r.expectedTaskPacketDigest, kind := r.kind, summary := r.summary,
            metadata := r.metadata, recoveryAction := boundaryRecoveryAction r.metadata,
            inputDigest := r.digest f.id } :=
        ⟨(mem_of_attempt? ha).2.symm, hgeneration.symm, hgoal.symm, hpackets.2.2.symm,
          hpackets.1.symm, hpackets.2.1.symm⟩
      have hw := Write.record (f := { f with nextNumber := f.nextNumber + 1 }) env _ a r hlatest
        hreports ⟨rfl, rfl, rfl⟩ hpaused hb
      exact htail _ _ List.mem_cons_self rfl rfl (.tail (.single ⟨.number, by decide, .number⟩)
        ⟨.boundary, by decide, hw⟩)
    all_goals exact fun _ => trivial

theorem makes_recordBoundaryTx_mem (env : Env) (sourceId : PrincipalId) (role : PrincipalRole)
    (r : BoundaryInput) :
    wp (recordBoundaryTx env sourceId role r)
      (fun b g => Relation.ReflTransGen (Writes paired) f g ∧ g.work = f.work ∧
        (r.metadata.runtimeRecovery = false → b ∈ g.boundaries ∧ g.attempts = f.attempts))
      (fun _ => True) f :=
  wp_mono (wp_recordBoundaryTx env sourceId role r) (fun _ _ h => ⟨Relation.ReflTransGen.mono
    (fun _ _ hw => hw.imp fun _ hk => ⟨(by decide : quiet ⊆ paired) hk.1, hk.2⟩) _ _ h.1, h.2⟩)
    fun _ h => h

theorem makes_recordBoundaryTx (env : Env) (sourceId : PrincipalId) (role : PrincipalRole)
    (r : BoundaryInput) :
    Makes (Writes paired) f (recordBoundaryTx env sourceId role r) :=
  wp_mono (makes_recordBoundaryTx_mem env sourceId role r) (fun _ _ h => h.1) fun _ h => h

theorem makes_recordBoundary (env : Env) (actor : Actor) (r : BoundaryInput) :
    Makes (Writes paired) f (recordBoundary env actor r) :=
  .require fun _ => .bind (makes_recordBoundaryTx env _ _ _) fun _ _ _ => .get <|
    .bind (makes_message (by decide) env _) fun _ _ _ => makes_pure _

theorem mem_of_selectedBoundary {id : Option BoundaryId} {generation : ℕ} {b : Boundary}
    (h : f.selectedBoundary id generation = some b) :
    b ∈ f.boundaries ∧ f.Open b.id ∧ b.generation = generation := by
  unfold selectedBoundary at h
  split at h
  · obtain ⟨hb, hp⟩ := Option.filter_eq_some_iff.mp h
    have hp : b.generation = generation ∧ f.Open b.id := by simpa using hp
    exact ⟨(mem_of_boundary? hb).1, hp.2, hp.1⟩
  · split at h
    · next c hc =>
      obtain rfl : c = b := Option.some.inj h
      have hmem : c ∈ f.openBoundaries.filter fun b => b.generation = generation := by
        rw [hc]
        exact List.mem_cons_self
      obtain ⟨hopen, hg⟩ := List.mem_filter.mp hmem
      rw [mem_openBoundaries] at hopen
      exact ⟨hopen.1, hopen.2, by simpa using hg⟩
    · cases h

theorem makes_acquireReasonerTurn_of (hS : .lease :: .number :: reconciliations ⊆ S) (env : Env)
    (actor : Actor) (id : Option BoundaryId) (g l : ℕ) (key : TurnKey) (token : String) :
    Makes (Writes S) f (acquireReasonerTurn env actor id g l key token) := by
  unfold acquireReasonerTurn
  refine .require fun _ => .require fun _ => .require fun _ => .reads (reads_enter env actor)
    fun _ _ => .get (.require fun _ => .require fun _ => .bind (makes_mono
      (fun _ hk => hS (List.mem_cons_of_mem _ (List.mem_cons_of_mem _ hk)))
      (makes_backfillRecoveryActions env)) fun _ f _ => ?_)
  split
  · exact makes_check _
  · refine .get (.require fun hgeneration => .require fun _ => .need fun b hb =>
      .require fun hgoal => .require fun _ => .reads reads_currentGoal fun goal _ =>
      .need fun a _ => .require fun _ => .require fun _ => makes_after_abandon (hS (by decide)) <|
      makes_after_newId (hS (by decide)) ?_)
    rw [← hgeneration, ← hgoal]
    exact makes_statement (k := .lease) (hS (by decide)) fun ht =>
      .lease env b actor.id _ token _ key (mem_of_selectedBoundary hb).1 ht

theorem makes_acquireReasonerTurn (env : Env) (actor : Actor) (id : Option BoundaryId) (g l : ℕ)
    (key : TurnKey) (token : String) :
    Makes (Writes settled) f (acquireReasonerTurn env actor id g l key token) :=
  makes_acquireReasonerTurn_of (by decide) env actor id g l key token

/-! ## The other transactions -/

theorem makes_sealRetry (env : Env) (actor : Actor) {previous : Attempt} {b : Boundary}
    (hprevious : previous ∈ f.attempts) (hb : b ∈ f.boundaries) (r : RetryInput) :
    Makes (Writes settled) f (sealRetry env actor previous b r) := by
  unfold sealRetry insertTurn insertDisposition
  refine .get (makes_after_newId (by decide) (makes_after_newId (by decide) ?_))
  unfold Makes
  rw [wp_bind, Tx.wp_statement]
  refine ⟨fun ht => ?_, fun _ => trivial⟩
  rw [wp_bind, Tx.wp_statement]
  refine ⟨fun hd => ?_, fun _ => trivial⟩
  exact Makes.after (.bind (makes_command (makes_retryAttempt env _ (by exact hprevious) _ _ _ _))
      fun _ _ _ => makes_pure _)
    (.single ⟨.disposition, by decide, .sealDecision env b _ _ _ _ (by exact hb) rfl ht hd⟩)

theorem makes_createAttempt (env : Env) (actor : Actor) (r : RetryInput) :
    Makes (Writes paired) f (createAttempt env actor r) := by
  unfold createAttempt
  refine .reads (reads_enter env actor) fun _ _ => ?_
  split
  · exact makes_check _
  · refine .get (.need fun previous hprevious => .require fun _ => ?_)
    have hprevious := mem_of_latestAttempt? hprevious
    split
    · next b hb =>
      exact .ite (fun _ => makes_check _) fun _ => .reads reads_requireRetriable fun _ _ =>
        .require fun _ => makes_after_check fun _ _ => .require fun _ =>
        makes_settled (makes_sealRetry env actor hprevious (List.mem_of_find?_eq_some hb) r)
    · refine .reads reads_requireRetriable fun _ _ => makes_after_check fun _ _ =>
        .require fun _ => .bind_of (P := fun b g => b ∈ g.boundaries ∧ previous ∈ g.attempts)
        (wp_mono (makes_recordBoundaryTx_mem env _ _ _) (fun b g hg => ⟨hg.1, ?_⟩) fun _ h => h)
        fun b g hg => makes_settled (makes_sealRetry env actor hg.2 hg.1 r)
      obtain ⟨hb, ha⟩ := hg.2.2 rfl
      exact ⟨hb, ha ▸ hprevious⟩

theorem makes_resumeWork (env : Env) (actor : Actor) (r : WorkResumeInput) :
    Makes (Writes settled) f (resumeWork env actor r) := by
  unfold resumeWork
  refine makes_after_check fun _ _ => .reads (reads_enter env actor) fun _ _ => ?_
  split
  · exact makes_check _
  · refine makes_after_check fun _ _ => .get (.require fun _ => .require fun _ =>
      .need fun previous hprevious => ?_)
    have hlatest := (Option.filter_eq_some_iff.mp hprevious).1
    refine .bind (makes_command (makes_retryAttempt env _ (mem_of_latestAttempt? hlatest) _ _ _ _))
      fun a g _ => .get (.need fun m _ => ?_)
    exact makes_statement (k := .resumption) (by decide) fun hr => .resume _ hr

theorem makes_replyUserNeeded (env : Env) (actor : Actor) (r : ReplyInput) :
    Makes (Writes settled) f (replyUserNeeded env actor r) := by
  unfold replyUserNeeded
  refine makes_after_check fun _ _ => .reads (reads_enter env actor) fun _ _ => ?_
  split
  · exact makes_check _
  · refine makes_after_check fun _ _ => .get (.need fun a ha =>
      .reads (reads_currentUserNeededBoundary _ _) fun continuation _ => .need fun b _ =>
      makes_after_check fun admission _ => .ite (fun _ => ?_) fun _ => ?_)
    · have hlatest := mem_of_latestAttempt? (Option.filter_eq_some_iff.mp ha).1
      exact .bind (makes_command (makes_retryAttempt env _ hlatest _ _ _ _)) fun _ _ _ =>
        makes_pure _
    · obtain ⟨hlatest, hstate⟩ := Option.filter_eq_some_iff.mp ha
      have hgeneration : f.work.generation = r.expectedGeneration := by
        simp only [decide_eq_true_eq] at hstate
        exact hstate.1
      unfold setAttemptState Makes
      rw [wp_bind]
      refine wp_mono (wp_message env _) (fun id g hsent => ?_) fun _ _ => trivial
      rw [wp_bind]
      refine wp_mono (wp_consumeUserNeededBoundary _ _ _ _ _ _ _) (fun _ h hh => ?_) fun _ h => h
      obtain ⟨c, hconsumed, hsame, hsuccessor⟩ := hh
      refine .tail (.single ⟨.message, by decide, .message g hsent.2⟩)
        ⟨.continuation, by decide, .reply a c h ?_ hsame ?_ hconsumed⟩
      · rw [hsent.1.rest]
        exact hlatest
      · rw [hsent.1.rest, hsuccessor]
        exact hgeneration.symm

theorem makes_answerBoundary (env : Env) (actor : Actor) (id : BoundaryId)
    (text key token : String) :
    Makes (Writes settled) f (answerBoundary env actor id text key token) := by
  unfold answerBoundary
  refine .get (.need fun b hb => .require fun _ => .require fun _ =>
    makes_after_abandon (by decide) (makes_after_newId (by decide) ?_))
  refine .bind (makes_statement (k := .lease) (by decide) fun ht => ?_) fun _ _ _ =>
    .bind (makes_disposeBoundary env actor _ _ _) fun _ _ _ => makes_pure _
  exact .lease env b actor.id _ token _ _ (mem_of_boundary? hb).1 ht

theorem makes_replyOpenBoundary (env : Env) (actor : Actor) (inReplyTo : Option WorkMessageId)
    (text key token : String) :
    Makes (Writes settled) f (replyOpenBoundary env actor inReplyTo text key token) := by
  unfold replyOpenBoundary
  refine makes_after_check fun _ _ => .reads (reads_enter env actor) fun _ _ => ?_
  split
  · exact makes_check _
  · exact makes_after_check fun _ _ => .reads reads_requireNotPaused fun _ _ =>
      .get (.need fun _ _ => .when fun _ => .reads (reads_repliedBoundary _) fun _ _ =>
        makes_answerBoundary env actor _ _ _ _)

/-- **What the replacement of a goal does**: it renews the authority of the
Work. -/
theorem ensures_replaceGoal (env : Env) (actorId : PrincipalId) (r : WorkAssignment)
    (reason : String) (directive : DirectiveId) (intent receipt : Option ℕ)
    (purpose : Option String) :
    Ensures f (replaceGoal env actorId r reason directive intent receipt purpose) fun _ g =>
      Relation.ReflTransGen (Writes settled) f g ∧ f.work.generation < g.work.generation := by
  unfold replaceGoal
  refine reads_requireNotPaused.bind fun _ hrunning => .get (.need fun previous hprevious =>
    (reads_currentUserNeededBoundary _ _).bind fun continuation hcontinuation =>
    ensures_after_check fun admission _ => ensures_after_check fun _ _ =>
    reads_currentGoal.bind fun prior _ => (reads_attachmentPacket env).bind
    fun packet hpacket => ?_)
  have habandoned : Relation.ReflTransGen (Writes settled) f (abandon (fun _ => true) f) :=
    .single ⟨.abandonment, by decide, .abandon _⟩
  unfold Ensures fenceReasonerTurns insertGoal
  rw [wp_bind, wp_abandonTurns, wp_bind, Tx.wp_statement]
  refine ⟨fun hfresh => ?_, fun _ => trivial⟩
  rw [wp_bind, wp_startAttempt]
  refine ⟨fun hm => ⟨fun hnew => ?_, fun _ => trivial⟩, fun _ => trivial⟩
  have hprevious := mem_of_latestAttempt? hprevious
  rw [wp_bind]
  refine wp_mono (wp_message env _) (fun id f₂ hsent => ?_) fun _ _ => trivial
  rw [wp_bind]
  cases continuation with
  | none =>
    have hreplaced : Write (abandon (fun _ => true) f) .goal _ :=
      .replace r.workerId _ (.intro _ previous _ _ admission.runtimeSessionId r _ _ _ packet rfl rfl
        (by exact hpacket) (by exact hrunning) hfresh (by exact hprevious) (.inr rfl) hm hnew)
    refine grown_of_makes (makes_supersedeBoundaries _ _) ((habandoned.tail
      ⟨.goal, by decide, hreplaced⟩).tail ⟨.message, by decide, .message f₂ hsent.2⟩) ?_
    rw [hsent.2.work_eq]
    show f.work.generation < (moved _ (givenUp previous _)).work.generation
    rw [givenUp_eq]
    exact Nat.lt_succ_self _
  | some b =>
    refine wp_mono (wp_consumeUserNeededBoundary _ _ _ _ _ _ _) (fun _ g hg => ?_) fun _ h => h
    obtain ⟨c, hconsumed, -, hgeneration⟩ := hg
    have hreplaced : Write (abandon (fun _ => true) f) .goal g :=
      .replaceContinued r.workerId _ f₂ g c (awaiting_of_continuation hcontinuation)
        (.intro _ previous _ _ admission.runtimeSessionId r _ _ _ packet rfl rfl (by exact hpacket)
          (by exact hrunning) hfresh (by exact hprevious) (.inl rfl) hm hnew)
        hsent.2 hgeneration hconsumed
    refine grown_of_makes (makes_supersedeBoundaries _ _) (habandoned.tail ⟨.goal, by decide, hreplaced⟩) ?_
    rw [hconsumed.work_eq]
    show f.work.generation < c.successorGeneration
    rw [hgeneration]
    exact Nat.lt_succ_self _

theorem makes_replaceGoal (env : Env) (actorId : PrincipalId) (r : WorkAssignment)
    (reason : String) (directive : DirectiveId) (intent receipt : Option ℕ)
    (purpose : Option String) :
    Makes (Writes settled) f
      (replaceGoal env actorId r reason directive intent receipt purpose) :=
  (ensures_replaceGoal env actorId r reason directive intent receipt purpose).mono
    fun _ _ h => h.1

theorem makes_cancelWork (env : Env) (actorId : PrincipalId) (reason : String)
    (directive : Option DirectiveId) :
    Makes (Writes settled) f (cancelWork env actorId reason directive) := by
  unfold cancelWork
  refine .get (.require fun _ => .ite (fun _ => makes_pure _) fun _ =>
    makes_after_abandon (by decide) ?_)
  cases hlatest : f.latestAttempt? with
  | none =>
    unfold cancelAttempt
    exact .bind (makes_statement (k := .handover) (by decide) fun hm => .cancel hm hlatest)
      fun _ _ _ => .bind (makes_pure _) fun _ _ _ => .get (makes_supersedeBoundaries _ _)
  | some a =>
    unfold cancelAttempt
    simp only [bind_assoc]
    refine makes_moveAttempt (S := settled) (k := .handover) (by decide) .cancel
      (.of_latest (by exact hlatest)) ?_
    exact .bind (.when fun _ => makes_notice (by decide) env _) fun _ _ _ =>
      .get (makes_supersedeBoundaries _ _)

theorem makes_interruptTarget (w : WorkId) :
    Makes (Writes (.bypass :: settled)) f (interruptTarget w) := by
  unfold interruptTarget
  refine .reads (reads_requireLive _) fun _ _ => .get (.require fun _ =>
    makes_after_abandon (by decide) ?_)
  cases hlatest : f.latestAttempt? with
  | none =>
    exact .bind (makes_statement (k := .bypass) (by decide) fun hm => .bypass _ hm
      (.interrupt w fun a ha => by cases hlatest.symm.trans ha)) fun _ _ _ => makes_pure _
  | some a =>
    by_cases hended : a.state.terminal = true
    · simp only [hended, if_true]
      exact .bind (makes_statement (k := .bypass) (by decide) fun hm => .bypass _ hm
        (.interrupt w fun b hb => Option.some.inj (hlatest.symm.trans hb) ▸ hended))
        fun _ _ _ => makes_pure _
    · simp only [hended]
      rw [← bind_pure (setAttemptState a.number .suspended)]
      exact makes_moveAttempt (S := .bypass :: settled) (k := .handover) (by decide) (.interrupt w)
        (.of_latest (by exact hlatest)) (makes_pure _)

/-- The interruption of an Attempt that has not ended. -/
theorem makes_interruptTarget_of_live (w : WorkId)
    (h : f.work.state.terminal = false →
      ∃ a, f.latestAttempt? = some a ∧ a.state.terminal = false) :
    Makes (Writes settled) f (interruptTarget w) := by
  unfold interruptTarget
  refine .reads (reads_requireLive _) fun _ hlive => .get (.require fun _ =>
    makes_after_abandon (by decide) ?_)
  obtain ⟨a, hlatest, hended⟩ := h hlive
  rw [hlatest]
  simp only [hended]
  rw [← bind_pure (setAttemptState a.number .suspended)]
  exact makes_moveAttempt (S := settled) (k := .handover) (by decide) (.interrupt w)
    (.of_latest (by exact hlatest)) (makes_pure _)

/-- The return to an Attempt that was suspended. -/
theorem makes_resumeInterruptedTarget_of_suspended (env : Env) (w : WorkId)
    (actorId : PrincipalId) (h : f.work.state = .suspended →
      ∃ a, f.latestAttempt? = some a ∧ a.state = .suspended) :
    Makes (Writes settled) f (resumeInterruptedTarget env w actorId) := by
  unfold resumeInterruptedTarget
  refine .get (.ite (fun hsuspended => makes_after_abandon (by decide) ?_) fun _ => makes_pure _)
  obtain ⟨a, hlatest, hstate⟩ := h hsuspended.1
  rw [hlatest]
  dsimp only
  split
  · exact makes_pure _
  · exact makes_throw _
  · refine .ite (fun _ => ?_) fun _ => ?_
    · refine .bind_of (P := fun _ g => g.work.state = .active) (wp_mono
        (wp_retryAttempt env actorId (by exact mem_of_latestAttempt? hlatest) _ _ _ _)
        (fun _ g hg => ⟨Relation.ReflTransGen.mono (fun _ _ hw => hw.imp fun _ hk =>
          ⟨commands_subset hk.1, hk.2⟩) _ _ hg.1, hg.2.1⟩) fun _ h => h) fun _ g hactive => ?_
      exact makes_statement (k := .release) (by decide) fun hm => .release hm hactive
    · simp only [hstate, Tx.when, if_true]
      refine makes_moveAttempt (S := settled) (k := .handover) (by decide) .resume
        (.of_latest (by exact hlatest)) ?_
      exact makes_notice (by decide) env _

theorem makes_resumeInterruptedTarget (env : Env) (w : WorkId) (actorId : PrincipalId) :
    Makes (Writes (.bypass :: settled)) f (resumeInterruptedTarget env w actorId) := by
  unfold resumeInterruptedTarget
  refine .get (.ite (fun hsuspended => makes_after_abandon (by decide) ?_) fun _ => makes_pure _)
  cases hlatest : f.latestAttempt? with
  | none =>
    exact makes_statement (k := .bypass) (by decide) fun hm => .bypass _ hm
      (.resume fun a ha => by cases hlatest.symm.trans ha)
  | some a =>
    dsimp only
    split
    · exact makes_pure _
    · exact makes_throw _
    · refine .ite (fun _ => ?_) fun _ => ?_
      · refine .bind_of (P := fun _ g => g.work.state = .active) (wp_mono
          (wp_retryAttempt env actorId (by exact mem_of_latestAttempt? hlatest) _ _ _ _)
          (fun _ g hg => ⟨Relation.ReflTransGen.mono (fun _ _ hw => hw.imp fun _ hk =>
            ⟨List.mem_cons_of_mem _ (commands_subset hk.1), hk.2⟩) _ _ hg.1, hg.2.1⟩) fun _ h => h)
          fun _ g hactive => ?_
        exact makes_statement (k := .release) (by decide) fun hm => .release hm hactive
      · by_cases hstate : a.state = .suspended
        · simp only [hstate, Tx.when, if_true]
          refine makes_moveAttempt (S := .bypass :: settled) (k := .handover) (by decide) .resume
            (.of_latest (by exact hlatest)) ?_
          exact makes_notice (by decide) env _
        · simp only [hstate, Tx.when, if_false]
          exact .bind (makes_statement (k := .bypass) (by decide) fun hm => .bypass _ hm
            (.resume fun b hb => Option.some.inj (hlatest.symm.trans hb) ▸ hstate))
            fun _ _ _ => .bind (makes_pure _) fun _ _ _ =>
            makes_notice (S := .bypass :: settled) (by decide) env _

/-- A Boundary is recorded on the latest Attempt, or it was recorded with the
same content before. -/
theorem wp_recordBoundaryTx_target (env : Env) (sourceId : PrincipalId) (role : PrincipalRole)
    (r : BoundaryInput) :
    wp (recordBoundaryTx env sourceId role r)
      (fun _ _ => (∃ b ∈ f.boundaries, b.inputDigest = r.digest f.id) ∨
        ∃ a, f.latestAttempt? = some a ∧ a.number = r.attemptNumber) (fun _ => True) f := by
  unfold recordBoundaryTx
  rw [wp_bind, wp_get]
  split
  · next b hfind =>
    rw [wp_bind, wp_require]
    refine ⟨fun hdigest => ?_, fun _ => trivial⟩
    exact wp_true fun _ _ => Or.inl ⟨b, List.mem_of_find?_eq_some hfind, hdigest⟩
  · rw [wp_bind, wp_require]
    refine ⟨fun _ => ?_, fun _ => trivial⟩
    rw [wp_bind, wp_need]
    refine ⟨fun a ha => ?_, fun _ => trivial⟩
    -- The checks of the recorder, of the packets and of the authority.
    iterate 4
      rw [wp_bind, wp_require]
      refine ⟨fun _ => ?_, fun _ => trivial⟩
    rw [wp_bind, wp_require]
    refine ⟨fun hlatest => ?_, fun _ => trivial⟩
    exact wp_true fun _ _ => Or.inr ⟨a, hlatest, (mem_of_attempt? ha).2⟩

/-- **An Attempt is handed to its supervisor with a Boundary** that says why. The
statements do not look which Attempt it is, but the Boundary does, and
without it the handover is undone. -/
theorem makes_superviseAndRecord {k : WriteKind} {number : ℕ} {g : Attempt → Attempt}
    (hk : k ∈ S) (hS : paired ⊆ S) (hg : Handover f number k g .supervise)
    (hsame : ∀ a, (g a).number = a.number) (env : Env)
    (sourceId : PrincipalId) (role : PrincipalRole) {r : BoundaryInput}
    (hr : r.attemptNumber = number ∧ r.expectedGeneration = f.work.generation)
    {c : Boundary → FileTx α} (hc : ∀ b h, Makes (Writes S) h (c b)) :
    Makes (Writes S) f
      (do advance number g .supervise; let b ← recordBoundaryTx env sourceId role r; c b) := by
  by_cases htarget : Targets f .supervise number
  · exact .bind (makes_advance hk hg htarget) fun _ _ _ =>
      .bind (makes_mono hS (makes_recordBoundaryTx env _ _ _)) fun b h _ => hc b h
  · unfold advance move Makes
    rw [wp_bind, wp_bind, wp_modify, Tx.wp_statement]
    refine ⟨fun _ => ?_, fun _ => trivial⟩
    rw [wp_bind]
    refine wp_mono (wp_recordBoundaryTx_target env _ _ _) (fun _ _ h => absurd ?_ htarget)
      fun _ h => h
    rcases h with ⟨b, hb, hdigest⟩ | ⟨a, ha, hnumber⟩
    · exact .inr (.inr (.inr ⟨b, hb, r, hdigest, hr⟩))
    · obtain ⟨a₀, ha₀, hn⟩ := latestAttempt?_withAttempt hsame ha
      exact .inl ⟨a₀, ha₀, hn.trans (hnumber.trans hr.1)⟩

theorem makes_review (env : Env) (actor : Actor) (r : ReviewInput) :
    Makes (Writes paired) f (review env actor r) := by
  unfold WorkFile.review
  refine .require fun _ => makes_after_check fun _ _ => .get (.need fun a ha =>
    .reads (reads_authorizeWorkActor actor) fun _ _ => .require fun _ => ?_)
  split
  · exact makes_check _
  · refine makes_after_check fun _ _ => .require fun hreviewable => .reads reads_currentGoal
      fun goal _ => .require fun _ => makes_after_check fun _ _ => .require fun _ =>
      makes_after_newId (by decide) (.bind_of (P := fun _ g => g.work = f.work ∧
        g.attempts = f.attempts ∧ g.boundaries = f.boundaries) ?_ fun _ g hg =>
        .ite (fun _ => makes_pure _) fun hsubmitted => ?_)
    · unfold insertReview
      rw [Tx.wp_statement]
      refine ⟨fun hr => ⟨.single ⟨.review, by decide, ?_⟩, rfl, rfl, rfl⟩, fun _ => trivial⟩
      exact .review _ a (by exact (mem_of_attempt? ha).1) ⟨rfl, rfl, rfl, rfl, rfl⟩ hr.1 hr.2
    · have hstate := (hreviewable.resolve_left hsubmitted).2
      have htarget : ∀ m, Targets g m a.number := fun m =>
        .of_live (by rw [hg.2.1]; exact (mem_of_attempt? ha).1) (by rw [hstate]; rfl)
      split
      · exact .bind (makes_advance (k := .handover) (by decide) .present (htarget _))
          fun _ _ _ => makes_notice (by decide) env _
      · refine .bind (makes_advance (k := .handover) (by decide)
          (.supervise _ fun _ => ⟨sameAttempt_inState _ _, rfl⟩) (htarget _)) fun _ _ _ => ?_
        exact .bind (makes_recordBoundaryTx env _ _ _) fun _ _ _ => makes_notice (by decide) env _

theorem makes_acceptResult {d : RequesterDecision} (haccepted : d.accepted = true)
    (hstate : f.work.state = .waitingUser)
    (hgeneration : d.workGeneration = f.work.generation + 1)
    (hverified : ∃ a ∈ f.attempts, a.number = d.attemptNumber ∧ a.state = .completed ∧
      a.evidenceConfidence = .verified) :
    Makes (Writes settled) f (acceptResult d) := by
  refine makes_after_abandon (by decide) ?_
  unfold move insertDecision
  simp only [Makes, wp_bind, Tx.wp_statement]
  exact ⟨fun hm => ⟨fun hd => .single ⟨.decision, by decide,
    .accept d haccepted hstate hgeneration hverified hm hd.1 hd.2⟩, fun _ => trivial⟩,
    fun _ => trivial⟩

theorem makes_rejectResult (env : Env) (actor : Actor) (a : Attempt) {d : RequesterDecision}
    (hrejected : d.accepted = false) (summary : String) :
    Makes (Writes paired) f (rejectResult env actor a d summary) := by
  unfold rejectResult
  refine .get (makes_superviseAndRecord (k := .handover) (by decide) (fun _ h => h)
    (.supervise _ fun _ => ⟨sameAttempt_inState _ _, rfl⟩) (fun _ => rfl) env _ _ ?_ fun _ _ => ?_)
  · exact ⟨rfl, rfl⟩
  · exact makes_statement (k := .decision) (by decide) fun hd => .reject d hrejected hd.1 hd.2

theorem makes_recordRequesterDecision (env : Env) (actor : Actor) (r : RequesterDecisionInput) :
    Makes (Writes paired) f (recordRequesterDecision env actor r) := by
  unfold recordRequesterDecision
  refine .require fun _ => .need fun _ _ => makes_after_check fun _ _ => makes_after_check
    fun _ _ => .get (.need fun q _ => .need fun a ha => .reads (reads_authorizeWorkActor actor)
    fun _ _ => .need fun _ _ => .require fun _ => ?_)
  split
  · exact makes_check _
  · refine makes_after_check fun _ _ => .require fun _ => .reads reads_currentGoal fun goal _ =>
      .require fun _ => .require fun hstate => makes_after_check fun _ _ => ?_
    dsimp only
    split
    · exact makes_require _ _
    · have ha := mem_of_attempt? ha
      refine makes_after_newId (by decide) (.ite (fun haccepted => ?_) fun hrejected => ?_)
      · exact makes_settled (makes_acceptResult haccepted (by exact hstate.1)
          (by simp [haccepted]) ⟨a, ha.1, rfl, hstate.2.1, hstate.2.2⟩)
      · exact makes_rejectResult env actor a (by simpa using hrejected) _

/-! ### Conversations -/

theorem makes_every {m : FileTx α} (h : Makes (Writes supervisions) f m) :
    Makes (Writes everything) f m :=
  makes_mono (fun _ hk => List.mem_cons_of_mem _ hk) h

theorem makes_closeBoundary (env : Env) (actor : Actor) (attachment : AttachmentId) {b : Boundary}
    (hb : b ∈ f.boundaries) :
    wp (closeBoundary env actor attachment b)
      (fun _ g => Relation.ReflTransGen (Writes (.conversationClose :: settled)) f g ∧ g.boundaries = f.boundaries)
      (fun _ => True) f := by
  unfold closeBoundary insertTurn insertDisposition
  simp only [wp_bind, wp_newId, Tx.wp_statement]
  refine ⟨fun ht => ⟨fun hd => ⟨?_, trivial⟩, fun _ => trivial⟩, fun _ => trivial⟩
  have hw := Write.close (f := { f with nextNumber := f.nextNumber + 1 + 1 }) env b _ _ _ _ hb rfl
    ht hd
  exact .tail (.tail (.single ⟨.number, by decide, .number⟩) ⟨.number, by decide, .number⟩)
    ⟨.conversationClose, by decide, hw⟩

theorem makes_closeConversationWork (env : Env) (actor : Actor) (attachment : AttachmentId) :
    Makes (Writes (.conversationClose :: settled)) f (closeConversationWork env actor attachment) := by
  unfold closeConversationWork
  refine .get (.bind ?_ fun _ g _ => .ite (fun _ => makes_pure _) fun _ =>
    makes_mono (fun _ hk => List.mem_cons_of_mem _ hk) (makes_cancelWork env _ _ _))
  refine wp_mono (wp_each (I := fun g => Relation.ReflTransGen (Writes (.conversationClose :: settled)) f g ∧
      g.boundaries = f.boundaries) _ (fun b hb g hg => ?_) ⟨.refl, rfl⟩) (fun _ _ h => h.1)
    fun _ h => h
  rw [List.mem_reverse, mem_openBoundaries, ← hg.2] at hb
  refine wp_mono (makes_closeBoundary env actor attachment hb.1) (fun _ g' hg' => ?_) fun _ h => h
  exact ⟨hg.1.trans hg'.1, hg'.2.trans hg.2⟩

/-- Without an open Boundary, the close of a conversation only cancels. -/
theorem makes_closeConversationWork_of_settled (env : Env) (actor : Actor)
    (attachment : AttachmentId) (h : f.openBoundaries = []) :
    Makes (Writes settled) f (closeConversationWork env actor attachment) := by
  unfold closeConversationWork
  refine .get ?_
  rw [h]
  exact .bind (makes_pure _) fun _ _ _ => .ite (fun _ => makes_pure _) fun _ =>
    makes_cancelWork env _ _ _

/-! ### Workers -/

theorem makes_finishWorker (workerId : PrincipalId) (keepsSuspension : Bool) :
    Makes (Writes settled) f (finishWorker workerId keepsSuspension) := by
  unfold finishWorker
  refine .get (.require fun _ => .ite (fun _ => makes_pure _) fun hlive =>
    makes_after_abandon (by decide) ?_)
  unfold move Makes
  rw [wp_bind, Tx.wp_statement]
  refine ⟨fun hm => ?_, fun _ => trivial⟩
  rw [wp_bind, wp_modify]
  exact (makes_supersedeBoundaries _ _).after (.single ⟨.handover, by decide,
    .finish keepsSuspension hm (by exact eq_false_of_ne_true hlive)⟩)

theorem makes_report (env : Env) (actor : Actor) (r : ReportInput) :
    Makes (Writes paired) f (report env actor r) := by
  unfold report
  refine .get (.need fun a _ => .require fun _ => makes_after_check fun _ _ => .require fun _ => ?_)
  split
  · exact makes_check _
  · refine .require fun _ => .require fun _ => .require fun _ => .require fun hlatest =>
      .require fun _ => .require fun _ => .require fun _ => ?_
    split
    · exact .bind (makes_advance (k := .handover) (by decide) .goOn (.of_latest hlatest))
        fun _ _ _ => makes_notice (by decide) env _
    · refine .bind (makes_advance (k := .handover) (by decide)
        (.supervise _ fun _ => ⟨⟨rfl, rfl, rfl, rfl, rfl, rfl⟩, rfl⟩) (.of_latest hlatest))
        fun _ _ _ => ?_
      exact .bind (makes_recordBoundaryTx env _ _ _) fun _ _ _ => makes_notice (by decide) env _

theorem makes_recoverExpiredTurn (env : Env) (t : ReasonerTurn) :
    Makes (Writes settled) f (recoverExpiredTurn env t) := by
  unfold recoverExpiredTurn
  refine .get (.ite (fun _ => makes_after_abandon (by decide) (.need fun b hb => ?_))
    fun _ => makes_pure _)
  refine .ite (fun _ => .bind (makes_escalateSupervision env (by exact (mem_of_boundary? hb).1) _
    (by simp) _) fun _ _ _ => makes_pure _) fun _ => ?_
  exact makes_after_abandon (by decide) (makes_notice (by decide) env _)

theorem makes_recoverIncompleteTurn (env : Env) (id : BoundaryId) (m : WorkMessageId) (g : ℕ) :
    Makes (Writes settled) f (recoverIncompleteTurn env id m g) := by
  unfold recoverIncompleteTurn
  refine .get ?_
  split
  · next b m hb _ =>
    refine .ite (fun _ => makes_after_abandon (by decide) (.ite (fun _ => ?_) fun _ => ?_))
      fun _ => makes_pure _
    · exact .bind (makes_escalateSupervision env (by exact (mem_of_boundary? hb).1) _ (by simp) _)
        fun _ _ _ => makes_pure _
    · exact makes_after_abandon (by decide) (makes_notice (by decide) env _)
  · exact makes_pure _

theorem makes_recoverWorker (env : Env) {w : WorkerFailure} (bySupervisor : Bool)
    (hlive : ∀ s ∈ w.attemptStates, s.terminal = false) :
    Makes (Writes paired) f (recoverWorker env w bySupervisor) := by
  unfold recoverWorker
  refine .get (.need fun a ha => .ite (fun _ => makes_pure _) fun _ => .require fun hfence => ?_)
  have ha := mem_of_attempt? ha
  have htarget : Targets f .recover w.attemptNumber := ha.2 ▸ .of_live ha.1 (hlive _ hfence.2.2.2)
  refine makes_moveAttempt (S := paired) (k := .handover) (by decide) .recover htarget ?_
  exact .bind (makes_recordBoundaryTx env _ _ _) fun _ _ _ => makes_notice (by decide) env _

theorem workerOwned_live : ∀ s ∈ workerOwned, s.terminal = false := by decide

theorem makes_reconcileCompletedTurn (env : Env) (event : SourceEventId) (n : ℕ) :
    Makes (Writes paired) f (reconcileCompletedTurn env event n) :=
  .get (.ite (fun _ => makes_pure _) fun _ => makes_recoverWorker env _ workerOwned_live)

theorem makes_recordSecondaryFailure (env : Env) (event : SourceEventId) (n : ℕ) :
    Makes (Writes paired) f (recordSecondaryFailure env event n) :=
  .get (.need fun _ _ => .ite (fun _ => makes_pure _) fun _ =>
    .bind (makes_recordBoundaryTx env _ _ _) fun _ _ _ => makes_pure _)

theorem makes_publishCapture (env : Env) (c : Capture) {a : Attempt} (boundary : Option Boundary)
    (hnumber : a.number = c.attemptNumber) (hlatest : f.latestAttempt? = some a) :
    Makes (Writes paired) f (publishCapture env c a boundary) := by
  unfold publishCapture
  refine .get ?_
  split
  · exact makes_pure _
  · refine .ite (fun _ => ?_) fun _ => makes_pure _
    rw [← hnumber]
    exact .bind (makes_advance (k := .handover) (by decide)
      (.supervise _ fun _ => ⟨sameAttempt_inState _ _, rfl⟩) (.of_latest hlatest)) fun _ _ _ =>
      .bind (makes_recordBoundaryTx env _ _ _) fun _ _ _ => makes_pure _

theorem makes_finalizeCapture (env : Env) (c : Capture) :
    Makes (Writes paired) f (finalizeCapture env c) := by
  unfold finalizeCapture
  refine .get (.need fun a ha => .ite (fun _ => makes_pure _) fun h => ?_)
  have hlatest : f.latestAttempt? = some a := by
    by_contra hne
    exact h (.inl (.inr (.inr (.inr hne))))
  exact .bind (makes_publishCapture env c _ (mem_of_attempt? ha).2 hlatest) fun _ _ _ =>
    .when fun _ => makes_notice (by decide) env _

theorem makes_reconcileAbandonedCapture (env : Env) (c : Capture) :
    Makes (Writes supervisions) f (reconcileAbandonedCapture env c) := by
  unfold reconcileAbandonedCapture
  refine .get ?_
  split
  · exact makes_pure _
  · next a ha =>
    refine .ite (fun h => ?_) fun _ => makes_pure _
    have htarget : Targets f .supervise c.attemptNumber :=
      (mem_of_attempt? ha).2 ▸ .of_latest h.2.2.2.1
    exact .bind (makes_advance (k := .abandonedCapture) (by decide) .abandoned htarget)
      fun _ _ _ => .bind (makes_paired (makes_recordBoundaryTx env _ _ _)) fun _ _ _ =>
      makes_notice (by decide) env _

theorem makes_augment (env : Env) (actor : Actor) (directive : DirectiveId) (reason : String) :
    Makes (Writes supervisions) f (augment env actor directive reason) := by
  unfold augment
  refine .reads (reads_enter env actor) fun _ _ => .get (.require fun hlive => makes_after_check
    fun _ _ => .need fun a _ => ?_)
  refine .bind_of (P := fun _ g => g.work = f.work) (wp_mono (makes_recordBoundaryTx_mem env _ _ _)
    (fun _ _ h => ⟨Relation.ReflTransGen.mono (fun _ _ hw => hw.imp fun _ hk =>
      ⟨paired_subset hk.1, hk.2⟩) _ _ h.1, h.2.1⟩) fun _ h => h) fun b g hg => ?_
  refine .bind_of (P := fun _ g => g.work = f.work) (wp_mono (wp_message env _) (fun _ g' h =>
    ⟨.single ⟨.message, by decide, .message g' h.2⟩, ?_⟩) fun _ _ => trivial) fun _ g' hg' => ?_
  · rw [h.1.rest]
    exact hg
  · exact makes_statement (k := .attention) (by decide) fun hm => .attend hm (by rw [hg', hlive])

theorem makes_acceptAssignment (n : ℕ) :
    Makes (Writes settled) f (acceptAssignment n) := by
  unfold acceptAssignment
  refine .get (.need fun a ha => .ite (fun hstate => ?_) fun _ => makes_pure _)
  have ha := mem_of_attempt? ha
  rw [← ha.2]
  exact makes_modify (k := .acknowledgement) (by decide) (.acknowledge a ha.1 hstate)

theorem makes_pruneMessages (handled : List WorkMessageId) :
    Makes (Writes settled) f (pruneMessages handled) := by
  refine makes_modify (k := .prune) (by decide) (.prune _ fun m _ hm => ?_)
  simp only [decide_eq_true_eq]
  exact .inr (.inl hm)

end WorkFile

/-- A call that closes a conversation. -/
def Call.Closes : Call → Prop
  | .closeConversation _ _ => True
  | _ => False

/-- A call by which a Work and its latest Attempt may part: the recovery of an
abandoned capture, and an augmentation. -/
def Call.Parts : Call → Prop
  | .reconcileAbandonedCapture _ | .augment _ _ _ => True
  | _ => False

/-- A call that may record a Boundary. -/
def Call.Records : Call → Prop
  | .recordBoundary _ _ | .createAttempt _ _ | .review _ _ | .recordRequesterDecision _ _
  | .augment _ _ _ | .report _ _ | .reconcileCompletedTurn _ _ | .recoverUnstartedWorker _ _
  | .recoverAmbiguousWorker _ _ | .recoverTerminalWorker _ _ _ | .failAssignmentDependency _ _
  | .recordSecondaryFailure _ _ | .finalizeCapture _ | .reconcileAbandonedCapture _ => True
  | _ => False

open WorkFile Tx in
/-- **A call that records no Boundary** moves a Work and its latest Attempt
together. -/
theorem Call.makes_settled (c : Call) (env : Env) {f : WorkFile}
    (hc : c.Closes → f.openBoundaries = []) (hr : ¬ c.Records) :
    Makes (Writes settled) f (c.run env) := by
  cases c with
  | acquireReasonerTurn actor b g l key token =>
    exact makes_acquireReasonerTurn env actor b g l key token
  | disposeBoundary actor b r =>
    exact .bind (makes_disposeBoundary env actor b r true) fun _ _ _ => makes_pure _
  | resumeWork actor r => exact makes_resumeWork env actor r
  | replyUserNeeded actor r => exact makes_replyUserNeeded env actor r
  | replyOpenBoundary actor m text key token =>
    exact makes_replyOpenBoundary env actor m text key token
  | replaceGoal actor r reason directive intent receipt purpose =>
    exact .reads (reads_enter env actor) fun _ _ => .reads (reads_requireLive _) fun _ _ =>
      makes_replaceGoal env actor.id r reason directive intent receipt purpose
  | cancelWork actor reason directive =>
    exact .reads (reads_enter env actor) fun _ _ => .reads (reads_requireLive _) fun _ _ =>
      makes_cancelWork env actor.id reason directive
  | closeConversation actor attachment =>
    exact makes_closeConversationWork_of_settled env actor attachment (hc trivial)
  | finishWorker worker keeps => exact makes_finishWorker worker keeps
  | recoverIncompleteTurn b m g => exact makes_recoverIncompleteTurn env b m g
  | backfillRecoveryActions => exact makes_backfill env
  | acceptAssignment n => exact makes_acceptAssignment n
  | pruneMessages handled => exact makes_pruneMessages handled
  | _ => exact absurd trivial hr

open WorkFile Tx in
/-- **Every call is made of writes**, and by most of them a Work and its latest
Attempt move together. -/
theorem Call.makes_paired (c : Call) (env : Env) {f : WorkFile}
    (hc : c.Closes → f.openBoundaries = []) (hp : ¬ c.Parts) :
    Makes (Writes paired) f (c.run env) := by
  by_cases hr : c.Records
  · cases c with
    | recordBoundary actor r => exact makes_recordBoundary env actor r
    | createAttempt actor r => exact makes_createAttempt env actor r
    | review actor r => exact makes_review env actor r
    | recordRequesterDecision actor r => exact makes_recordRequesterDecision env actor r
    | report actor r => exact makes_report env actor r
    | reconcileCompletedTurn event n => exact makes_reconcileCompletedTurn env event n
    | recoverUnstartedWorker event n =>
      exact makes_recoverWorker env _
        (show ∀ s ∈ [AttemptState.assigned], s.terminal = false by decide)
    | recoverAmbiguousWorker event n => exact makes_recoverWorker env _ workerOwned_live
    | recoverTerminalWorker event n reason => exact makes_recoverWorker env _ workerOwned_live
    | failAssignmentDependency event n => exact makes_recoverWorker env _ workerOwned_live
    | recordSecondaryFailure event n => exact makes_recordSecondaryFailure env event n
    | finalizeCapture c => exact makes_finalizeCapture env c
    | augment | reconcileAbandonedCapture => exact absurd trivial hp
    | _ => exact hr.elim
  · exact WorkFile.makes_settled (c.makes_settled env hc hr)

open WorkFile Tx in
/-- With the close of a conversation nothing else changes. -/
theorem Call.makes_closings (c : Call) (env : Env) {f : WorkFile} (hp : ¬ c.Parts) :
    Makes (Writes closings) f (c.run env) := by
  by_cases hc : c.Closes
  · cases c with
    | closeConversation actor attachment =>
      exact makes_mono (by decide) (makes_closeConversationWork env actor attachment)
    | _ => exact hc.elim
  · exact makes_mono (fun _ hk => List.mem_cons_of_mem _ hk)
      (c.makes_paired env (fun h => absurd h hc) hp)

open WorkFile Tx in
/-- The calls of the close of a conversation write beyond the supervision only
where they find an open Boundary. -/
theorem Call.makes_supervisions (c : Call) (env : Env) {f : WorkFile}
    (hc : c.Closes → f.openBoundaries = []) : Makes (Writes supervisions) f (c.run env) := by
  by_cases hp : c.Parts
  · cases c with
    | augment actor directive reason => exact makes_augment env actor directive reason
    | reconcileAbandonedCapture c => exact makes_reconcileAbandonedCapture env c
    | _ => exact hp.elim
  · exact WorkFile.makes_paired (c.makes_paired env hc hp)

open WorkFile Tx in
theorem Call.makes (c : Call) (env : Env) {f : WorkFile} :
    Makes (Writes everything) f (c.run env) := by
  by_cases hc : c.Closes
  · cases c with
    | closeConversation actor attachment =>
      exact makes_mono (by decide) (makes_closeConversationWork env actor attachment)
    | _ => exact hc.elim
  · exact makes_every (c.makes_supervisions env fun h => absurd h hc)

namespace WorkFile

/-- A write keeps the identity of the file. -/
theorem Write.id_eq {f g : WorkFile} {k : WriteKind} (h : Write f k g) : g.id = f.id := by
  have hmessaged : ∀ {f g : WorkFile}, Messaged f g → g.id = f.id := fun h =>
    (Commanded.of_messaged h).id
  have hconsumed : ∀ {f g : WorkFile} {c : BoundaryContinuation}, Consumption f c g →
      g.id = f.id := fun h => (Commanded.of_consumption h).id
  have hreplaced : ∀ {f g : WorkFile} {m : Move}, Replacement f m g → g.id = f.id := fun h => by
    cases h
    rw [givenUp_eq]
    rfl
  cases h with
  | message _ h => exact hmessaged h
  | renew _ _ _ h => exact (Commanded.of_renewal h).id
  | renewContinued _ _ _ _ _ _ h hsent _ hc =>
    exact (hconsumed hc).trans ((hmessaged hsent).trans (Commanded.of_renewal h).id)
  | replace _ _ h => exact hreplaced h
  | replaceContinued _ _ _ _ _ _ h hsent _ hc =>
    exact (hconsumed hc).trans ((hmessaged hsent).trans (hreplaced h))
  | reply _ _ _ _ _ _ hc =>
    have h := hconsumed hc
    exact h
  | _ => rfl

end WorkFile
