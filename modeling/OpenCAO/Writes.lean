import OpenCAO.ControlPlane

/-!
# Writes

The transactions of the control plane write through a small number of
statements. `Write` lists what a statement – or a group of statements that
always stand together – can do to a file, with everything that is known
where it is executed: what the database checked, and what the service had
checked or computed before.

Every transaction is made of writes (`Call.makes`), so an assertion that
every write keeps holds of every file of every reachable store
(`Supervision.files_of_reachable`), and nobody who proves one has to look
inside a transaction again.
-/

namespace WorkFile

/-- The kinds of writes. -/
inductive WriteKind where
  | number | message | prune | abandonment | lease | completion | disposition
  | conversationClose | supersession | boundary | rederivation | acknowledgement | handover
  | abandonedCapture | attention | bypass | release | renewal | goal | continuation | pause
  | resumption | review | decision
  deriving DecidableEq, Repr

/-- An Attempt in another state, and no other. -/
def SameAttempt (a b : Attempt) : Prop :=
  a.number = b.number ∧ a.workerId = b.workerId ∧ a.runtimeSessionId = b.runtimeSessionId ∧
    a.goalVersion = b.goalVersion ∧ a.goalPacketDigest = b.goalPacketDigest ∧
    a.taskPacketDigest = b.taskPacketDigest

/-- The packet is that of the conversation of the Work. -/
def SealedFor (f : WorkFile) (packet : Option AttachmentPacket) : Prop :=
  match f.work.supervisorAttachmentId with
  | none => packet = none
  | some id => ∃ identity, f.attachment = some identity ∧ ∃ runtime generation,
      packet = some (sealedAttachment id identity runtime generation)

/-- The disposition decides the Boundary for the turn. -/
def DecidedBy (b : Boundary) (t : ReasonerTurn) (d : BoundaryDisposition) : Prop :=
  d.boundaryId = b.id ∧ d.reasonerTurnId = t.id ∧ t.boundaryId = b.id

/-- The Boundary reports on the Attempt, at the current authority of its
Work. -/
def ReportsOn (f : WorkFile) (a : Attempt) (b : Boundary) : Prop :=
  b.attemptNumber = a.number ∧ b.generation = f.work.generation ∧
    b.goalVersion = f.work.goalVersion ∧ b.goalVersion = a.goalVersion ∧
    b.goalPacketDigest = a.goalPacketDigest ∧ b.taskPacketDigest = a.taskPacketDigest

/-- The review is about the Attempt, at the current authority of its Work. -/
def ReviewOf (f : WorkFile) (a : Attempt) (r : Review) : Prop :=
  r.attemptNumber = a.number ∧ r.workGeneration = f.work.generation ∧
    r.goalVersion = a.goalVersion ∧ r.goalPacketDigest = a.goalPacketDigest ∧
    r.taskPacketDigest = a.taskPacketDigest

/-- Why a write may change the Attempt of a number together with the Work: it
is the latest, or it has not ended, or a Boundary at the authority of the
Work – the current one, or the one that is asked about – is about it. -/
def Targets (f : WorkFile) (m : Move) (number : ℕ) : Prop :=
  (∃ a, f.latestAttempt? = some a ∧ a.number = number) ∨
    (∃ a ∈ f.attempts, a.number = number ∧ a.state.terminal = false) ∨
    (∃ b ∈ f.boundaries, b.attemptNumber = number ∧
      (b.generation = f.work.generation ∨ m = .awaitUser b.id)) ∨
    ∃ b ∈ f.boundaries, ∃ r : BoundaryInput, b.inputDigest = r.digest f.id ∧
      r.attemptNumber = number ∧ r.expectedGeneration = (m.apply f.work).generation

/-- **The handovers of a Work**: what becomes of the Attempt, and of the Work
with it. -/
inductive Handover (f : WorkFile) (number : ℕ) :
    WriteKind → (Attempt → Attempt) → Move → Prop
  | goOn : Handover f number .handover (.inState .working) .goOn
  | submit : Handover f number .handover (.inState .submitted) .submit
  | present : Handover f number .handover .verified .present
  | supervise (g : Attempt → Attempt)
      (hg : ∀ a, SameAttempt a (g a) ∧ (g a).state = .waitingSupervisor) :
      Handover f number .handover g .supervise
  | recover : Handover f number .handover (.inState .waitingSupervisor) .recover
  | awaitUser (id : BoundaryId) :
      Handover f number .handover (.inState .inputRequired) (.awaitUser id)
  | pause (id : BoundaryId) : Handover f number .handover (.inState .suspended) (.pause id)
  | interrupt (w : WorkId) : Handover f number .handover (.inState .suspended) (.interrupt w)
  | resume : Handover f number .handover (.inState .working) .resume
  | cancel : Handover f number .handover (.inState .canceled) .cancel
  | abandoned :
      Handover f number .abandonedCapture (.inState .systemReconciliation) .supervise

/-- The updates of a Work that leave its latest Attempt as it is: an
interruption of an Attempt that has ended, the return to an Attempt that
was not suspended. -/
inductive Bypass (f : WorkFile) : Move → Prop
  | interrupt (w : WorkId) (h : ∀ a, f.latestAttempt? = some a → a.state.terminal = true) :
      Bypass f (.interrupt w)
  | resume (h : ∀ a, f.latestAttempt? = some a → a.state ≠ .suspended) : Bypass f .resume

/-- A message, or the same one again. -/
inductive Messaged (f : WorkFile) : WorkFile → Prop
  | again : Messaged f f
  | sent (r : MessageRequest) (a : Attempt) (hpackets : messagePackets r f = some a)
      (hkey : r.idempotencyKey ≠ .none → ∀ m ∈ f.messages, m.senderId = r.senderId →
        m.idempotencyKey ≠ r.idempotencyKey) :
      Messaged f
        { f with
          nextNumber := f.nextNumber + 1
          messages :=
            ⟨r, ⟨f.id, f.nextNumber⟩, a.goalPacketDigest, a.taskPacketDigest⟩ :: f.messages }

/-- **Another Attempt on the current goal** takes the place of a previous
one. -/
inductive Renewal (f : WorkFile) : Move → WorkFile → Prop
  | intro (goal : GoalRevision) (previous : Attempt) (m : Move) (workerId : PrincipalId)
      (runtime : Option RuntimeId) (hgoal : f.goal? f.work.goalVersion = some goal)
      (hprevious : previous ∈ f.attempts)
      (hmove : m = .reassign workerId ∨ ∃ paused, m = .renew workerId paused)
      (hm : Movable m (givenUp previous f))
      (hnew : ∀ c ∈ (givenUp previous f).attempts, c.number ≠ previous.number + 1) :
      Renewal f m
        { moved m (givenUp previous f) with
          attempts := attemptOn f.id goal (previous.number + 1) workerId runtime .assigned
            :: (givenUp previous f).attempts }

/-- **Another goal**, with an Attempt that takes the place of a previous
one. -/
inductive Replacement (f : WorkFile) : Move → WorkFile → Prop
  | intro (goal : GoalRevision) (previous : Attempt) (m : Move) (workerId : PrincipalId)
      (runtime : Option RuntimeId) (r : WorkAssignment) (o : GoalOrigin)
      (requesterId supervisorId : Option PrincipalId) (packet : Option AttachmentPacket)
      (hgoal : goal =
        goalRevision f.id (f.work.goalVersion + 1) r o requesterId supervisorId packet)
      (hprior : o.priorVersion = some f.work.goalVersion) (hpacket : SealedFor f packet)
      (hrunning : f.work.pausedBoundaryId = none)
      (hfresh : ∀ h ∈ f.goals, h.version ≠ goal.version) (hprevious : previous ∈ f.attempts)
      (hmove : m = .replaceReassign workerId ∨ m = .replace workerId)
      (hm : Movable m (givenUp previous { f with goals := goal :: f.goals }))
      (hnew : ∀ c ∈ (givenUp previous { f with goals := goal :: f.goals }).attempts,
        c.number ≠ previous.number + 1) :
      Replacement f m
        { moved m (givenUp previous { f with goals := goal :: f.goals }) with
          attempts := attemptOn f.id goal (previous.number + 1) workerId runtime
              (if f.work.state = .suspended then .suspended else .assigned)
            :: (givenUp previous { f with goals := goal :: f.goals }).attempts }

/-- **The decision of the requester is consumed.** -/
inductive Consumption (f : WorkFile) : BoundaryContinuation → WorkFile → Prop
  | intro (c : BoundaryContinuation) (hc : ContinuationInsertable c f)
      (hm : Movable (.consume c.successorGeneration)
        { f with continuations := c :: f.continuations }) :
      Consumption f c
        (moved (.consume c.successorGeneration) { f with continuations := c :: f.continuations })

/-- **A write.** -/
inductive Write (f : WorkFile) : WriteKind → WorkFile → Prop
  | number : Write f .number { f with nextNumber := f.nextNumber + 1 }
  | message (g : WorkFile) (h : Messaged f g) : Write f .message g
  | prune (keep : Message → Bool)
      (hkeep : ∀ m ∈ f.messages, (∃ c ∈ f.continuations, c.messageId = m.id) → keep m = true) :
      Write f .prune { f with messages := f.messages.filter keep }
  | abandon (p : ReasonerTurn → Bool) : Write f .abandonment (abandon p f)
  | lease (env : Env) (b : Boundary) (supervisorId : PrincipalId) (id : TurnId) (token : String)
      (expires : Instant) (key : TurnKey) (hb : b ∈ f.boundaries)
      (ht : TurnInsertable env (leasedTurn b supervisorId f.work.generation b.goalVersion id token
        expires key) f) :
      Write f .lease
        { f with
          turns := leasedTurn b supervisorId f.work.generation b.goalVersion id token expires key
            :: f.turns }
  | complete (b : Boundary) (t : ReasonerTurn) (d : BoundaryDisposition) (hb : b ∈ f.boundaries)
      (ht : t ∈ f.turns) (hd : d ∈ f.dispositions) (hdecided : DecidedBy b t d) :
      Write f .completion (complete t.id (turnResultDigest b d.id d.requestDigest) f)
  | decide (b : Boundary) (t : ReasonerTurn) (d : BoundaryDisposition) (hb : b ∈ f.boundaries)
      (ht : t ∈ f.turns) (hd : DispositionInsertable d f) (hdecided : DecidedBy b t d) :
      Write f .disposition { f with dispositions := d :: f.dispositions }
  | giveUp (b : Boundary) (t : ReasonerTurn) (d : BoundaryDisposition) (hb : b ∈ f.boundaries)
      (ht : t ∈ f.turns) (hdecided : DecidedBy b t d)
      (hd : DispositionInsertable d
        (WorkFile.complete t.id (turnResultDigest b d.id d.requestDigest) f)) :
      Write f .disposition
        { WorkFile.complete t.id (turnResultDigest b d.id d.requestDigest) f with
          dispositions := d :: f.dispositions }
  | sealDecision (env : Env) (b : Boundary) (d : BoundaryDisposition) (goalVersion : ℕ)
      (now : Instant) (key : TurnKey) (hb : b ∈ f.boundaries) (hdb : d.boundaryId = b.id)
      (ht : TurnInsertable env (sealedFor b d goalVersion now key) f)
      (hd : DispositionInsertable d
        { f with turns := sealedFor b d goalVersion now key :: f.turns }) :
      Write f .disposition
        { f with
          turns := sealedFor b d goalVersion now key :: f.turns
          dispositions := d :: f.dispositions }
  | close (env : Env) (b : Boundary) (d : BoundaryDisposition) (result : Digest) (now : Instant)
      (key : TurnKey) (hb : b ∈ f.boundaries) (hdb : d.boundaryId = b.id)
      (ht : TurnInsertable env (sealedTurn b d.decidedBy b.generation b.goalVersion
        d.reasonerTurnId b.inputDigest result now key) f)
      (hd : DispositionInsertable d
        { f with
          turns := sealedTurn b d.decidedBy b.generation b.goalVersion d.reasonerTurnId
            b.inputDigest result now key :: f.turns }) :
      Write f .conversationClose
        { f with
          turns := sealedTurn b d.decidedBy b.generation b.goalVersion d.reasonerTurnId
            b.inputDigest result now key :: f.turns
          dispositions := d :: f.dispositions }
  | supersede (s : BoundarySupersession) (hs : SupersessionInsertable s f) :
      Write f .supersession { f with supersessions := s :: f.supersessions }
  | record (env : Env) (b : Boundary) (a : Attempt) (r : BoundaryInput)
      (ha : f.latestAttempt? = some a) (hreports : ReportsOn f a b)
      (hdigest : b.inputDigest = r.digest f.id ∧ r.attemptNumber = b.attemptNumber ∧
        r.expectedGeneration = b.generation)
      (hrunning : f.work.pausedBoundaryId = none) (hb : BoundaryInsertable env b f) :
      Write f .boundary { f with boundaries := b :: f.boundaries }
  | rederive (env : Env) (f₀ : WorkFile) :
      Write f .rederivation { f with boundaries := rederive env f₀ f }
  | acknowledge (a : Attempt) (ha : a ∈ f.attempts) (hstate : a.state = .assigned) :
      Write f .acknowledgement (withAttempt a.number (.inState .accepted) f)
  | handover (k : WriteKind) (number : ℕ) (g : Attempt → Attempt) (m : Move)
      (hg : Handover f number k g m) (htarget : Targets f m number)
      (hm : Movable m f ∨ Movable m (withAttempt number g f)) :
      Write f k (moved m (withAttempt number g f))
  | cancel (hm : Movable .cancel f) (h : f.latestAttempt? = none) :
      Write f .handover (moved .cancel f)
  | finish (keepsSuspension : Bool) (hm : Movable (.finish keepsSuspension) f)
      (hlive : f.work.state.terminal = false) :
      Write f .handover (moved (.finish keepsSuspension) (endAttempts f))
  | attend (hm : Movable .attend f) (hlive : f.work.state.terminal = false) :
      Write f .attention (moved .attend f)
  | bypass (m : Move) (hm : Movable m f) (h : Bypass f m) : Write f .bypass (moved m f)
  | release (hm : Movable .release f) (hstate : f.work.state = .active) :
      Write f .release (moved .release f)
  | renew (workerId : PrincipalId) (paused : Bool) (g : WorkFile)
      (h : Renewal f (.renew workerId paused) g) : Write f .renewal g
  | renewContinued (workerId : PrincipalId) (f₁ f₂ g : WorkFile) (c : BoundaryContinuation)
      (hawaiting : f.work.state = .userNeeded) (h : Renewal f (.reassign workerId) f₁)
      (hsent : Messaged f₁ f₂)
      (hgeneration : c.successorGeneration = f.work.generation + 1)
      (hconsumed : Consumption f₂ c g) : Write f .renewal g
  | replace (workerId : PrincipalId) (g : WorkFile) (h : Replacement f (.replace workerId) g) :
      Write f .goal g
  | replaceContinued (workerId : PrincipalId) (f₁ f₂ g : WorkFile) (c : BoundaryContinuation)
      (hawaiting : f.work.state = .userNeeded) (h : Replacement f (.replaceReassign workerId) f₁)
      (hsent : Messaged f₁ f₂)
      (hgeneration : c.successorGeneration = f.work.generation + 1)
      (hconsumed : Consumption f₂ c g) : Write f .goal g
  | reply (a : Attempt) (c : BoundaryContinuation) (g : WorkFile)
      (ha : f.latestAttempt? = some a) (hsame : c.successorAttemptNumber = a.number)
      (hgeneration : c.successorGeneration = f.work.generation) (hconsumed : Consumption f c g) :
      Write f .continuation (withAttempt a.number (.inState .working) g)
  | pause (p : WorkPause) (hp : PauseInsertable p f) :
      Write f .pause { f with pauses := p :: f.pauses }
  | resume (r : WorkPauseResumption) (hr : ResumptionInsertable r f) :
      Write f .resumption { f with resumptions := r :: f.resumptions }
  | review (r : Review) (a : Attempt) (ha : a ∈ f.attempts) (hreview : ReviewOf f a r)
      (hid : ∀ q ∈ f.reviews, q.id ≠ r.id)
      (hb : r.boundaryId = none ∨ ∀ q ∈ f.reviews, q.boundaryId ≠ r.boundaryId) :
      Write f .review { f with reviews := r :: f.reviews }
  | reject (d : RequesterDecision) (hrejected : d.accepted = false)
      (hid : ∀ e ∈ f.decisions, e.id ≠ d.id ∧ e.reviewId ≠ d.reviewId) (hd : f.DecisionExact d) :
      Write f .decision { f with decisions := d :: f.decisions }
  | accept (d : RequesterDecision) (haccepted : d.accepted = true)
      (hstate : f.work.state = .waitingUser)
      (hgeneration : d.workGeneration = f.work.generation + 1)
      (hverified : ∃ a ∈ f.attempts, a.number = d.attemptNumber ∧ a.state = .completed ∧
        a.evidenceConfidence = .verified)
      (hm : Movable .complete f)
      (hid : ∀ e ∈ f.decisions, e.id ≠ d.id ∧ e.reviewId ≠ d.reviewId)
      (hd : (moved .complete f).DecisionExact d) :
      Write f .decision { moved .complete f with decisions := d :: f.decisions }

/-- A write of one of the kinds. -/
def Writes (kinds : List WriteKind) (f g : WorkFile) : Prop := ∃ k ∈ kinds, Write f k g

/-- The kinds of writes that a command makes. -/
def commands : List WriteKind :=
  [.number, .message, .abandonment, .handover, .renewal, .continuation, .pause]

/-- The kinds of writes that the backfill of recoveries makes. -/
def reconciliations : List WriteKind := [.abandonment, .supersession, .rederivation]

/-- The kinds of writes that leave the Work and its Attempts as they are. -/
def quiet : List WriteKind :=
  [.number, .message, .prune, .abandonment, .lease, .supersession, .boundary, .rederivation]

/-- The kinds of writes by which a Work and its latest Attempt move together and
no Boundary is recorded. -/
def settled : List WriteKind :=
  [.number, .message, .prune, .abandonment, .lease, .completion, .disposition, .supersession,
    .rederivation, .acknowledgement, .handover, .release, .renewal, .goal, .continuation, .pause,
    .resumption, .review, .decision]

/-- The kinds of writes by which a Work and its latest Attempt move together. -/
def paired : List WriteKind := .boundary :: settled

/-- The kinds of writes of the close of a conversation, and those by which a Work
and its latest Attempt move together. -/
def closings : List WriteKind := .conversationClose :: paired

/-- Every kind of writes but for those of the close of a conversation. -/
def supervisions : List WriteKind := .abandonedCapture :: .attention :: .bypass :: paired

/-- Every kind of writes. -/
def everything : List WriteKind := .conversationClose :: supervisions

/-! ## The generation -/

theorem givenUp_eq (previous : Attempt) (f : WorkFile) :
    givenUp previous f = { f with attempts := (givenUp previous f).attempts } := by
  unfold givenUp
  split
  · rfl
  · rfl

section Work

variable {f g : WorkFile}

theorem Messaged.work_eq (h : Messaged f g) : g.work = f.work := by
  cases h <;> rfl

theorem Renewal.work_eq {m : Move} (h : Renewal f m g) : g.work = m.apply f.work := by
  cases h
  rw [givenUp_eq]
  rfl

theorem Replacement.work_eq {m : Move} (h : Replacement f m g) : g.work = m.apply f.work := by
  cases h
  rw [givenUp_eq]
  rfl

theorem Consumption.work_eq {c : BoundaryContinuation} (h : Consumption f c g) :
    g.work = (Move.consume c.successorGeneration).apply f.work := by
  cases h
  rfl

theorem Handover.generation_le {k : WriteKind} {number : ℕ} {h : Attempt → Attempt} {m : Move}
    (hm : Handover f number k h m) (w : Work) : w.generation ≤ (m.apply w).generation := by
  cases hm <;> simp [Move.apply]

/-- **The generation of a Work never decreases.** -/
theorem Write.generation_le {k : WriteKind} (h : Write f k g) :
    f.work.generation ≤ g.work.generation := by
  cases h with
  | message g h => exact Nat.le_of_eq (by rw [h.work_eq])
  | handover k number h m hm => exact hm.generation_le f.work
  | cancel | finish | accept => exact Nat.le_succ _
  | bypass m hm h => cases h <;> exact Nat.le_succ _
  | renew _ _ g h => exact h.work_eq ▸ Nat.le_succ _
  | replace _ g h => exact h.work_eq ▸ Nat.le_succ _
  | renewContinued _ _ _ g c _ _ _ hgeneration hconsumed
  | replaceContinued _ _ _ g c _ _ _ hgeneration hconsumed =>
    rw [hconsumed.work_eq]
    exact hgeneration ▸ Nat.le_succ _
  | reply a c g _ _ hgeneration hconsumed =>
    show _ ≤ g.work.generation
    rw [hconsumed.work_eq]
    exact Nat.le_of_eq hgeneration.symm
  | _ => exact Nat.le_refl _

end Work

end WorkFile
