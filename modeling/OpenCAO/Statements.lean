import OpenCAO.WorkFile

/-!
# Statements

A statement changes the rows of one table. The database lets it through
when the constraints and the triggers of the table hold of the file and of
the row to be written, and fails with `Failure.integrity` otherwise. Here
they are conditions on the file, and a statement is such a condition with
the change that it guards.

`Tx.wp_statement` and its relatives compute the precondition of a program
of statements, so nothing below has to look inside one again.
-/

/-! ## What the triggers ask for -/

namespace WorkFile

variable (f : WorkFile)

/-- The turn reasoned about exactly this Boundary, for its supervisor. -/
def ReasonedBy (b : Boundary) (decider : PrincipalId) (generation : ℕ)
    (t : ReasonerTurn) : Prop :=
  t.boundaryId = b.id ∧ t.supervisorId = decider ∧ t.generation = generation ∧
    t.goalVersion = b.goalVersion ∧ t.goalPacketDigest = b.goalPacketDigest ∧
    t.taskPacketDigest = b.taskPacketDigest

instance (b : Boundary) (decider : PrincipalId) (generation : ℕ) (t : ReasonerTurn) :
    Decidable (ReasonedBy b decider generation t) := by
  unfold ReasonedBy
  infer_instance

/-- **The Boundary was decided** at its own generation by the supervisor, on
exactly its own packets: what the triggers on the current requester
decision, on its continuation and on pauses all ask for. -/
def Decided (kind : BoundaryDispositionKind) (decider : PrincipalId) (generation : ℕ)
    (b : Boundary) (a : Attempt) : Prop :=
  a.number = b.attemptNumber ∧ b.generation = generation ∧ b.goalVersion = a.goalVersion ∧
    b.goalPacketDigest = a.goalPacketDigest ∧ b.taskPacketDigest = a.taskPacketDigest ∧
    (b.sourcePrincipalId = a.workerId ∨ b.sourcePrincipalId = decider) ∧
    ¬ f.Superseded b.id ∧
    ∃ d ∈ f.dispositions, d.boundaryId = b.id ∧ d.kind = kind ∧ d.generation = generation ∧
      d.decidedBy = decider ∧
      ∃ t ∈ f.turns, t.id = d.reasonerTurnId ∧ ReasonedBy b decider generation t

instance (kind : BoundaryDispositionKind) (decider : PrincipalId) (generation : ℕ)
    (b : Boundary) (a : Attempt) : Decidable (f.Decided kind decider generation b a) := by
  unfold Decided
  infer_instance

/-- `work_items_user_needed_contract`. -/
def UserNeededContract (w : Work) : Prop :=
  (w.userNeededBoundaryId.isSome → w.state = .userNeeded ∧ w.attentionOwner = .user) ∧
    (w.state = .userNeeded → w.attentionOwner = .user ∧ w.userNeededBoundaryId.isSome)

instance (w : Work) : Decidable (UserNeededContract w) := by
  unfold UserNeededContract
  infer_instance

/-- `work_items_user_needed_boundary_exact_update`. -/
def UserNeededExact (w : Work) (id : BoundaryId) : Prop :=
  ∃ b ∈ f.boundaries, b.id = id ∧ ∃ a ∈ f.attempts,
    f.Decided .waitUser w.supervisorId w.generation b a ∧ b.goalVersion = w.goalVersion ∧
      a.workerId = w.assignedWorkerId ∧ a.state = .inputRequired ∧ ¬ f.Continued id ∧ f.Latest a

instance (w : Work) (id : BoundaryId) : Decidable (f.UserNeededExact w id) := by
  unfold UserNeededExact
  infer_instance

/-- The continuation `work_items_user_needed_boundary_clear_update` asks
for. -/
def UserNeededConsumed (new : Work) (id : BoundaryId) : Prop :=
  ∃ c ∈ f.continuations, c.boundaryId = id ∧ c.successorGeneration = new.generation ∧
    ∃ a ∈ f.attempts, a.number = c.successorAttemptNumber ∧ a.workerId = new.assignedWorkerId ∧
      a.goalVersion = new.goalVersion ∧ f.Latest a

instance (new : Work) (id : BoundaryId) : Decidable (f.UserNeededConsumed new id) := by
  unfold UserNeededConsumed
  infer_instance

/-- The triggers on an update that sets `user_needed_boundary_id`: a
pointer is set to an exact Boundary, never in place of another, never on
a Work that awaited its requester without one, and is cleared by the end
of the Work or by the continuation that consumed it. -/
def UserNeededUpdate (old new : Work) : Prop :=
  (∀ id ∈ new.userNeededBoundaryId, f.UserNeededExact new id ∧
      (old.userNeededBoundaryId = none → ¬ (old.state = .userNeeded ∧ old.attentionOwner = .user)) ∧
      ∀ id' ∈ old.userNeededBoundaryId, id' = id) ∧
    ∀ id ∈ old.userNeededBoundaryId, new.userNeededBoundaryId = none →
      (new.state.terminal ∧ new.attentionOwner = .none ∧ old.generation < new.generation) ∨
        (new.state = .active ∧ new.attentionOwner = .worker ∧ f.UserNeededConsumed new id)

instance (old new : Work) : Decidable (f.UserNeededUpdate old new) := by
  unfold UserNeededUpdate
  infer_instance

/-- `work_pause_record_binding_sql`. -/
def PauseRecorded (p : WorkPause) : Prop :=
  p.pauseGeneration = p.sourceGeneration + 1 ∧ ∃ b ∈ f.boundaries, b.id = p.boundaryId ∧
    ∃ a ∈ f.attempts, a.number = p.attemptNumber ∧
      f.Decided .pause p.pausedBy p.sourceGeneration b a

instance (p : WorkPause) : Decidable (f.PauseRecorded p) := by
  unfold PauseRecorded
  infer_instance

/-- `work_items_pause_exact_update`: the pause a Work points to. -/
def PauseExact (new : Work) (id : BoundaryId) : Prop :=
  ∃ p ∈ f.pauses, p.boundaryId = id ∧ p.pauseGeneration = new.generation ∧
    p.pausedBy = new.supervisorId ∧ f.PauseRecorded p ∧
    (∀ r ∈ f.resumptions, r.boundaryId ≠ id) ∧
    ∃ a ∈ f.attempts, a.number = p.attemptNumber ∧ a.state = .suspended ∧
      a.workerId = new.assignedWorkerId ∧ a.goalVersion = new.goalVersion ∧ f.Latest a

instance (new : Work) (id : BoundaryId) : Decidable (f.PauseExact new id) := by
  unfold PauseExact
  infer_instance

/-- The triggers on a Work that points to a pause, before or after. -/
def PauseUpdate (old new : Work) : Prop :=
  (∀ id ∈ new.pausedBoundaryId,
      new.state = .suspended ∧ new.attentionOwner = .none ∧ new.suspendedByWorkItemId = none ∧
        new.userNeededBoundaryId = none ∧
        (old.pausedBoundaryId = none → new.generation = old.generation + 1) ∧
        f.PauseExact new id ∧ ∀ id' ∈ old.pausedBoundaryId, id' = id) ∧
    ∀ _id ∈ old.pausedBoundaryId, new.pausedBoundaryId = none →
      (new.state = .active ∧ new.attentionOwner = .worker ∧
          new.generation = old.generation + 1) ∨
        (new.state.terminal ∧ new.attentionOwner = .none ∧ old.generation < new.generation)

instance (old new : Work) : Decidable (f.PauseUpdate old new) := by
  unfold PauseUpdate
  infer_instance

/-- The message was sent to the Worker of this Attempt, on its packets. -/
def SentTo (sender : PrincipalId) (a : Attempt) (m : Message) : Prop :=
  m.attemptNumber = a.number ∧ m.senderId = sender ∧ m.recipientId = a.workerId ∧
    m.goalVersion = a.goalVersion ∧ m.goalPacketDigest = a.goalPacketDigest ∧
    m.taskPacketDigest = a.taskPacketDigest

instance (sender : PrincipalId) (a : Attempt) (m : Message) : Decidable (SentTo sender a m) := by
  unfold SentTo
  infer_instance

/-- How the Attempt that waited and the Attempt that goes on are related:
they are one and the same, or the second replaced the first. -/
def Succeeds (c : BoundaryContinuation) (source successor : Attempt) (m : Message) : Prop :=
  (c.successorAttemptNumber = c.sourceAttemptNumber ∧ c.successorGeneration = c.sourceGeneration ∧
      source.state = .inputRequired ∧ m.kind = .instruction) ∨
    (c.successorAttemptNumber ≠ c.sourceAttemptNumber ∧ successor.number = source.number + 1 ∧
      c.successorGeneration = c.sourceGeneration + 1 ∧ source.state = .canceled ∧
      m.kind = .assignment)

instance (c : BoundaryContinuation) (source successor : Attempt) (m : Message) :
    Decidable (Succeeds c source successor m) := by
  unfold Succeeds
  infer_instance

/-- The Attempts and the message of `boundary_continuations_exact_insert`. -/
def ContinuationBound (c : BoundaryContinuation) (b : Boundary) : Prop :=
  ∃ source ∈ f.attempts, source.number = c.sourceAttemptNumber ∧
    f.Decided .waitUser c.decidedBy c.sourceGeneration b source ∧
    ∃ successor ∈ f.attempts, successor.number = c.successorAttemptNumber ∧
      f.work.assignedWorkerId = successor.workerId ∧
      f.work.goalVersion = successor.goalVersion ∧ f.Latest successor ∧
      ∃ m ∈ f.messages, m.id = c.messageId ∧ SentTo c.decidedBy successor m ∧
        Succeeds c source successor m

instance (c : BoundaryContinuation) (b : Boundary) : Decidable (f.ContinuationBound c b) := by
  unfold ContinuationBound
  infer_instance

/-- `boundary_continuations_exact_insert`. -/
def ContinuationExact (c : BoundaryContinuation) : Prop :=
  f.work.userNeededBoundaryId = some c.boundaryId ∧ f.work.state = .userNeeded ∧
    f.work.attentionOwner = .user ∧ f.work.supervisorId = c.decidedBy ∧
    f.work.generation = c.sourceGeneration ∧
    ∃ b ∈ f.boundaries, b.id = c.boundaryId ∧ f.ContinuationBound c b

instance (c : BoundaryContinuation) : Decidable (f.ContinuationExact c) := by
  unfold ContinuationExact
  infer_instance

/-- The Attempts and the message of `work_pause_resumptions_exact_insert`. -/
def ResumptionBound (r : WorkPauseResumption) : Prop :=
  ∃ previous ∈ f.attempts, previous.number = r.previousAttemptNumber ∧
    ∃ successor ∈ f.attempts, successor.number = r.successorAttemptNumber ∧
      successor.number = previous.number + 1 ∧ successor.workerId = previous.workerId ∧
      successor.goalVersion = previous.goalVersion ∧
      successor.goalPacketDigest = previous.goalPacketDigest ∧
      f.work.assignedWorkerId = successor.workerId ∧
      f.work.goalVersion = successor.goalVersion ∧ f.Latest successor ∧
      ∃ m ∈ f.messages, m.id = r.messageId ∧ m.kind = .assignment ∧ SentTo r.resumedBy successor m

instance (r : WorkPauseResumption) : Decidable (f.ResumptionBound r) := by
  unfold ResumptionBound
  infer_instance

/-- `work_pause_resumptions_exact_insert`. -/
def ResumptionExact (r : WorkPauseResumption) : Prop :=
  f.work.supervisorId = r.resumedBy ∧ f.work.pausedBoundaryId = none ∧
    f.work.state = .active ∧ f.work.attentionOwner = .worker ∧
    f.work.generation = r.successorGeneration ∧
    r.successorGeneration = r.expectedGeneration + 1 ∧
    (∃ p ∈ f.pauses, p.boundaryId = r.boundaryId ∧ p.pauseGeneration = r.expectedGeneration ∧
      p.attemptNumber = r.previousAttemptNumber) ∧ f.ResumptionBound r

instance (r : WorkPauseResumption) : Decidable (f.ResumptionExact r) := by
  unfold ResumptionExact
  infer_instance

/-- The review of `requester_decisions_exact_binding_insert`. -/
def DecisionReview (d : RequesterDecision) (r : Review) : Prop :=
  r.id = d.reviewId ∧ r.attemptNumber = d.attemptNumber ∧ r.reviewerRole = .cao ∧
    r.verdict = .ok ∧ r.supervisorAttachmentId = some d.supervisorAttachmentId ∧
    (∃ g ∈ r.supervisorAttachmentGeneration, g ≤ d.supervisorAttachmentGeneration) ∧
    r.workGeneration ≤ d.workGeneration ∧ r.goalVersion = d.goalVersion ∧
    r.goalPacketDigest = d.goalPacketDigest ∧ r.taskPacketDigest = d.taskPacketDigest

instance (d : RequesterDecision) (r : Review) : Decidable (DecisionReview d r) := by
  unfold DecisionReview
  infer_instance

/-- `requester_decisions_exact_binding_insert`; that the conversation of
the decision is the recorder's at its current generation is the caller's
own identity. -/
def DecisionExact (d : RequesterDecision) : Prop :=
  f.work.requesterId = some d.requesterId ∧ f.work.supervisorId = d.recordedBy ∧
    f.work.supervisorAttachmentId = some d.supervisorAttachmentId ∧
    f.work.generation = d.workGeneration ∧
    (∃ a ∈ f.attempts, a.number = d.attemptNumber ∧ a.goalVersion = d.goalVersion ∧
      a.goalPacketDigest = d.goalPacketDigest ∧ a.taskPacketDigest = d.taskPacketDigest) ∧
    ∃ r ∈ f.reviews, DecisionReview d r

instance (d : RequesterDecision) : Decidable (f.DecisionExact d) := by
  unfold DecisionExact
  infer_instance

/-- The authority behind a supersession, one case for each reason of
`boundary_supersessions_exact_binding_insert`; every row that the trigger
joins through an event was written together with its event. -/
def SupersessionAuthority (b : Boundary) : SupersessionReason → Prop
  | .workCanceled => f.work.state = .canceled ∧ b.generation < f.work.generation
  | .workTerminalDisposition =>
      f.work.state = .canceled ∧ ∃ d ∈ f.dispositions, d.kind = .cancel ∧
        b.generation ≤ d.generation ∧ f.work.generation = d.generation + 1
  | .goalReplaced =>
      b.generation < f.work.generation ∧ b.goalVersion < f.work.goalVersion ∧
        (∃ g ∈ f.goals, g.version = b.goalVersion + 1) ∧
        ∃ a ∈ f.attempts, a.goalVersion = b.goalVersion + 1
  | .recoveryBoundaryReplaced =>
      b.Recovering ∧ ∃ r ∈ f.boundaries, r.id ≠ b.id ∧ r.attemptNumber = b.attemptNumber ∧
        r.generation = b.generation ∧ r.Recovering

instance (b : Boundary) (reason : SupersessionReason) :
    Decidable (f.SupersessionAuthority b reason) := by
  cases reason <;> · unfold SupersessionAuthority; infer_instance

end WorkFile

/-! ## Statements -/

/-- **A statement**: a change that the database makes under a condition. -/
def Tx.statement (c : WorkFile → Prop) [DecidablePred c] (message : String)
    (change : WorkFile → WorkFile) : FileTx PUnit := do
  let f ← get
  Tx.require (c f) (.integrity message)
  set (change f)

/-- Go on only if a check of other code passes. -/
def Tx.check {σ α : Type} (result : Except ServiceError α) : Tx σ Failure α :=
  match result with
  | .ok a => pure a
  | .error e => throw (.service e)

@[simp] theorem Tx.wp_check {σ α : Type} (result : Except ServiceError α)
    {Q : α → σ → Prop} {E : Failure → Prop} {s : σ} :
    Tx.wp (Tx.check result) Q E s ↔
      (∀ a, result = .ok a → Q a s) ∧ ∀ e, result = .error e → E (.service e) := by
  cases result <;> simp [Tx.check]

section Rules

variable {Q : PUnit → WorkFile → Prop} {E : Failure → Prop} {f : WorkFile}

@[simp] theorem Tx.wp_statement (c : WorkFile → Prop) [DecidablePred c] (message : String)
    (change : WorkFile → WorkFile) :
    Tx.wp (Tx.statement c message change) Q E f ↔
      (c f → Q ⟨⟩ (change f)) ∧ (¬ c f → E (.integrity message)) := by
  simp [Tx.statement]

end Rules

namespace WorkFile

/-- A fresh identifier. -/
def newId : FileTx RowId := do
  let f ← get
  set { f with nextNumber := f.nextNumber + 1 }
  pure ⟨f.id, f.nextNumber⟩

@[simp] theorem wp_newId {Q : RowId → WorkFile → Prop} {E : Failure → Prop} {f : WorkFile} :
    Tx.wp newId Q E f ↔ Q ⟨f.id, f.nextNumber⟩ { f with nextNumber := f.nextNumber + 1 } := by
  simp [newId]

/-- A turn may be inserted: it is new, its Boundary exists, no other turn is leased for
the same Boundary or by the same supervisor, and its key is free. -/
def TurnInsertable (env : Env) (t : ReasonerTurn) (f : WorkFile) : Prop :=
  (∀ u ∈ f.turns, u.id ≠ t.id) ∧ (∃ b ∈ f.boundaries, b.id = t.boundaryId) ∧
    (t.state = .leased → ∀ u ∈ f.turns, u.state = .leased →
      u.boundaryId ≠ t.boundaryId ∧ u.supervisorId ≠ t.supervisorId) ∧
    (t.idempotencyKey ≠ .none → env.turnKeyTaken t.supervisorId t.idempotencyKey = false ∧
      ∀ u ∈ f.turns, u.supervisorId = t.supervisorId → u.idempotencyKey ≠ t.idempotencyKey)

instance (env : Env) (t : ReasonerTurn) : DecidablePred (TurnInsertable env t) := fun f => by
  unfold TurnInsertable
  infer_instance

def insertTurn (env : Env) (t : ReasonerTurn) : FileTx PUnit :=
  Tx.statement (TurnInsertable env t) "reasoner_turns"
    fun f => { f with turns := t :: f.turns }

/-- A turn without its lease. -/
def abandoned (t : ReasonerTurn) : ReasonerTurn := { t with state := .abandoned }

/-- A turn that decided. -/
def completed (result : Digest) (t : ReasonerTurn) : ReasonerTurn :=
  { t with state := .completed, resultDigest := some result }

/-- The leased turns meeting a condition lose their lease. -/
def abandon (p : ReasonerTurn → Bool) (f : WorkFile) : WorkFile :=
  { f with turns := Rows.update (fun t => t.state = .leased && p t) abandoned f.turns }

def abandonTurns (p : ReasonerTurn → Bool) : FileTx PUnit := modify (abandon p)

/-- `_fence_reasoner_turns_tx`. -/
def fenceReasonerTurns : FileTx PUnit := abandonTurns fun _ => true

/-- A turn that ends with a result. -/
def complete (id : TurnId) (result : Digest) (f : WorkFile) : WorkFile :=
  { f with turns := Rows.update (fun t => t.id = id) (completed result) f.turns }

def completeTurn (id : TurnId) (result : Digest) : FileTx PUnit := modify (complete id result)

/-- A disposition may be inserted: it is new, it refers to rows that exist and its
Boundary is open. -/
def DispositionInsertable (d : BoundaryDisposition) (f : WorkFile) : Prop :=
  (∀ e ∈ f.dispositions, e.id ≠ d.id) ∧ (∃ b ∈ f.boundaries, b.id = d.boundaryId) ∧
    (∃ t ∈ f.turns, t.id = d.reasonerTurnId) ∧ f.Open d.boundaryId

instance (d : BoundaryDisposition) : DecidablePred (DispositionInsertable d) := fun f => by
  unfold DispositionInsertable
  infer_instance

def insertDisposition (d : BoundaryDisposition) : FileTx PUnit :=
  Tx.statement (DispositionInsertable d) "boundary_dispositions"
    fun f => { f with dispositions := d :: f.dispositions }

/-- A supersession may be inserted: its Boundary is open and there is an
authority for it. -/
def SupersessionInsertable (s : BoundarySupersession) (f : WorkFile) : Prop :=
  f.Open s.boundaryId ∧ ∃ b ∈ f.boundaries, b.id = s.boundaryId ∧
    f.SupersessionAuthority b s.reason

instance (s : BoundarySupersession) : DecidablePred (SupersessionInsertable s) := fun f => by
  unfold SupersessionInsertable
  infer_instance

def insertSupersession (s : BoundarySupersession) : FileTx PUnit :=
  Tx.statement (SupersessionInsertable s) "boundary_supersessions"
    fun f => { f with supersessions := s :: f.supersessions }

/-- A Boundary may be inserted: it is new, its Attempt exists and its source event has
none yet. -/
def BoundaryInsertable (env : Env) (b : Boundary) (f : WorkFile) : Prop :=
  (∀ c ∈ f.boundaries, c.id ≠ b.id) ∧ (∃ a ∈ f.attempts, a.number = b.attemptNumber) ∧
    env.sourceEventTaken b.sourcePrincipalId b.sourceEventId = false ∧
    ∀ c ∈ f.boundaries, c.sourcePrincipalId = b.sourcePrincipalId →
      c.sourceEventId ≠ b.sourceEventId

instance (env : Env) (b : Boundary) : DecidablePred (BoundaryInsertable env b) := fun f => by
  unfold BoundaryInsertable
  infer_instance

def insertBoundary (env : Env) (b : Boundary) : FileTx PUnit :=
  Tx.statement (BoundaryInsertable env b) "boundaries"
    fun f => { f with boundaries := b :: f.boundaries }

def insertGoal (g : GoalRevision) : FileTx PUnit :=
  Tx.statement (fun f => ∀ h ∈ f.goals, h.version ≠ g.version) "goal_revisions"
    fun f => { f with goals := g :: f.goals }

def insertAttempt (a : Attempt) : FileTx PUnit :=
  Tx.statement (fun f => ∀ c ∈ f.attempts, c.number ≠ a.number) "attempts"
    fun f => { f with attempts := a :: f.attempts }

/-- The Attempt of a given number, changed. -/
def withAttempt (number : ℕ) (g : Attempt → Attempt) (f : WorkFile) : WorkFile :=
  { f with attempts := Rows.update (fun a => a.number = number) g f.attempts }

def setAttemptState (number : ℕ) (state : AttemptState) : FileTx PUnit :=
  modify (withAttempt number (Attempt.inState state))

/-- **The updates of a Work**: every statement on `work_items` is one of
these. -/
inductive Move where
  /-- The Worker goes on under the authority it has. -/
  | goOn
  /-- A claim is to be reviewed. -/
  | submit
  /-- A verified result is presented to the requester. -/
  | present
  /-- The supervisor decides. -/
  | supervise
  /-- The supervisor decides, and the authority of the Worker has ended. -/
  | recover
  /-- The supervisor looks. -/
  | attend
  /-- The requester is asked about a Boundary. -/
  | awaitUser (boundaryId : BoundaryId)
  /-- The decision of the requester is consumed. -/
  | consume (generation : ℕ)
  /-- The Work is paused at a Boundary. -/
  | pause (boundaryId : BoundaryId)
  /-- Another Attempt, under new authority. -/
  | renew (workerId : PrincipalId) (resumePaused : Bool)
  /-- Another Attempt, under the authority that a decision of the requester is
  about to renew. -/
  | reassign (workerId : PrincipalId)
  /-- Another goal, under new authority. -/
  | replace (workerId : PrincipalId)
  /-- Another goal, under the authority that a decision of the requester is
  about to renew. -/
  | replaceReassign (workerId : PrincipalId)
  /-- Another Work interrupts this one. -/
  | interrupt (interruptingWorkId : WorkId)
  /-- The Work that interrupted this one has ended. -/
  | release
  /-- The interrupted Work goes on. -/
  | resume
  /-- The requester accepted. -/
  | complete
  /-- The Work ends without a result. -/
  | cancel
  /-- The Work ends with the logical Worker it was assigned to. -/
  | finish (keepsSuspension : Bool)
  deriving DecidableEq, Repr

/-- What an update sets. -/
def Move.apply (m : Move) (w : Work) : Work :=
  match m with
  | goOn => { w with state := .active, attentionOwner := .worker }
  | submit => { w with state := .waitingReview, attentionOwner := .cao }
  | present => { w with state := .waitingUser, attentionOwner := .user }
  | supervise => { w with state := .waitingSupervisor, attentionOwner := .cao }
  | recover =>
    { w with state := .waitingSupervisor, attentionOwner := .cao, generation := w.generation + 1 }
  | attend => { w with attentionOwner := .cao }
  | awaitUser id =>
    { w with state := .userNeeded, attentionOwner := .user, userNeededBoundaryId := some id }
  | consume generation =>
    { w with
      state := .active, attentionOwner := .worker, generation := generation,
      userNeededBoundaryId := none }
  | pause id =>
    { w with
      state := .suspended, attentionOwner := .none, generation := w.generation + 1,
      pausedBoundaryId := some id }
  | renew worker resumePaused =>
    { w with
      assignedWorkerId := worker, state := .active, attentionOwner := .worker,
      pausedBoundaryId := if resumePaused then none else w.pausedBoundaryId,
      generation := w.generation + 1 }
  | reassign worker => { w with assignedWorkerId := worker }
  | replace worker =>
    { w with
      goalVersion := w.goalVersion + 1, assignedWorkerId := worker,
      state := if w.state = .suspended then .suspended else .active,
      attentionOwner := if w.state = .suspended then .none else .worker,
      generation := w.generation + 1,
      suspendedByWorkItemId := if w.state = .suspended then w.suspendedByWorkItemId else none }
  | replaceReassign worker =>
    { w with
      goalVersion := w.goalVersion + 1, assignedWorkerId := worker, suspendedByWorkItemId := none }
  | interrupt id =>
    { w with
      state := .suspended, attentionOwner := .none, generation := w.generation + 1,
      suspendedByWorkItemId := some id }
  | release => { w with suspendedByWorkItemId := none }
  | resume =>
    { w with
      state := .active, attentionOwner := .worker, generation := w.generation + 1,
      suspendedByWorkItemId := none }
  | complete =>
    { w with state := .completed, attentionOwner := .none, generation := w.generation + 1 }
  | cancel =>
    { w with
      state := .canceled, attentionOwner := .none, generation := w.generation + 1,
      userNeededBoundaryId := none, pausedBoundaryId := none }
  | finish keepsSuspension =>
    { w with
      state := .canceled, attentionOwner := .none, generation := w.generation + 1,
      userNeededBoundaryId := none, pausedBoundaryId := none,
      suspendedByWorkItemId := if keepsSuspension then w.suspendedByWorkItemId else none }

/-- The update names `user_needed_boundary_id`, which is what its triggers look
at. -/
def Move.setsPointer : Move → Bool
  | awaitUser _ | consume _ | cancel | finish _ => true
  | goOn | submit | present | supervise | recover | attend | pause _ | renew _ _ | reassign _
  | replace _ | replaceReassign _ | interrupt _ | release | resume | complete => false

/-- The database lets the update through. -/
def Movable (m : Move) (f : WorkFile) : Prop :=
  UserNeededContract (m.apply f.work) ∧
    (m.setsPointer = true → f.UserNeededUpdate f.work (m.apply f.work)) ∧
    f.PauseUpdate f.work (m.apply f.work)

instance (m : Move) : DecidablePred (Movable m) := fun f => by
  unfold Movable
  infer_instance

/-- The file with its Work updated. -/
def moved (m : Move) (f : WorkFile) : WorkFile := { f with work := m.apply f.work }

def move (m : Move) : FileTx PUnit := Tx.statement (Movable m) "work_items" (moved m)

/-- An Attempt and its Work change together. -/
def advance (number : ℕ) (g : Attempt → Attempt) (m : Move) : FileTx PUnit := do
  modify (withAttempt number g)
  move m

/-- `boundary_continuations`: one for a Boundary, one for a message. -/
def ContinuationInsertable (c : BoundaryContinuation) (f : WorkFile) : Prop :=
  ¬ f.Continued c.boundaryId ∧ (∀ d ∈ f.continuations, d.messageId ≠ c.messageId) ∧
    f.ContinuationExact c

instance (c : BoundaryContinuation) : DecidablePred (ContinuationInsertable c) := fun f => by
  unfold ContinuationInsertable
  infer_instance

def insertContinuation (c : BoundaryContinuation) : FileTx PUnit :=
  Tx.statement (ContinuationInsertable c) "boundary_continuations"
    fun f => { f with continuations := c :: f.continuations }

/-- `work_pauses_exact_insert`. -/
def PauseInsertable (p : WorkPause) (f : WorkFile) : Prop :=
  (∀ q ∈ f.pauses, q.boundaryId ≠ p.boundaryId ∧ q.pauseGeneration ≠ p.pauseGeneration) ∧
    f.PauseRecorded p ∧ f.work.supervisorId = p.pausedBy ∧
    f.work.generation = p.sourceGeneration ∧ f.work.pausedBoundaryId = none ∧
    ∃ a ∈ f.attempts, a.number = p.attemptNumber ∧ f.work.assignedWorkerId = a.workerId ∧
      f.work.goalVersion = a.goalVersion ∧ f.Latest a

instance (p : WorkPause) : DecidablePred (PauseInsertable p) := fun f => by
  unfold PauseInsertable
  infer_instance

def insertPause (p : WorkPause) : FileTx PUnit :=
  Tx.statement (PauseInsertable p) "work_pauses" fun f => { f with pauses := p :: f.pauses }

/-- `work_pause_resumptions`: one for a pause, an Attempt and a message. -/
def ResumptionInsertable (r : WorkPauseResumption) (f : WorkFile) : Prop :=
  (∀ q ∈ f.resumptions, q.boundaryId ≠ r.boundaryId ∧
      q.successorAttemptNumber ≠ r.successorAttemptNumber ∧ q.messageId ≠ r.messageId) ∧
    f.ResumptionExact r

instance (r : WorkPauseResumption) : DecidablePred (ResumptionInsertable r) := fun f => by
  unfold ResumptionInsertable
  infer_instance

def insertResumption (r : WorkPauseResumption) : FileTx PUnit :=
  Tx.statement (ResumptionInsertable r) "work_pause_resumptions"
    fun f => { f with resumptions := r :: f.resumptions }

/-- `reviews_boundary_unique`. -/
def insertReview (r : Review) : FileTx PUnit :=
  Tx.statement (fun f => (∀ q ∈ f.reviews, q.id ≠ r.id) ∧
      (r.boundaryId = none ∨ ∀ q ∈ f.reviews, q.boundaryId ≠ r.boundaryId))
    "reviews" fun f => { f with reviews := r :: f.reviews }

def insertDecision (d : RequesterDecision) : FileTx PUnit :=
  Tx.statement (fun f => (∀ e ∈ f.decisions, e.id ≠ d.id ∧ e.reviewId ≠ d.reviewId) ∧
      f.DecisionExact d)
    "requester_decisions" fun f => { f with decisions := d :: f.decisions }

/-! ## Messages -/

/-- The packets a message is bound to are those of its Attempt and of the
goal revision it names. -/
def messagePackets (r : MessageRequest) (f : WorkFile) : Option Attempt :=
  (f.goal? r.goalVersion).bind fun g =>
    (f.attempt? r.attemptNumber).filter fun a =>
      a.goalVersion = r.goalVersion ∧ a.goalPacketDigest = g.packetDigest

/-- **`_message`**: bound to its packets, answered again when its sender
repeats its key with the same content, and delivered to its recipient. -/
def message (env : Env) (r : MessageRequest) : FileTx WorkMessageId := do
  let f ← get
  let a ← Tx.need (messagePackets r f)
    (.service (.conflict "message cannot bind a stale task packet"))
  Tx.require (a.runtimeSessionId.isSome)
    (.service (.conflict "Worker message cannot bind an attempt without a runtime"))
  match f.messages.find? fun m => r.idempotencyKey ≠ .none ∧ m.senderId = r.senderId ∧
      m.idempotencyKey = r.idempotencyKey with
  | some m =>
    Tx.require (m.toMessageRequest = r ∧ m.goalPacketDigest = a.goalPacketDigest ∧
        m.taskPacketDigest = a.taskPacketDigest)
      (.service (.conflict "message idempotency key was reused with different content"))
    pure m.id
  | none =>
    Tx.require (r.idempotencyKey ≠ .none →
        env.messageKeyTaken r.senderId r.idempotencyKey = false)
      (.service (.conflict "message idempotency key was reused with different content"))
    Tx.check (match env.messageRefused r with | some e => .error e | none => .ok ())
    let id ← newId
    modify fun f => { f with messages := ⟨r, id, a.goalPacketDigest, a.taskPacketDigest⟩ :: f.messages }
    pure id

end WorkFile
