import OpenCAO.Files

/-!
# The history of a Work

A Work keeps every goal it had and every Attempt it made. `History` says
that both are chains: the goal revisions are numbered from one up to the
current goal, each naming the one before it and sealed by the packet that
its own columns give, and the Attempts are numbered from one up to the
latest, which is the only one that may not have ended.

What carries the Attempts is the generation. A Boundary reports on the
Attempt that was the latest when it was recorded, and every new Attempt
is under a new generation; so whoever acts on a Boundary of the current
generation acts on the latest Attempt, though no statement looks.
-/

/-- The numbers from `n` down to one. -/
def countdown : ℕ → List ℕ
  | 0 => []
  | n + 1 => (n + 1) :: countdown n

theorem mem_countdown {n k : ℕ} : k ∈ countdown n ↔ 1 ≤ k ∧ k ≤ n := by
  induction n with
  | zero => simp [countdown]; omega
  | succ n ih =>
    rw [countdown, List.mem_cons, ih]
    omega

theorem nodup_countdown (n : ℕ) : (countdown n).Nodup := by
  induction n with
  | zero => simp [countdown]
  | succ n ih =>
    rw [countdown, List.nodup_cons, mem_countdown]
    exact ⟨by omega, ih⟩

namespace WorkFile

open Tx

variable {f g : WorkFile}

/-! ## What a revision and an Attempt are sealed by -/

/-- The version that a revision names as the one before it. -/
def priorVersion (version : ℕ) : Option ℕ := if version > 1 then some (version - 1) else none

/-- The conversation as a revision sealed it, `supervisor_attachment`. -/
def rebuiltAttachment (f : WorkFile) (goal : GoalRevision) : Option AttachmentPacket :=
  match f.work.supervisorAttachmentId, f.attachment, goal.supervisorRuntimeSessionId,
    goal.supervisorAttachmentGeneration with
  | some id, some identity, some runtime, some generation =>
      some (sealedAttachment id identity runtime generation)
  | _, _, _, _ => none

/-- **The packet that the columns of a revision give**, as
`_backfill_goal_and_task_packets` rebuilds it. -/
def rebuiltPacket (f : WorkFile) (goal : GoalRevision) : GoalPacket :=
  { workItemId := f.id, version := goal.version, title := goal.title,
    objective := goal.objective, maturity := goal.maturity, acceptance := goal.acceptance,
    nonGoals := goal.nonGoals, priority := goal.priority, requesterId := goal.requesterId,
    supervisorId := goal.supervisorId, metadata := goal.metadata, reason := goal.reason,
    createdBy := goal.createdBy, sourceIntentId := goal.sourceIntentId,
    sourceDirectiveId := goal.sourceDirectiveId, correlationId := goal.correlationId,
    priorVersion := priorVersion goal.version,
    supervisorAttachment := f.rebuiltAttachment goal,
    completionContract := goal.packet.completionContract,
    dependencies := goal.packet.dependencies,
    managedTaskPolicy := goal.packet.managedTaskPolicy, workerPurpose := goal.workerPurpose }

/-- The revision is sealed by what it says. -/
structure Sealed (f : WorkFile) (goal : GoalRevision) : Prop where
  prior : goal.priorVersion = priorVersion goal.version
  packet : goal.packet = f.rebuiltPacket goal
  digest : goal.packetDigest = .goalPacket (f.rebuiltPacket goal)

/-- The Attempt is bound to a revision of its goal. -/
def Bound (f : WorkFile) (a : Attempt) : Prop :=
  ∃ goal ∈ f.goals, goal.version = a.goalVersion ∧ a.goalPacketDigest = goal.packetDigest ∧
    a.taskPacketDigest = taskPacketDigest f.id goal a.number a.workerId a.runtimeSessionId

/-- The Boundary was recorded at an authority that the Work had, and on the
latest Attempt if it still has it. -/
def Recorded (f : WorkFile) (b : Boundary) : Prop :=
  b.generation ≤ f.work.generation ∧
    (b.generation = f.work.generation → b.attemptNumber = f.attempts.length) ∧
    ∃ r : BoundaryInput, b.inputDigest = r.digest f.id ∧ r.attemptNumber = b.attemptNumber ∧
      r.expectedGeneration = b.generation

/-- **The goal revisions and the Attempts are chains.** -/
structure Chain (f : WorkFile) : Prop where
  versions : f.goals.map (·.version) = countdown f.work.goalVersion
  goals : ∀ goal ∈ f.goals, f.Sealed goal
  numbers : f.attempts.map (·.number) = countdown f.attempts.length
  started : f.attempts ≠ []
  ended : ∀ a ∈ f.attempts, a.number ≠ f.attempts.length → a.state.terminal = true
  bound : ∀ a ∈ f.attempts, f.Bound a
  boundaryIds : (f.boundaries.map (·.id)).Nodup

/-- **The history of a Work is a chain**, and every Boundary has its place in
it. -/
structure History (f : WorkFile) : Prop extends Chain f where
  recorded : ∀ b ∈ f.boundaries, f.Recorded b

namespace Chain

variable (hf : Chain f)
include hf

theorem mem_numbers {a : Attempt} (ha : a ∈ f.attempts) :
    1 ≤ a.number ∧ a.number ≤ f.attempts.length := by
  rw [← mem_countdown, ← hf.numbers]
  exact List.mem_map_of_mem ha

theorem exists_number {k : ℕ} (h₁ : 1 ≤ k) (hk : k ≤ f.attempts.length) :
    ∃ a ∈ f.attempts, a.number = k := by
  have hmem : k ∈ f.attempts.map (·.number) := by
    rw [hf.numbers, mem_countdown]
    exact ⟨h₁, hk⟩
  exact List.mem_map.mp hmem

theorem nodup_numbers : (f.attempts.map (·.number)).Nodup := by
  rw [hf.numbers]
  exact nodup_countdown _

/-- The latest Attempt has the highest number. -/
theorem latest_number {a : Attempt} (ha : f.latestAttempt? = some a) :
    a.number = f.attempts.length := by
  have hnumbers := hf.numbers
  unfold latestAttempt? at ha
  cases hattempts : f.attempts with
  | nil => exact absurd hattempts hf.started
  | cons c rest =>
    rw [hattempts, List.head?_cons] at ha
    rw [hattempts, List.map_cons, List.length_cons, countdown] at hnumbers
    rw [← Option.some.inj ha]
    exact (List.cons.inj hnumbers).1

theorem exists_latest : ∃ a, f.latestAttempt? = some a := by
  unfold latestAttempt?
  cases hattempts : f.attempts with
  | nil => exact absurd hattempts hf.started
  | cons c rest => exact ⟨c, rfl⟩

/-- Only the latest Attempt may be alive. -/
theorem number_of_live {a : Attempt} (ha : a ∈ f.attempts) (hlive : a.state.terminal = false) :
    a.number = f.attempts.length := by
  by_contra hne
  rw [hf.ended a ha hne] at hlive
  cases hlive

/-- An Attempt that nobody followed is the latest. -/
theorem number_of_unfollowed {a : Attempt} (ha : a ∈ f.attempts)
    (h : ∀ c ∈ f.attempts, c.number ≠ a.number + 1) : a.number = f.attempts.length := by
  have hbounds := hf.mem_numbers ha
  by_contra hne
  obtain ⟨c, hc, hnumber⟩ := hf.exists_number (k := a.number + 1) (by omega) (by omega)
  exact h c hc hnumber

end Chain

/-! ## What keeps the chain

Most writes leave the chain as it is, or change an Attempt in place. -/

/-- An Attempt in place: it is the same one, and stays ended. -/
def Kept (f : WorkFile) (a b : Attempt) : Prop :=
  SameAttempt a b ∧
    (a.number ≠ f.attempts.length → a.state.terminal = true → b.state.terminal = true)

theorem kept_refl (a : Attempt) : Kept f a a := ⟨⟨rfl, rfl, rfl, rfl, rfl, rfl⟩, fun _ h => h⟩

theorem kept_same : List.Forall₂ (Kept f) f.attempts f.attempts :=
  List.forall₂_same.mpr fun a _ => kept_refl a

theorem kept_withAttempt {h : Attempt → Attempt} {number : ℕ} (hh : ∀ a, SameAttempt a (h a))
    (hnumber : number = f.attempts.length) :
    List.Forall₂ (Kept f) f.attempts (withAttempt number h f).attempts := by
  refine Rows.evolve_update kept_refl (fun a ha => ⟨hh a, fun hne => ?_⟩) _
  exact absurd ((by simpa using ha : a.number = number).trans hnumber) hne

theorem kept_endAttempts : List.Forall₂ (Kept f) f.attempts (endAttempts f).attempts :=
  Rows.evolve_update kept_refl (fun a _ => ⟨sameAttempt_inState _ a, fun _ _ => rfl⟩) _

/-- The columns of a Boundary that place it in the history. -/
def place (b : Boundary) : BoundaryId × ℕ × ℕ × Digest :=
  (b.id, b.attemptNumber, b.generation, b.inputDigest)

/-- The part of a file that the chain is about, with its Attempts changed in
place. -/
structure InPlace (f g : WorkFile) : Prop where
  id : g.id = f.id
  attachment : g.attachment = f.attachment
  attachmentId : g.work.supervisorAttachmentId = f.work.supervisorAttachmentId
  goals : g.goals = f.goals
  goalVersion : g.work.goalVersion = f.work.goalVersion
  attempts : List.Forall₂ (Kept f) f.attempts g.attempts
  boundaries : g.boundaries.map place = f.boundaries.map place

theorem InPlace.length_attempts (h : InPlace f g) : g.attempts.length = f.attempts.length :=
  h.attempts.length_eq.symm

theorem Sealed.of_eq {goal : GoalRevision} (hgoal : f.Sealed goal) (hid : g.id = f.id)
    (hattachment : g.attachment = f.attachment)
    (hattachmentId : g.work.supervisorAttachmentId = f.work.supervisorAttachmentId) :
    g.Sealed goal := by
  have hrebuilt : g.rebuiltPacket goal = f.rebuiltPacket goal := by
    unfold rebuiltPacket rebuiltAttachment
    rw [hid, hattachment, hattachmentId]
  refine ⟨hgoal.prior, ?_, ?_⟩
  · rw [hrebuilt]
    exact hgoal.packet
  · rw [hrebuilt]
    exact hgoal.digest

theorem Bound.of_same {a b : Attempt} (ha : f.Bound a) (hsame : SameAttempt a b)
    (hid : g.id = f.id) (hgoals : ∀ goal ∈ f.goals, goal ∈ g.goals) : g.Bound b := by
  obtain ⟨goal, hgoal, hversion, hdigest, htask⟩ := ha
  obtain ⟨hnumber, hworker, hruntime, hgoalVersion, hgoalDigest, htaskDigest⟩ := hsame
  refine ⟨goal, hgoals goal hgoal, hversion.trans hgoalVersion, hgoalDigest ▸ hdigest, ?_⟩
  rw [← htaskDigest, htask, hid, hnumber, hworker, hruntime]

theorem Chain.inPlace (hf : Chain f) (h : InPlace f g) : Chain g where
  versions := by
    rw [h.goals, h.goalVersion]
    exact hf.versions
  goals := by
    intro goal hgoal
    rw [h.goals] at hgoal
    exact (hf.goals goal hgoal).of_eq h.id h.attachment h.attachmentId
  numbers := by
    rw [h.length_attempts, ← hf.numbers]
    exact Rows.map_eq_of_evolve (fun a b hab => hab.1.1) h.attempts
  started := by
    intro hnil
    have hlength := h.length_attempts
    rw [hnil] at hlength
    exact hf.started (List.length_eq_zero_iff.mp hlength.symm)
  ended := by
    intro b hb hne
    obtain ⟨a, ha, hab⟩ := Rows.exists_left h.attempts hb
    rw [h.length_attempts, ← hab.1.1] at hne
    exact hab.2 hne (hf.ended a ha hne)
  bound := by
    intro b hb
    obtain ⟨a, ha, hab⟩ := Rows.exists_left h.attempts hb
    exact (hf.bound a ha).of_same hab.1 h.id fun goal hgoal => by rwa [h.goals]
  boundaryIds := by
    have hids : g.boundaries.map (·.id) = f.boundaries.map (·.id) := by
      have h := congrArg (List.map Prod.fst) h.boundaries
      rw [List.map_map, List.map_map] at h
      exact h
    rw [hids]
    exact hf.boundaryIds

theorem Recorded.of_eq {b c : Boundary} (hb : f.Recorded b) (hid : g.id = f.id)
    (hplace : place c = place b) (hgeneration : f.work.generation ≤ g.work.generation)
    (hlength : f.work.generation = g.work.generation →
      g.attempts.length = f.attempts.length) : g.Recorded c := by
  obtain ⟨hle, hlatest, r, hdigest, hnumber, hr⟩ := hb
  simp only [place, Prod.mk.injEq] at hplace
  obtain ⟨-, hn, hg, hd⟩ := hplace
  refine ⟨by omega, fun hcurrent => ?_, r, ?_, hnumber.trans hn.symm, hr.trans hg.symm⟩
  · have hsame : f.work.generation = g.work.generation := by omega
    rw [hn, hlength hsame]
    exact hlatest (by omega)
  · rw [hd, hid]
    exact hdigest

theorem recorded_of_places (hf : ∀ b ∈ f.boundaries, f.Recorded b) (hid : g.id = f.id)
    (hplaces : g.boundaries.map place = f.boundaries.map place)
    (hgeneration : f.work.generation ≤ g.work.generation)
    (hlength : f.work.generation = g.work.generation →
      g.attempts.length = f.attempts.length) : ∀ c ∈ g.boundaries, g.Recorded c := by
  intro c hc
  have hmem : place c ∈ f.boundaries.map place := by
    rw [← hplaces]
    exact List.mem_map_of_mem hc
  obtain ⟨b, hb, hplace⟩ := List.mem_map.mp hmem
  exact (hf b hb).of_eq hid hplace.symm hgeneration hlength

theorem History.inPlace (hf : History f) (h : InPlace f g)
    (hgeneration : f.work.generation ≤ g.work.generation) : History g where
  toChain := hf.toChain.inPlace h
  recorded := recorded_of_places hf.recorded h.id h.boundaries hgeneration
    fun _ => h.length_attempts

/-! ## Moves -/

@[simp] theorem Move.apply_supervisorAttachmentId (m : Move) (w : Work) :
    (m.apply w).supervisorAttachmentId = w.supervisorAttachmentId := by
  cases m <;> rfl

theorem Handover.goalVersion {k : WriteKind} {number : ℕ} {h : Attempt → Attempt} {m : Move}
    (hm : Handover f number k h m) (w : Work) : (m.apply w).goalVersion = w.goalVersion := by
  cases hm <;> rfl

theorem Handover.sameAttempt {k : WriteKind} {number : ℕ} {h : Attempt → Attempt} {m : Move}
    (hm : Handover f number k h m) (a : Attempt) : SameAttempt a (h a) := by
  cases hm with
  | supervise h hh => exact (hh a).1
  | _ => exact ⟨rfl, rfl, rfl, rfl, rfl, rfl⟩

theorem digest_inj {r r' : BoundaryInput} {w : WorkId} (h : r.digest w = r'.digest w) :
    r = r' := by
  cases r
  cases r'
  simpa [BoundaryInput.digest] using h

/-- **Whoever acts on an Attempt acts on the latest one.** -/
theorem History.number_of_target (hf : History f) {k : WriteKind} {number : ℕ}
    {h : Attempt → Attempt} {m : Move} (hm : Handover f number k h m)
    (htarget : Targets f m number) (hmovable : Movable m f ∨ Movable m (withAttempt number h f)) :
    number = f.attempts.length := by
  rcases htarget with ⟨a, ha, rfl⟩ | ⟨a, ha, rfl, hlive⟩ | ⟨b, hb, rfl, hcurrent⟩ |
    ⟨b, hb, r, hdigest, rfl, hgeneration⟩
  · exact hf.latest_number ha
  · exact hf.number_of_live ha hlive
  · refine (hf.recorded b hb).2.1 ?_
    rcases hcurrent with hcurrent | rfl
    · exact hcurrent
    · -- The database asks for a Boundary of the current generation.
      have hexact : ∃ f', f'.boundaries = f.boundaries ∧
          UserNeededExact f' (Move.apply (.awaitUser b.id) f.work) b.id := by
        rcases hmovable with hmovable | hmovable
        · exact ⟨f, rfl, ((hmovable.2.1 rfl).1 b.id rfl).1⟩
        · exact ⟨withAttempt b.attemptNumber h f, rfl, ((hmovable.2.1 rfl).1 b.id rfl).1⟩
      obtain ⟨f', hboundaries, b', hb', hid, a, -, hdecided, -⟩ := hexact
      rw [hboundaries] at hb'
      obtain rfl : b' = b := Rows.eq_of_key hf.boundaryIds hb' hb hid
      exact hdecided.2.1
  · obtain ⟨hle, hlatest, r', hdigest', hnumber, hr'⟩ := hf.recorded b hb
    obtain rfl : r = r' := digest_inj (hdigest.symm.trans hdigest')
    have hup := hm.generation_le f.work
    rw [hnumber]
    exact hlatest (by omega)

/-! ## Another Attempt -/

theorem sameAttempt_givenUp (previous : Attempt) (f : WorkFile) :
    List.Forall₂ SameAttempt f.attempts (givenUp previous f).attempts := by
  unfold givenUp
  split
  · exact List.forall₂_same.mpr fun _ _ => ⟨rfl, rfl, rfl, rfl, rfl, rfl⟩
  · exact Rows.evolve_update (fun _ => ⟨rfl, rfl, rfl, rfl, rfl, rfl⟩)
      (fun a _ => sameAttempt_inState _ a) _

theorem givenUp_attempts {previous : Attempt} (h : g.attempts = f.attempts) :
    (givenUp previous g).attempts = (givenUp previous f).attempts := by
  unfold givenUp withAttempt
  split
  · exact h
  · rw [h]

/-- An Attempt that is replaced was the latest. -/
theorem Chain.number_of_replaced (hf : Chain f) {previous : Attempt}
    (hprevious : previous ∈ f.attempts)
    (hnew : ∀ c ∈ (givenUp previous f).attempts, c.number ≠ previous.number + 1) :
    previous.number = f.attempts.length := by
  refine hf.number_of_unfollowed hprevious fun c hc => ?_
  obtain ⟨c', hc', hsame⟩ := Rows.exists_right (sameAttempt_givenUp previous f) hc
  rw [hsame.1]
  exact hnew c' hc'

theorem kept_givenUp {previous : Attempt} (hlatest : previous.number = f.attempts.length) :
    List.Forall₂ (Kept f) f.attempts (givenUp previous f).attempts := by
  unfold givenUp
  split
  · exact kept_same
  · exact kept_withAttempt (sameAttempt_inState _) hlatest

/-- After it was given up, no Attempt is alive. -/
theorem Chain.ended_givenUp (hf : Chain f) {previous : Attempt} (hprevious : previous ∈ f.attempts)
    (hlatest : previous.number = f.attempts.length) :
    ∀ a ∈ (givenUp previous f).attempts, a.state.terminal = true := by
  have hothers : ∀ a ∈ f.attempts, a ≠ previous → a.state.terminal = true := fun a ha hne =>
    hf.ended a ha fun hnumber => hne <|
      Rows.eq_of_key hf.nodup_numbers ha hprevious (hnumber.trans hlatest.symm)
  unfold givenUp
  split
  · next hterminal =>
    intro a ha
    by_cases h : a = previous
    · rw [h]
      exact hterminal
    · exact hothers a ha h
  · intro b hb
    obtain ⟨a, ha, rfl⟩ := Rows.mem_update.mp hb
    split
    · rfl
    · next hne =>
      refine hothers a ha fun h => hne ?_
      simp [h]

theorem Chain.extend (hf : Chain f) (hended : ∀ a ∈ f.attempts, a.state.terminal = true)
    {a : Attempt} (hnumber : a.number = f.attempts.length + 1) (hbound : f.Bound a) :
    Chain { f with attempts := a :: f.attempts } where
  versions := hf.versions
  goals := fun goal hgoal => (hf.goals goal hgoal).of_eq rfl rfl rfl
  numbers := by
    rw [List.map_cons, List.length_cons, countdown, hnumber, hf.numbers]
  started := by simp
  ended := by
    intro c hc hne
    rcases List.mem_cons.mp hc with rfl | hc
    · exact absurd hnumber hne
    · exact hended c hc
  bound := by
    intro c hc
    rcases List.mem_cons.mp hc with rfl | hc
    · exact hbound
    · exact hf.bound c hc
  boundaryIds := hf.boundaryIds

theorem Chain.revise (hf : Chain f) {goal : GoalRevision}
    (hversion : goal.version = f.work.goalVersion + 1) (hsealed : f.Sealed goal) :
    Chain { f with
      goals := goal :: f.goals
      work := { f.work with goalVersion := f.work.goalVersion + 1 } } where
  versions := by
    rw [List.map_cons, hversion, hf.versions]
    rfl
  goals := by
    intro h hh
    rcases List.mem_cons.mp hh with rfl | hh
    · exact hsealed.of_eq rfl rfl rfl
    · exact (hf.goals h hh).of_eq rfl rfl rfl
  numbers := hf.numbers
  started := hf.started
  ended := hf.ended
  bound := fun a ha => (hf.bound a ha).of_same ⟨rfl, rfl, rfl, rfl, rfl, rfl⟩ rfl
    fun _ h => List.mem_cons_of_mem _ h
  boundaryIds := hf.boundaryIds

theorem bound_attemptOn (goal : GoalRevision) (hgoal : goal ∈ f.goals) (number : ℕ)
    (worker : PrincipalId) (runtime : Option RuntimeId) (state : AttemptState) :
    f.Bound (attemptOn f.id goal number worker runtime state) :=
  ⟨goal, hgoal, rfl, rfl, rfl⟩

theorem mem_of_goal? {version : ℕ} {goal : GoalRevision} (h : f.goal? version = some goal) :
    goal ∈ f.goals ∧ goal.version = version :=
  ⟨List.mem_of_find?_eq_some h, by simpa using List.find?_some h⟩

theorem Chain.renewal (hf : Chain f) {m : Move} (h : Renewal f m g) :
    Chain g ∧ g.id = f.id ∧ g.boundaries = f.boundaries := by
  cases h with
  | intro goal previous m worker runtime hgoal hprevious hmove hm hnew =>
    have hlatest := hf.number_of_replaced hprevious hnew
    have hmoved : InPlace f (moved m (givenUp previous f)) := by
      rw [givenUp_eq]
      refine ⟨rfl, rfl, ?_, rfl, ?_, kept_givenUp hlatest, rfl⟩
      · rcases hmove with rfl | ⟨paused, rfl⟩ <;> rfl
      · rcases hmove with rfl | ⟨paused, rfl⟩ <;> rfl
    have hlength : (givenUp previous f).attempts.length = f.attempts.length :=
      hmoved.length_attempts
    refine ⟨(hf.inPlace hmoved).extend (hf.ended_givenUp hprevious hlatest) ?_ ?_, hmoved.id, ?_⟩
    · show previous.number + 1 = (givenUp previous f).attempts.length + 1
      rw [hlength, hlatest]
    · have h := bound_attemptOn (f := moved m (givenUp previous f)) goal
        (by rw [hmoved.goals]; exact (mem_of_goal? hgoal).1) (previous.number + 1) worker runtime
        .assigned
      rwa [hmoved.id] at h
    · rw [givenUp_eq]
      rfl

theorem sealed_goalRevision {r : WorkAssignment} {o : GoalOrigin}
    {requester supervisor : Option PrincipalId} {packet : Option AttachmentPacket} {version : ℕ}
    (hprior : o.priorVersion = priorVersion version) (hpacket : SealedFor f packet) :
    f.Sealed (goalRevision f.id version r o requester supervisor packet) := by
  have hattachment : f.rebuiltAttachment
      (goalRevision f.id version r o requester supervisor packet) = packet := by
    unfold SealedFor at hpacket
    unfold rebuiltAttachment
    cases hid : f.work.supervisorAttachmentId with
    | none =>
      rw [hid] at hpacket
      rw [show packet = none from hpacket]
    | some id =>
      rw [hid] at hpacket
      obtain ⟨identity, hidentity, runtime, generation, hpacket⟩ := hpacket
      rw [hidentity, hpacket]
      rfl
  have hrebuilt : f.rebuiltPacket (goalRevision f.id version r o requester supervisor packet) =
      goalPacket f.id version r o requester supervisor packet := by
    unfold rebuiltPacket
    rw [hattachment, show (goalRevision f.id version r o requester supervisor packet).version =
      version from rfl, ← hprior]
    rfl
  refine ⟨hprior, ?_, ?_⟩
  · rw [hrebuilt]
    rfl
  · rw [hrebuilt]
    rfl

theorem Chain.replacement (hf : Chain f) {m : Move} (h : Replacement f m g) :
    Chain g ∧ g.id = f.id ∧ g.boundaries = f.boundaries := by
  cases h with
  | intro goal previous m worker runtime r o requester supervisor packet hgoal hprior hpacket _
      hfresh hprevious hmove hm hnew =>
    have hsame : (givenUp previous { f with goals := goal :: f.goals }).attempts =
        (givenUp previous f).attempts := givenUp_attempts rfl
    rw [hsame] at hnew
    have hlatest := hf.number_of_replaced hprevious hnew
    have hversion : goal.version = f.work.goalVersion + 1 := by
      rw [hgoal]
      rfl
    have hsealed : f.Sealed goal := by
      rw [hgoal]
      refine sealed_goalRevision ?_ hpacket
      rw [hprior]
      unfold priorVersion
      have hpositive : f.work.goalVersion ≠ 0 := by
        intro hzero
        obtain ⟨a, ha⟩ := hf.exists_latest
        obtain ⟨h, hh, -⟩ := hf.bound a (mem_of_latestAttempt? ha)
        have hgoals := hf.versions
        rw [hzero, countdown, List.map_eq_nil_iff] at hgoals
        rw [hgoals] at hh
        cases hh
      rw [if_pos (by omega)]
      rfl
    have hrevised := hf.revise hversion hsealed
    set f₁ : WorkFile := { f with
      goals := goal :: f.goals
      work := { f.work with goalVersion := f.work.goalVersion + 1 } } with hf₁
    have hmoved : InPlace f₁ (moved m (givenUp previous { f with goals := goal :: f.goals })) := by
      rw [givenUp_eq, hsame]
      refine ⟨rfl, ?_, ?_, rfl, ?_, kept_givenUp (f := f) hlatest, rfl⟩
      · rfl
      · rcases hmove with rfl | rfl <;> rfl
      · rcases hmove with rfl | rfl <;> rfl
    have hlength : (givenUp previous { f with goals := goal :: f.goals }).attempts.length =
        f.attempts.length := hmoved.length_attempts
    refine ⟨(hrevised.inPlace hmoved).extend ?_ ?_ ?_, hmoved.id, ?_⟩
    · show ∀ a ∈ (givenUp previous { f with goals := goal :: f.goals }).attempts, _
      rw [hsame]
      exact hf.ended_givenUp hprevious hlatest
    · show previous.number + 1 = (givenUp previous _).attempts.length + 1
      rw [hlength, hlatest]
    · have h := bound_attemptOn
        (f := moved m (givenUp previous { f with goals := goal :: f.goals })) goal
        (by rw [hmoved.goals]; exact List.mem_cons_self) (previous.number + 1) worker runtime
        (if f.work.state = .suspended then .suspended else .assigned)
      rwa [hmoved.id] at h
    · rw [givenUp_eq]
      rfl

/-! ## The writes -/

theorem inPlace_refl : InPlace f f := ⟨rfl, rfl, rfl, rfl, rfl, kept_same, rfl⟩

theorem inPlace_messaged (h : Messaged f g) : InPlace f g := by
  cases h with
  | again => exact inPlace_refl
  | sent => exact ⟨rfl, rfl, rfl, rfl, rfl, kept_same, rfl⟩

theorem inPlace_consumption {c : BoundaryContinuation} (h : Consumption f c g) : InPlace f g := by
  cases h
  exact ⟨rfl, rfl, rfl, rfl, rfl, kept_same, rfl⟩

theorem places_rederive (env : Env) (f₀ f : WorkFile) :
    (rederive env f₀ f).map place = f.boundaries.map place :=
  Rows.map_update (f := rederived env f) (fun _ _ => rfl) _

/-- A chain under a new generation. -/
theorem History.renewed (hf : History f) (hg : Chain g) (hid : g.id = f.id)
    (hboundaries : g.boundaries = f.boundaries) (h : f.work.generation < g.work.generation) :
    History g where
  toChain := hg
  recorded := recorded_of_places hf.recorded hid (by rw [hboundaries]) (Nat.le_of_lt h)
    fun hsame => absurd hsame (Nat.ne_of_lt h)

/-- What a continued Attempt consumes, after everything else was written. -/
theorem History.continued {f₁ f₂ : WorkFile} {c : BoundaryContinuation} (hf : History f)
    (h₁ : Chain f₁ ∧ f₁.id = f.id ∧ f₁.boundaries = f.boundaries) (hsent : Messaged f₁ f₂)
    (hgeneration : c.successorGeneration = f.work.generation + 1)
    (hconsumed : Consumption f₂ c g) : History g := by
  have hchain := (h₁.1.inPlace (inPlace_messaged hsent)).inPlace (inPlace_consumption hconsumed)
  have hid : g.id = f.id :=
    (inPlace_consumption hconsumed).id.trans ((inPlace_messaged hsent).id.trans h₁.2.1)
  have hboundaries : g.boundaries = f.boundaries :=
    (Commanded.of_consumption hconsumed).boundaries.trans
      ((Commanded.of_messaged hsent).boundaries.trans h₁.2.2)
  refine hf.renewed hchain hid hboundaries ?_
  rw [hconsumed.work_eq]
  exact hgeneration ▸ Nat.lt_succ_self _

/-- A move that leaves the Attempts changed in place. -/
theorem History.moved_inPlace (hf : History f) (h : InPlace f g) {m : Move}
    (hversion : (m.apply g.work).goalVersion = f.work.goalVersion)
    (hgeneration : f.work.generation ≤ (m.apply g.work).generation) : History (moved m g) := by
  refine hf.inPlace ⟨h.id, h.attachment, ?_, h.goals, hversion, h.attempts, h.boundaries⟩
    hgeneration
  show (m.apply g.work).supervisorAttachmentId = _
  rw [Move.apply_supervisorAttachmentId]
  exact h.attachmentId

/-- **Every write keeps the history.** -/
theorem History.write (hf : History f) {k : WriteKind} (h : Write f k g) : History g := by
  have hgeneration := h.generation_le
  cases h with
  | message g hsent => exact hf.inPlace (inPlace_messaged hsent) hgeneration
  | record env b a r ha hreports hdigest _ hb =>
    refine ⟨⟨hf.versions, fun goal hg => (hf.goals goal hg).of_eq rfl rfl rfl, hf.numbers,
      hf.started, hf.ended, hf.bound, ?_⟩, ?_⟩
    · rw [List.map_cons, List.nodup_cons]
      refine ⟨fun hmem => ?_, hf.boundaryIds⟩
      obtain ⟨c, hc, hid⟩ := List.mem_map.mp hmem
      exact hb.1 c hc hid
    · intro c hc
      rcases List.mem_cons.mp hc with rfl | hc
      · exact ⟨Nat.le_of_eq hreports.2.1, fun _ => hreports.1.trans (hf.latest_number ha), r,
          hdigest⟩
      · exact hf.recorded c hc
  | rederive env f₀ =>
    exact hf.inPlace ⟨rfl, rfl, rfl, rfl, rfl, kept_same, places_rederive env f₀ f⟩ hgeneration
  | acknowledge a ha hstate =>
    have hlatest := hf.number_of_live ha (by rw [hstate]; rfl)
    exact hf.inPlace ⟨rfl, rfl, rfl, rfl, rfl, kept_withAttempt (sameAttempt_inState _) hlatest,
      rfl⟩ hgeneration
  | handover k number h m hm htarget hmovable =>
    have hlatest := hf.number_of_target hm htarget hmovable
    exact hf.moved_inPlace (g := withAttempt number h f)
      ⟨rfl, rfl, rfl, rfl, rfl, kept_withAttempt hm.sameAttempt hlatest, rfl⟩
      (hm.goalVersion f.work) hgeneration
  | finish keeps =>
    exact hf.moved_inPlace (g := endAttempts f) ⟨rfl, rfl, rfl, rfl, rfl, kept_endAttempts, rfl⟩ rfl
      hgeneration
  | cancel | attend | release => exact hf.moved_inPlace inPlace_refl rfl hgeneration
  | bypass m hm h => cases h <;> exact hf.moved_inPlace inPlace_refl rfl hgeneration
  | renew worker paused g h =>
    obtain ⟨hchain, hid, hboundaries⟩ := hf.toChain.renewal h
    exact hf.renewed hchain hid hboundaries (h.work_eq ▸ Nat.lt_succ_self _)
  | replace worker g h =>
    obtain ⟨hchain, hid, hboundaries⟩ := hf.toChain.replacement h
    exact hf.renewed hchain hid hboundaries (h.work_eq ▸ Nat.lt_succ_self _)
  | renewContinued worker f₁ f₂ g c _ h hsent hsuccessor hconsumed =>
    exact hf.continued (hf.toChain.renewal h) hsent hsuccessor hconsumed
  | replaceContinued worker f₁ f₂ g c _ h hsent hsuccessor hconsumed =>
    exact hf.continued (hf.toChain.replacement h) hsent hsuccessor hconsumed
  | reply a c g ha _ _ hconsumed =>
    have hg := inPlace_consumption hconsumed
    refine (hf.inPlace hg hgeneration).inPlace ⟨rfl, rfl, rfl, rfl, rfl, kept_withAttempt
      (sameAttempt_inState _) ?_, rfl⟩ (Nat.le_refl _)
    rw [hg.length_attempts]
    exact hf.latest_number ha
  | _ => exact hf.inPlace ⟨rfl, rfl, rfl, rfl, rfl, kept_same, rfl⟩ hgeneration

theorem sealedFor_file {n : NewWork} {world : World} {packet : Option AttachmentPacket}
    (h : n.packet world = .ok packet) (runtime : Option RuntimeId) :
    SealedFor (n.file packet runtime) packet := by
  unfold NewWork.packet at h
  unfold SealedFor NewWork.file
  cases hattachment : n.attachment with
  | none =>
    rw [hattachment] at h
    exact (Except.ok.inj h).symm
  | some attachment =>
    obtain ⟨id, identity⟩ := attachment
    rw [hattachment] at h
    dsimp only at h
    cases hcurrent : world.attachmentSeal id with
    | error e =>
      rw [hcurrent] at h
      cases h
    | ok current =>
      rw [hcurrent] at h
      exact ⟨identity, rfl, current.1, current.2, (Except.ok.inj h).symm⟩

/-- A new Work starts its history. -/
theorem chain_file {n : NewWork} {world : World} {packet : Option AttachmentPacket}
    (h : n.packet world = .ok packet) (runtime : Option RuntimeId) :
    Chain (n.file packet runtime) where
  versions := rfl
  goals := by
    intro goal hgoal
    obtain rfl : goal = n.goal packet := List.mem_singleton.mp hgoal
    unfold NewWork.goal
    refine sealed_goalRevision (f := n.file packet runtime) ?_ (sealedFor_file h runtime)
    rfl
  numbers := rfl
  started := fun hnil => by cases hnil
  ended := by
    intro a ha hne
    obtain rfl : a = attemptOn n.id (n.goal packet) 1 n.assignment.workerId runtime .assigned :=
      List.mem_singleton.mp ha
    exact absurd rfl hne
  bound := by
    intro a ha
    obtain rfl : a = attemptOn n.id (n.goal packet) 1 n.assignment.workerId runtime .assigned :=
      List.mem_singleton.mp ha
    exact ⟨n.goal packet, List.mem_singleton.mpr rfl, rfl, rfl, rfl⟩
  boundaryIds := by simp [NewWork.file]

theorem history_file {n : NewWork} {world : World} {packet : Option AttachmentPacket}
    (h : n.packet world = .ok packet) (runtime : Option RuntimeId) :
    History (n.file packet runtime) where
  toChain := chain_file h runtime
  recorded := by simp [NewWork.file]

/-- **Every Work of every reachable store has a history.** -/
theorem history_of_reachable {s : Store} (hs : Supervision.system.Reachable s) :
    Store.Files History s :=
  Supervision.files_of_reachable (.of_writes (fun _ _ hf ⟨_, _, h⟩ => hf.write h)
    fun _ _ _ runtime h => history_file h runtime) hs

/-! ## Renewed authority

An operation that renews the authority of a Work does so under a greater
generation, unless it only answers again what it answered before. -/

theorem Messaged.length_attempts (h : Messaged f g) :
    g.attempts.length = f.attempts.length := by
  cases h <;> rfl

/-- **A new Attempt is under a greater generation.** -/
theorem Write.renewed {k : WriteKind} (h : Write f k g) :
    g.attempts.length = f.attempts.length ∨ f.work.generation < g.work.generation := by
  cases h with
  | message g h => exact .inl h.length_attempts
  | acknowledge | handover => exact .inl (Rows.length_update _ _ _)
  | finish => exact .inl (Rows.length_update _ _ _)
  | renew _ _ g h => exact .inr (h.work_eq ▸ Nat.lt_succ_self _)
  | replace _ g h => exact .inr (h.work_eq ▸ Nat.lt_succ_self _)
  | renewContinued _ _ _ g c _ _ _ hgeneration hconsumed
  | replaceContinued _ _ _ g c _ _ _ hgeneration hconsumed =>
    rw [hconsumed.work_eq]
    exact .inr (hgeneration ▸ Nat.lt_succ_self _)
  | reply a c g _ _ _ hconsumed =>
    cases hconsumed
    exact .inl (Rows.length_update _ _ _)
  | _ => exact .inl rfl

theorem renewed_of_writes {kinds : List WriteKind}
    (h : Relation.ReflTransGen (Writes kinds) f g) :
    g.attempts.length = f.attempts.length ∨ f.work.generation < g.work.generation := by
  induction h with
  | refl => exact .inl rfl
  | @tail b c hpre hlast ih =>
    obtain ⟨_, _, hw⟩ := hlast
    have hle := hw.generation_le
    have hpre := generation_le_of_writes hpre
    rcases hw.renewed with hsame | hless
    · rcases ih with ih | ih
      · exact .inl (hsame.trans ih)
      · exact .inr (Nat.lt_of_lt_of_le ih hle)
    · exact .inr (Nat.lt_of_le_of_lt hpre hless)

theorem grown_of_writes {kinds : List WriteKind} {α : Type} {f₀ : WorkFile} {m : FileTx α}
    (h : Makes (Writes kinds) f m) (hless : f₀.work.generation < f.work.generation) :
    Ensures f m fun _ g => f₀.work.generation < g.work.generation :=
  wp_mono h (fun _ _ hrun => Nat.lt_of_lt_of_le hless (generation_le_of_writes hrun)) fun _ h => h

theorem grown_retryAttempt (env : Env) (actorId : PrincipalId) {previous : Attempt}
    (hprevious : previous ∈ f.attempts) (reason : String) (worker : Option PrincipalId)
    (paused : Bool) (action : MessageAction) :
    Ensures f (retryAttempt env actorId previous reason worker paused action)
      fun _ g => f.work.generation < g.work.generation :=
  Ensures.mono (wp_retryAttempt env actorId hprevious reason worker paused action)
    fun _ _ h => h.2.2 ▸ Nat.lt_succ_self _

theorem grown_sealRetry (env : Env) (actor : Actor) {previous : Attempt} (b : Boundary)
    (hprevious : previous ∈ f.attempts) (r : RetryInput) :
    Ensures f (sealRetry env actor previous b r)
      fun _ g => f.work.generation < g.work.generation := by
  unfold sealRetry insertTurn insertDisposition Ensures
  rw [wp_bind, wp_get, wp_bind, wp_newId, wp_bind, wp_newId, wp_bind, Tx.wp_statement]
  refine ⟨fun _ => ?_, fun _ => trivial⟩
  rw [wp_bind, Tx.wp_statement]
  refine ⟨fun _ => ?_, fun _ => trivial⟩
  exact (grown_retryAttempt env _ (by exact hprevious) _ _ _ _).bind fun _ _ h => h

/-- A retry, or the answer to one that was made before. -/
theorem grown_createAttempt (env : Env) (actor : Actor) (r : RetryInput) :
    Ensures f (createAttempt env actor r)
      fun _ g => f.work.generation < g.work.generation ∨ g = f := by
  have hanswer : ∀ result : Except ServiceError Unit, Ensures f (Tx.check result)
      fun _ g => f.work.generation < g.work.generation ∨ g = f := fun result => by
    unfold Ensures
    rw [Tx.wp_check]
    exact ⟨fun _ _ => .inr rfl, fun _ _ => trivial⟩
  unfold createAttempt
  refine (reads_enter env actor).bind fun _ _ => ?_
  split
  · exact hanswer _
  · refine .get (.need fun previous hprevious => .require fun _ => ?_)
    have hprevious := mem_of_latestAttempt? hprevious
    split
    · next b hb =>
      exact .ite (fun _ => hanswer _) fun _ => reads_requireRetriable.bind fun _ _ =>
        .require fun _ => ensures_after_check fun _ _ => .require fun _ =>
        (grown_sealRetry env actor b hprevious r).mono fun _ _ h => .inl h
    · refine reads_requireRetriable.bind fun _ _ => ensures_after_check fun _ _ =>
        .require fun _ => Ensures.bind (makes_recordBoundaryTx_mem env _ _ _) fun b g hg => ?_
      have hattempts := (hg.2.2 rfl).2
      refine (grown_sealRetry env actor b (hattempts ▸ hprevious) r).mono fun _ _ h => .inl ?_
      rw [← hg.2.1]
      exact h

/-- The end of a pause, or the answer to one that was ended before. -/
theorem grown_resumeWork (env : Env) (actor : Actor) (r : WorkResumeInput) :
    Ensures f (resumeWork env actor r)
      fun _ g => f.work.generation < g.work.generation ∨ g = f := by
  unfold resumeWork
  refine ensures_after_check fun _ _ => (reads_enter env actor).bind fun _ _ => ?_
  split
  · unfold Ensures
    rw [Tx.wp_check]
    exact ⟨fun _ _ => .inr rfl, fun _ _ => trivial⟩
  · refine ensures_after_check fun _ _ => .get (.require fun _ => .require fun _ =>
      .need fun previous hprevious => ?_)
    have hlatest := mem_of_latestAttempt? (Option.filter_eq_some_iff.mp hprevious).1
    refine (grown_retryAttempt env _ hlatest _ _ _ _).bind fun a g hg => .get (.need fun m _ => ?_)
    unfold insertResumption Ensures
    rw [Tx.wp_statement]
    exact ⟨fun _ => .inl hg, fun _ => trivial⟩

/-- The interruption of a Work. -/
theorem grown_interruptTarget (w : WorkId) :
    Ensures f (interruptTarget w) fun _ g => f.work.generation < g.work.generation := by
  unfold interruptTarget
  refine (reads_requireLive _).bind fun _ _ => .get (.require fun _ => ?_)
  unfold Ensures fenceReasonerTurns move
  rw [wp_bind, wp_abandonTurns, wp_bind, Tx.wp_statement]
  refine ⟨fun _ => ?_, fun _ => trivial⟩
  have hless : f.work.generation < (moved (.interrupt w) (abandon (fun _ => true) f)).work.generation :=
    Nat.lt_succ_self _
  split
  · exact Ensures.ite (fun _ => hless) fun _ => hless
  · exact hless

/-- The notice of a cancellation leaves the Work. -/
theorem work_of_cancelAttempt (env : Env) (actorId : PrincipalId) (goalVersion : ℕ)
    (reason : String) (directive : Option DirectiveId) (latest : Option Attempt) :
    Ensures f (cancelAttempt env actorId goalVersion reason directive latest)
      fun _ g => g.work = f.work := by
  unfold cancelAttempt
  split
  · exact rfl
  · unfold Ensures setAttemptState
    rw [wp_bind, wp_modify, wp_when]
    refine ⟨fun _ => ?_, fun _ => rfl⟩
    rw [wp_bind]
    exact wp_mono (wp_message env _) (fun _ _ h => h.2.work_eq) fun _ _ => trivial

/-- The cancellation of a Work that had not ended. -/
theorem grown_cancelWork (env : Env) (actorId : PrincipalId) (reason : String)
    (directive : Option DirectiveId) (hlive : f.work.state.terminal = false) :
    Ensures f (cancelWork env actorId reason directive)
      fun _ g => f.work.generation < g.work.generation := by
  unfold cancelWork
  refine .get (.require fun _ => .ite (fun hcanceled => ?_) fun _ => ?_)
  · rw [hcanceled] at hlive
    cases hlive
  · unfold Ensures fenceReasonerTurns move
    rw [wp_bind, wp_abandonTurns, wp_bind, Tx.wp_statement]
    refine ⟨fun _ => ?_, fun _ => trivial⟩
    refine (work_of_cancelAttempt env _ _ _ _ _).bind fun _ g hg => .get ?_
    refine grown_of_writes (makes_supersedeBoundaries _ _) ?_
    rw [hg]
    exact Nat.lt_succ_self _

/-- The return to a Work that was interrupted; it is put off while no command
can reach its Worker. -/
theorem grown_resumeInterruptedTarget (env : Env) (w : WorkId) (actorId : PrincipalId) :
    Ensures f (resumeInterruptedTarget env w actorId) fun _ g =>
      f.work.generation < g.work.generation ∨
        g.work = f.work ∧ g.goals = f.goals ∧ g.attempts = f.attempts := by
  unfold resumeInterruptedTarget
  refine .get (.ite (fun _ => ?_) fun _ => .inr ⟨rfl, rfl, rfl⟩)
  unfold Ensures fenceReasonerTurns
  rw [wp_bind, wp_abandonTurns]
  have hless : f.work.generation <
      (moved .resume (abandon (fun _ => true) f)).work.generation := Nat.lt_succ_self _
  cases hlatest : f.latestAttempt? with
  | none =>
    show wp (move .resume) _ _ _
    unfold move
    rw [Tx.wp_statement]
    exact ⟨fun _ => .inl hless, fun _ => trivial⟩
  | some a =>
    dsimp only
    split
    · exact .inr ⟨rfl, rfl, rfl⟩
    · exact trivial
    · refine Ensures.ite (fun _ => ?_) fun _ => ?_
      · refine Ensures.bind (grown_retryAttempt env actorId (by exact mem_of_latestAttempt? hlatest)
          _ _ _ _) fun _ g hg => ?_
        unfold Ensures move
        rw [Tx.wp_statement]
        exact ⟨fun _ => .inl hg, fun _ => trivial⟩
      · unfold move setAttemptState Ensures
        rw [wp_bind, Tx.wp_statement]
        refine ⟨fun _ => ?_, fun _ => trivial⟩
        rw [wp_bind, wp_when]
        have hnotice : ∀ r (h : WorkFile), h.work.generation = f.work.generation + 1 →
            wp (do let _ ← message env r) (fun _ g => f.work.generation < g.work.generation ∨
              g.work = f.work ∧ g.goals = f.goals ∧ g.attempts = f.attempts) (fun _ => True) h := by
          intro r h hh
          have hgrown : Ensures h (do let _ ← message env r)
              fun _ g => f.work.generation < g.work.generation :=
            grown_of_writes (makes_notice (S := commands) (by decide) env r)
              (hh ▸ Nat.lt_succ_self _)
          exact hgrown.mono fun _ _ h => .inl h
        exact ⟨fun _ => hnotice _ _ rfl, fun _ => hnotice _ _ rfl⟩

end WorkFile

namespace Store

open WorkFile Tx

/-- The operations that renew the authority of a Work: the interruption and the
return from it, another goal, another Attempt, the end of a pause, the
cancellation. -/
def Part.Renews : Part → Prop
  | .interrupt _ | .resume _ _ => True
  | .call c =>
    match c with
    | .replaceGoal .. | .createAttempt .. | .resumeWork .. | .cancelWork .. => True
    | _ => False
  | .recoverExpired _ => False

/-- The operations that answer again what they answered before, or that may be
put off. -/
def Part.Repeats : Part → Prop
  | .resume _ _ => True
  | .call c =>
    match c with
    | .createAttempt .. | .resumeWork .. => True
    | _ => False
  | .interrupt _ | .recoverExpired _ => False

/-- **An operation that renews the authority of a Work raises its generation**,
unless it is repeated and changes nothing. -/
theorem Part.renews {p : Part} (hp : p.Renews) (env : Env) {f : WorkFile} :
    Ensures f (p.run env) fun _ g => f.work.generation < g.work.generation ∨
      p.Repeats ∧ g.work = f.work ∧ g.goals = f.goals ∧ g.attempts = f.attempts := by
  have hrepeat : ∀ {m : FileTx PUnit}, p.Repeats →
      Ensures f m (fun _ g => f.work.generation < g.work.generation ∨ g = f) →
      Ensures f m fun _ g => f.work.generation < g.work.generation ∨
        p.Repeats ∧ g.work = f.work ∧ g.goals = f.goals ∧ g.attempts = f.attempts :=
    fun hr h => h.mono fun _ _ hg => hg.imp_right fun hsame => ⟨hr, by rw [hsame]; simp⟩
  cases p with
  | interrupt w => exact (grown_interruptTarget w).mono fun _ _ h => .inl h
  | resume w actorId =>
    exact (grown_resumeInterruptedTarget env w actorId).mono fun _ _ h =>
      h.imp_right fun hsame => ⟨trivial, hsame⟩
  | recoverExpired t => exact hp.elim
  | call c =>
    cases c with
    | createAttempt actor r => exact hrepeat trivial (grown_createAttempt env actor r)
    | resumeWork actor r => exact hrepeat trivial (grown_resumeWork env actor r)
    | replaceGoal actor r reason directive intent receipt purpose =>
      exact (reads_enter env actor).bind fun _ _ => (reads_requireLive _).bind fun _ _ =>
        (ensures_replaceGoal env actor.id r reason directive intent receipt purpose).mono
          fun _ _ h => .inl h.2
    | cancelWork actor reason directive =>
      exact (reads_enter env actor).bind fun _ _ => (reads_requireLive _).bind fun _ hlive =>
        (grown_cancelWork env actor.id reason directive hlive).mono fun _ _ h => .inl h
    | _ => exact hp.elim

end Store

namespace Supervision

/-- **The goals, the Attempts and the generations of every Work are chains.** -/
structure Chained (s : Store) : Prop where
  versions : ∀ f ∈ s.files, f.goals.map (·.version) = countdown f.work.goalVersion
  goals : ∀ f ∈ s.files, ∀ goal ∈ f.goals,
    goal.priorVersion = WorkFile.priorVersion goal.version ∧ goal.packet = f.rebuiltPacket goal ∧
      goal.packetDigest = .goalPacket (f.rebuiltPacket goal)
  attempts : ∀ f ∈ s.files, f.attempts.map (·.number) = countdown f.attempts.length ∧
    ∀ a ∈ f.attempts, a.number ≠ f.attempts.length → a.state.terminal = true
  bound : ∀ f ∈ s.files, ∀ a ∈ f.attempts, ∃ goal ∈ f.goals,
    goal.version = a.goalVersion ∧ a.goalPacketDigest = goal.packetDigest
  generations : ∀ t s', system.step s t s' → ∀ f ∈ s.files, ∃ g ∈ s'.files, g.id = f.id ∧
    f.work.generation ≤ g.work.generation ∧
      (g.attempts.length = f.attempts.length ∨ f.work.generation < g.work.generation)
  renewals : ∀ f ∈ s.files, ∀ env (p : Store.Part) g, p.Renews → p.run env f = .ok (⟨⟩, g) →
    f.work.generation < g.work.generation ∨
      p.Repeats ∧ g.work = f.work ∧ g.goals = f.goals ∧ g.attempts = f.attempts
  rejected : ∀ t s' e, system.step s t s' → t.run s = .error e → s' = s

/-- **The history of every Work is a chain**, in every reachable store. -/
theorem history_chained {s : Store} (hs : system.Reachable s) : Chained s := by
  have hhistory := (WorkFile.history_of_reachable hs).holds
  refine ⟨fun f hf => (hhistory f hf).versions, fun f hf goal hgoal => ?_, fun f hf =>
    ⟨(hhistory f hf).numbers, (hhistory f hf).ended⟩, fun f hf a ha => ?_, fun t s' hstep f hf => ?_,
    fun f _ env p g hp hrun => (Store.Part.renews hp env).run hrun, fun t s' e hstep herror => ?_⟩
  · have hsealed := (hhistory f hf).goals goal hgoal
    exact ⟨hsealed.prior, hsealed.packet, hsealed.digest⟩
  · obtain ⟨goal, hgoal, hversion, hdigest, -⟩ := (hhistory f hf).bound a ha
    exact ⟨goal, hgoal, hversion, hdigest⟩
  · obtain ⟨g, hg, hid, hrun⟩ := (evolves_of_step hs hstep).file f hf
    exact ⟨g, hg, hid, WorkFile.generation_le_of_writes hrun, WorkFile.renewed_of_writes hrun⟩
  · obtain rfl : Tx.commit t.run s = s' := hstep
    unfold Tx.commit
    rw [herror]

/-- A Work gets another goal, is interrupted by a second Work and goes on when that is
canceled. -/
theorem history_chained_interrupted :
    Chained (after
      [opened 1, called 1 (.replaceGoal sampleActor sampleAssignment "" 3 none none none),
        .createWork (willing 0) (sampleWork 2) (some (1, willing 0)),
        called 2 (.cancelWork sampleActor "" none)]) :=
  history_chained (reachable_after _)

end Supervision
