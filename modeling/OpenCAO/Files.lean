import OpenCAO.Programs

/-!
# Files of a store

What is true of every file is kept by a transaction on the store when the
parts of the transaction keep it, each on its own file. A *part* is a
program on one file; a guard says under which condition a part is taken
to be run, so that an assertion can be proved of the runs that avoid a
known defect.
-/

open WorkFile Tx

namespace Store

/-- **A part of a transaction**: what it runs on one file. -/
inductive Part where
  | call (call : Call)
  | interrupt (interrupter : WorkId)
  | resume (completed : WorkId) (resumer : PrincipalId)
  | recoverExpired (turn : ReasonerTurn)
  deriving DecidableEq, Repr

/-- What a part does. -/
def Part.run (env : Env) : Part → FileTx PUnit
  | .call c => c.run env
  | .interrupt w => interruptTarget w
  | .resume w p => resumeInterruptedTarget env w p
  | .recoverExpired t => recoverExpiredTurn env t

theorem makes_expired (env : Env) (t : ReasonerTurn) {f : WorkFile} :
    Makes (Writes everything) f (recoverExpiredTurn env t) :=
  makes_mono (by decide) (makes_recoverExpiredTurn env t)

/-- **Every part is made of writes.** -/
theorem Part.makes (p : Part) (env : Env) {f : WorkFile} :
    Makes (Writes everything) f (p.run env) := by
  cases p with
  | call c => exact c.makes env
  | interrupt w => exact makes_mono (by decide) (makes_interruptTarget w)
  | resume w p => exact makes_mono (by decide) (makes_resumeInterruptedTarget env w p)
  | recoverExpired t => exact makes_expired env t

/-- **Every file satisfies the assertion**, and no two are of one Work. -/
structure Files (I : WorkFile → Prop) (s : Store) : Prop where
  ids : (s.files.map (·.id)).Nodup
  holds : ∀ f ∈ s.files, I f

variable {I : WorkFile → Prop} {s : Store}

theorem mem_of_file? {w : WorkId} {f : WorkFile} (h : s.file? w = some f) :
    f ∈ s.files ∧ f.id = w := by
  unfold file? at h
  exact ⟨List.mem_of_find?_eq_some h, by simpa using List.find?_some h⟩

theorem Files.file? (hs : Files I s) {f : WorkFile} (hf : f ∈ s.files) :
    s.file? f.id = some f := Rows.find?_key hs.ids hf

theorem ids_put {w : WorkId} {f : WorkFile} (hid : f.id = w) :
    (s.put w f).files.map (·.id) = s.files.map (·.id) := by
  unfold Store.put
  refine Rows.map_update (fun g hg => ?_) s.files
  rw [hid]
  exact (by simpa using hg : g.id = w).symm

theorem Files.put (hs : Files I s) {w : WorkId} {f : WorkFile} (hid : f.id = w) (hf : I f) :
    Files I (s.put w f) where
  ids := by
    rw [ids_put hid]
    exact hs.ids
  holds := by
    intro g hg
    obtain ⟨g₀, hg₀, rfl⟩ := Rows.mem_update.mp hg
    split
    · exact hf
    · exact hs.holds g₀ hg₀

theorem Files.cons (hs : Files I s) {f : WorkFile} (hf : I f)
    (hid : ∀ g ∈ s.files, g.id ≠ f.id) : Files I ⟨f :: s.files⟩ where
  ids := by
    rw [List.map_cons, List.nodup_cons]
    refine ⟨fun hmem => ?_, hs.ids⟩
    obtain ⟨g, hg, he⟩ := List.mem_map.mp hmem
    exact hid g hg he
  holds := by
    intro g hg
    rcases List.mem_cons.mp hg with rfl | hg
    · exact hf
    · exact hs.holds g hg

/-- What a transaction on one file does to the store. -/
theorem wp_onFile {α : Type} {w : WorkId} {world : World} {m : Env → FileTx α}
    {Q : α → Store → Prop} {E : Failure → Prop} :
    wp (onFile w world m) Q E s ↔
      (∀ f, s.file? w = some f → wp (m (s.env w world)) (fun a g => Q a (s.put w g)) E f) ∧
        (s.file? w = none → E (.service (.notFound "work item"))) := by
  unfold onFile
  rw [wp_bind, wp_get, wp_bind, wp_need]
  refine and_congr (forall_congr' fun f => imp_congr_right fun _ => ?_) Iff.rfl
  unfold wp
  cases m (s.env w world) f with
  | ok r => exact Iff.rfl
  | error e => exact Iff.rfl

theorem makes_id {α : Type} {m : FileTx α} {f : WorkFile} (h : Makes (Writes everything) f m) :
    wp m (fun _ g => g.id = f.id) (fun _ => True) f := by
  refine wp_mono h (fun _ g hg => ?_) fun _ h => h
  induction hg with
  | refl => rfl
  | tail _ hlast ih =>
    obtain ⟨_, _, hw⟩ := hlast
    exact hw.id_eq.trans ih

/-- A transaction on one file opens and closes no other. -/
theorem ids_onFile {α : Type} {w : WorkId} {world : World} {m : Env → FileTx α}
    (hm : ∀ env f, Makes (Writes everything) f (m env)) :
    wp (Store.onFile w world m) (fun _ s' => s'.files.map (·.id) = s.files.map (·.id))
      (fun _ => True) s := by
  rw [wp_onFile]
  refine ⟨fun f hf => ?_, fun _ => trivial⟩
  exact wp_mono (makes_id (hm (s.env w world) f))
    (fun _ g hid => ids_put (hid.trans (mem_of_file? hf).2)) fun _ _ => trivial

/-- **A transaction on one file keeps what is true of every file** if it
keeps it of that one. -/
theorem Files.onFile {α : Type} (hs : Files I s) {w : WorkId} {world : World}
    {m : Env → FileTx α} (hm : ∀ env f, Makes (Writes everything) f (m env))
    (h : ∀ f, s.file? w = some f → wp (m (s.env w world)) (fun _ => I) (fun _ => True) f) :
    wp (Store.onFile w world m) (fun _ => Files I) (fun _ => True) s := by
  rw [wp_onFile]
  refine ⟨fun f hf => ?_, fun _ => trivial⟩
  have hid := makes_id (hm (s.env w world) f)
  have hkept := h f hf
  unfold wp at *
  cases hrun : m (s.env w world) f with
  | ok r =>
    rw [hrun] at hid hkept
    exact hs.put (hid.trans (mem_of_file? hf).2) hkept
  | error e => trivial

/-! ## What becomes of a file -/

/-- **Every file is still there**, with what was written to it since. -/
structure Evolves (s s' : Store) : Prop where
  ids : (s'.files.map (·.id)).Nodup
  file : ∀ f ∈ s.files, ∃ g ∈ s'.files, g.id = f.id ∧
    Relation.ReflTransGen (Writes everything) f g

theorem Evolves.refl (hs : (s.files.map (·.id)).Nodup) : Evolves s s :=
  ⟨hs, fun f hf => ⟨f, hf, rfl, .refl⟩⟩

theorem Evolves.trans {s₁ s₂ s₃ : Store} (h₁ : Evolves s₁ s₂) (h₂ : Evolves s₂ s₃) :
    Evolves s₁ s₃ := by
  refine ⟨h₂.ids, fun f hf => ?_⟩
  obtain ⟨g, hg, hid, hrun⟩ := h₁.file f hf
  obtain ⟨g', hg', hid', hrun'⟩ := h₂.file g hg
  exact ⟨g', hg', hid'.trans hid, hrun.trans hrun'⟩

theorem evolves_onFile {α : Type} (hs : (s.files.map (·.id)).Nodup) {w : WorkId} {world : World}
    {m : Env → FileTx α} (hm : ∀ env f, Makes (Writes everything) f (m env)) :
    wp (onFile w world m) (fun _ s' => Evolves s s') (fun _ => True) s := by
  rw [wp_onFile]
  refine ⟨fun f hf => ?_, fun _ => trivial⟩
  have hmem := mem_of_file? hf
  refine wp_mono (wp_and (hm (s.env w world) f) (makes_id (hm (s.env w world) f)))
    (fun _ g hg => ?_) fun _ _ => trivial
  obtain ⟨hrun, hid⟩ := hg
  have hfiles : Files (fun _ => True) s := ⟨hs, fun _ _ => trivial⟩
  refine ⟨(hfiles.put (hid.trans hmem.2) trivial).ids, fun f' hf' => ?_⟩
  by_cases hw : f'.id = w
  · have hsame : f' = f := Rows.eq_of_key hs hf' hmem.1 (hw.trans hmem.2.symm)
    rw [hsame]
    exact ⟨g, Rows.mem_update_of hmem.1 (by simpa using hmem.2), hid, hrun⟩
  · exact ⟨f', Rows.mem_update_of_not hf' (by simpa using hw), rfl, .refl⟩

theorem evolves_cons (hs : (s.files.map (·.id)).Nodup) {f : WorkFile}
    (hid : ∀ g ∈ s.files, g.id ≠ f.id) : Evolves s ⟨f :: s.files⟩ := by
  have hfiles : Files (fun _ => True) s := ⟨hs, fun _ _ => trivial⟩
  exact ⟨(hfiles.cons (f := f) trivial hid).ids,
    fun g hg => ⟨g, List.mem_cons_of_mem _ hg, rfl, .refl⟩⟩

/-- **Every transaction only writes to the files.** -/
theorem evolves_transaction (hs : (s.files.map (·.id)).Nodup) (t : Transaction) :
    wp t.run (fun _ s' => Evolves s s') (fun _ => True) s := by
  cases t with
  | createWork world n interrupts =>
    show wp (Store.createWork world n interrupts) _ _ s
    unfold Store.createWork
    rw [wp_bind]
    refine wp_mono (Q := fun _ s' => Evolves s s') (E := fun _ => True) ?_ (fun _ s' hs' => ?_)
      fun _ h => h
    · unfold Store.interrupt
      cases interrupts with
      | none => exact .refl hs
      | some i => exact evolves_onFile hs fun env f => Part.makes (.interrupt n.id) env
    · rw [wp_bind, wp_get, wp_bind, wp_require]
      refine ⟨fun hfresh => ?_, fun _ => trivial⟩
      rw [wp_bind, Tx.wp_check]
      refine ⟨fun admission _ => ?_, fun _ _ => trivial⟩
      rw [wp_bind, Tx.wp_check]
      refine ⟨fun packet _ => ?_, fun _ _ => trivial⟩
      rw [wp_bind, wp_set]
      have hcons := hs'.trans (evolves_cons hs'.ids
        (f := n.file packet admission.runtimeSessionId) hfresh)
      exact wp_mono (evolves_onFile hcons.ids fun env f => makes_notice (by decide) env _)
        (fun _ _ h => hcons.trans h) fun _ h => h
  | call w world c there resumer =>
    show wp (Store.call w world c there resumer) _ _ s
    unfold Store.call
    rw [wp_bind, wp_get, wp_bind]
    refine wp_mono (evolves_onFile hs fun env f => c.makes env) (fun _ s' hs' => ?_) fun _ h => h
    rw [wp_bind, wp_get, wp_ite]
    refine ⟨fun _ => ?_, fun _ => hs'⟩
    split
    · exact wp_mono (evolves_onFile hs'.ids fun env f => Part.makes (.resume w resumer) env)
        (fun _ _ h => hs'.trans h) fun _ h => h
    · exact hs'
  | recoverExpiredReasonerTurns world =>
    show wp (Store.recoverExpiredReasonerTurns world) _ _ s
    unfold Store.recoverExpiredReasonerTurns
    rw [wp_bind, wp_get]
    refine wp_each _ (fun t _ s' hs' => ?_) (Evolves.refl hs)
    exact wp_mono (evolves_onFile hs'.ids fun env f => makes_expired env t.2)
      (fun _ _ h => hs'.trans h) fun _ h => h

/-! ## What holds of every file -/

/-- The condition under which the parts of a transaction are taken to be
run, on what they find in their files and elsewhere. -/
def Guarded (G : World → Part → WorkFile → Prop) (s : Store) : Transaction → Prop
  | .createWork _ n interrupts => ∀ i ∈ interrupts, ∀ f, s.file? i.1 = some f →
      G i.2 (.interrupt n.id) f
  | .call w world c there resumer => (∀ f, s.file? w = some f → G world (.call c) f) ∧
      ∀ f ∈ s.files, f.work.suspendedByWorkItemId = some w → G there (.resume w resumer) f
  | .recoverExpiredReasonerTurns _ => True

/-- **The parts of transactions keep the assertion** where they are guarded,
and a new file satisfies it. -/
structure PartsKeep (G : World → Part → WorkFile → Prop) (I : WorkFile → Prop) : Prop where
  part : ∀ env p f, (∀ t, p ≠ .recoverExpired t) → I f → G env.toWorld p f →
    wp (p.run env) (fun _ => I) (fun _ => True) f
  expired : ∀ env t, Keeps I (recoverExpiredTurn env t)
  assign : ∀ env n, Keeps I (message env (NewWork.assignmentMessage n))
  new : ∀ n world packet runtime, NewWork.packet n world = .ok packet →
    I (NewWork.file n packet runtime)

variable {G : World → Part → WorkFile → Prop}

/-- **What every write keeps, every part keeps.** -/
theorem PartsKeep.of_writes (h : ∀ f g, I f → Writes everything f g → I g)
    (hnew : ∀ n world packet runtime, NewWork.packet n world = .ok packet →
      I (NewWork.file n packet runtime)) :
    PartsKeep (fun _ _ _ => True) I where
  part env p f _ hf _ := Keeps.of_makes h (fun _ => p.makes env) f hf
  expired env t := .of_makes h fun _ => makes_expired env t
  assign env n := .of_makes h fun _ => makes_message (by decide) env _
  new := hnew

theorem mem_put {w : WorkId} {f : WorkFile} (hf : f ∈ s.files ∧ f.id = w) (g : WorkFile) :
    g ∈ (s.put w g).files := Rows.mem_update_of hf.1 (by simpa using hf.2)

/-- A Work that waits for another is found where it was before the other
ended. -/
theorem interrupted?_put {w : WorkId} {g target : WorkFile}
    (hended : g.work.state.terminal = true)
    (h : (s.put w g).interrupted? w = some target) :
    target ∈ s.files ∧ target.id ≠ w ∧ target.work.suspendedByWorkItemId = some w := by
  have hp : target.work.state = .suspended ∧ target.work.suspendedByWorkItemId = some w := by
    simpa using List.find?_some h
  obtain ⟨g₀, hg₀, htarget⟩ := Rows.mem_update.mp (List.mem_of_find?_eq_some h)
  by_cases hw : g₀.id = w
  · rw [if_pos (by simpa using hw)] at htarget
    rw [htarget, hp.1] at hended
    cases hended
  · rw [if_neg (by simpa using hw)] at htarget
    exact ⟨htarget ▸ hg₀, htarget ▸ hw, hp.2⟩

/-- **What every part keeps, every transaction keeps.** -/
theorem PartsKeep.transaction (h : PartsKeep G I) (t : Transaction) (hs : Files I s)
    (ht : Guarded G s t) : wp t.run (fun _ => Files I) (fun _ => True) s := by
  cases t with
  | createWork world n interrupts =>
    show wp (Store.createWork world n interrupts) _ _ s
    unfold Store.createWork
    rw [wp_bind]
    refine wp_mono (Q := fun _ => Files I) (E := fun _ => True) ?_ (fun _ s' hs' => ?_) fun _ h => h
    · unfold Store.interrupt
      cases interrupts with
      | none => exact hs
      | some i =>
        refine hs.onFile (fun env f => Part.makes (.interrupt n.id) env) fun f hf => ?_
        exact h.part (s.env i.1 i.2) (.interrupt n.id) f (by simp) (hs.holds f (mem_of_file? hf).1)
          (ht i rfl f hf)
    · rw [wp_bind, wp_get, wp_bind, wp_require]
      refine ⟨fun hfresh => ?_, fun _ => trivial⟩
      rw [wp_bind, Tx.wp_check]
      refine ⟨fun admission _ => ?_, fun _ _ => trivial⟩
      rw [wp_bind, Tx.wp_check]
      refine ⟨fun packet hpacket => ?_, fun _ _ => trivial⟩
      rw [wp_bind, wp_set]
      have hcons : Files I ⟨n.file packet admission.runtimeSessionId :: s'.files⟩ :=
        hs'.cons (h.new _ _ _ _ hpacket) hfresh
      refine hcons.onFile (fun env f => makes_notice (by decide) env _) fun f hf => ?_
      exact Keeps.bind (h.assign _ n) (fun _ => keeps_pure _) f
        (hcons.holds f (mem_of_file? hf).1)
  | call w world c there resumer =>
    show wp (Store.call w world c there resumer) _ _ s
    unfold Store.call
    rw [wp_bind, wp_get, wp_bind, wp_onFile]
    refine ⟨fun f hf => ?_, fun _ => trivial⟩
    have hkept := h.part (s.env w world) (.call c) f (by simp) (hs.holds f (mem_of_file? hf).1)
      (ht.1 f hf)
    refine wp_mono (wp_and hkept (makes_id (c.makes (s.env w world)))) (fun _ g hg => ?_)
      fun _ _ => trivial
    have hid : g.id = w := hg.2.trans (mem_of_file? hf).2
    have hs' : Files I (s.put w g) := hs.put hid hg.1
    rw [wp_bind, wp_get, wp_ite]
    refine ⟨fun hended => ?_, fun _ => hs'⟩
    split
    · next target htarget =>
      have hg' : (s.put w g).file? w = some g := hid ▸ hs'.file? (mem_put (mem_of_file? hf) g)
      have hend : g.work.state.terminal = true := by simpa [hg'] using hended.2.2
      obtain ⟨hmem, hne, hsuspended⟩ := interrupted?_put hend htarget
      refine hs'.onFile (fun env f => Part.makes (.resume w resumer) env) fun f' hf' => ?_
      have hfound := hs'.file? (List.mem_of_find?_eq_some htarget)
      obtain rfl : target = f' := Option.some.inj (hfound.symm.trans hf')
      exact h.part _ (.resume w resumer) target (by simp)
        (hs'.holds target (List.mem_of_find?_eq_some htarget)) (ht.2 target hmem hsuspended)
    · exact hs'
  | recoverExpiredReasonerTurns world =>
    show wp (Store.recoverExpiredReasonerTurns world) _ _ s
    unfold Store.recoverExpiredReasonerTurns
    rw [wp_bind, wp_get]
    refine wp_each _ (fun t _ s' hs' => ?_) hs
    exact hs'.onFile (fun env f => makes_expired env t.2)
      fun f hf => h.expired _ t.2 f (hs'.holds f (mem_of_file? hf).1)

/-! ## What becomes of one file -/

/-- The parts that a transaction runs on a Work. -/
def Touches (s : Store) (w : WorkId) : Transaction → World → Part → Prop
  | .createWork _ n interrupts, world, p =>
      ∃ i ∈ interrupts, i.1 = w ∧ i.2 = world ∧ p = .interrupt n.id
  | .call v there c elsewhere resumer, world, p =>
      (v = w ∧ world = there ∧ p = .call c) ∨ (v ≠ w ∧ world = elsewhere ∧ p = .resume v resumer)
  | .recoverExpiredReasonerTurns now, world, p =>
      ∃ t, (w, t) ∈ s.expiredTurns now.now ∧ world = now ∧ p = .recoverExpired t

/-- The file is in the store, which has one file for a Work. -/
def Has (s : Store) (f : WorkFile) : Prop := (s.files.map (·.id)).Nodup ∧ f ∈ s.files

theorem has_onFile_other {α : Type} {f : WorkFile} (hf : Has s f) {w : WorkId} (hw : f.id ≠ w)
    {world : World} {m : Env → FileTx α} (hm : ∀ env f, Makes (Writes everything) f (m env)) :
    wp (onFile w world m) (fun _ s' => Has s' f) (fun _ => True) s := by
  rw [wp_onFile]
  refine ⟨fun f' hf' => ?_, fun _ => trivial⟩
  refine wp_mono (makes_id (hm (s.env w world) f')) (fun _ g hid => ?_) fun _ _ => trivial
  have hfiles : Files (fun _ => True) s := ⟨hf.1, fun _ _ => trivial⟩
  exact ⟨(hfiles.put (hid.trans (mem_of_file? hf').2) trivial).ids,
    Rows.mem_update_of_not hf.2 (by simpa using hw)⟩

theorem has_onFile {α : Type} {P : WorkFile → Prop} {f : WorkFile} (hf : Has s f)
    {world : World} {m : Env → FileTx α} (hm : ∀ env f, Makes (Writes everything) f (m env))
    (h : wp (m (s.env f.id world)) (fun _ => P) (fun _ => True) f) :
    wp (onFile f.id world m) (fun _ s' => ∃ g, Has s' g ∧ g.id = f.id ∧ P g)
      (fun _ => True) s := by
  have hfiles : Files (fun _ => True) s := ⟨hf.1, fun _ _ => trivial⟩
  rw [wp_onFile]
  refine ⟨fun f' hf' => ?_, fun _ => trivial⟩
  obtain rfl : f = f' := Option.some.inj ((hfiles.file? hf.2).symm.trans hf')
  refine wp_mono (wp_and h (makes_id (hm (s.env f.id world) f))) (fun _ g hg => ?_)
    fun _ _ => trivial
  exact ⟨g, ⟨(hfiles.put hg.2 trivial).ids, mem_put ⟨hf.2, rfl⟩ g⟩, hg.2, hg.1⟩

/-- **What a transaction does to one file** is what its part on that file does;
the scan for expired turns is taken not to look at it. -/
theorem has_transaction {P : WorkFile → Prop} {f : WorkFile} (hf : Has s f) (hP : P f)
    (t : Transaction)
    (h : ∀ env p, Touches s f.id t env.toWorld p → (∀ u, p ≠ .recoverExpired u) ∧
      wp (p.run env) (fun _ => P) (fun _ => True) f) :
    wp t.run (fun _ s' => ∃ g, Has s' g ∧ g.id = f.id ∧ P g) (fun _ => True) s := by
  cases t with
  | createWork world n interrupts =>
    show wp (Store.createWork world n interrupts) _ _ s
    unfold Store.createWork
    rw [wp_bind]
    refine wp_mono (Q := fun _ s' => ∃ g, Has s' g ∧ g.id = f.id ∧ P g) (E := fun _ => True) ?_
      (fun _ s' hs' => ?_) fun _ h => h
    · unfold Store.interrupt
      cases interrupts with
      | none => exact ⟨f, hf, rfl, hP⟩
      | some i =>
        by_cases hi : f.id = i.1
        · dsimp only
          rw [← hi]
          exact has_onFile hf (fun env f => Part.makes (.interrupt n.id) env)
            (h (s.env f.id i.2) (.interrupt n.id) ⟨i, rfl, hi.symm, rfl, rfl⟩).2
        · exact wp_mono (has_onFile_other hf hi fun env f => Part.makes (.interrupt n.id) env)
            (fun _ _ hs' => ⟨f, hs', rfl, hP⟩) fun _ h => h
    · obtain ⟨g, hg, hid, hPg⟩ := hs'
      rw [wp_bind, wp_get, wp_bind, wp_require]
      refine ⟨fun hfresh => ?_, fun _ => trivial⟩
      rw [wp_bind, Tx.wp_check]
      refine ⟨fun admission _ => ?_, fun _ _ => trivial⟩
      rw [wp_bind, Tx.wp_check]
      refine ⟨fun packet _ => ?_, fun _ _ => trivial⟩
      rw [wp_bind, wp_set]
      have hfiles : Files (fun _ => True) s' := ⟨hg.1, fun _ _ => trivial⟩
      have hcons : Has ⟨n.file packet admission.runtimeSessionId :: s'.files⟩ g :=
        ⟨(hfiles.cons trivial hfresh).ids, List.mem_cons_of_mem _ hg.2⟩
      exact wp_mono (has_onFile_other hcons (hfresh g hg.2)
        fun env f => makes_notice (by decide) env _) (fun _ _ hs' => ⟨g, hs', hid, hPg⟩)
        fun _ h => h
  | call w world c there resumer =>
    show wp (Store.call w world c there resumer) _ _ s
    unfold Store.call
    rw [wp_bind, wp_get, wp_bind]
    by_cases hw : f.id = w
    · -- The other part of the transaction is about another Work.
      rw [← hw]
      refine wp_mono (has_onFile hf (fun env f => c.makes env)
        (h (s.env f.id world) (.call c) (.inl ⟨hw.symm, rfl, rfl⟩)).2) (fun _ s' hs' => ?_)
        fun _ h => h
      obtain ⟨g, hg, hid, hPg⟩ := hs'
      rw [wp_bind, wp_get, wp_ite]
      refine ⟨fun hended => ?_, fun _ => ⟨g, hg, hid, hPg⟩⟩
      split
      · next target htarget =>
        have hfiles : Files (fun _ => True) s' := ⟨hg.1, fun _ _ => trivial⟩
        have hg' : s'.file? f.id = some g := hid ▸ hfiles.file? hg.2
        have hend : g.work.state.terminal = true := by simpa [hg'] using hended.2.2
        have htarget' : target.work.state = .suspended := by
          have := List.find?_some htarget
          simp only [decide_eq_true_eq] at this
          exact this.1
        have hne : g.id ≠ target.id := by
          intro hsame
          obtain rfl : g = target :=
            Rows.eq_of_key hg.1 hg.2 (List.mem_of_find?_eq_some htarget) hsame
          rw [htarget'] at hend
          cases hend
        exact wp_mono (has_onFile_other hg hne
          fun env _ => Part.makes (.resume f.id resumer) env)
          (fun _ _ hs' => ⟨g, hs', hid, hPg⟩) fun _ h => h
      · exact ⟨g, hg, hid, hPg⟩
    · refine wp_mono (has_onFile_other hf hw fun env f => c.makes env) (fun _ s' hs' => ?_)
        fun _ h => h
      rw [wp_bind, wp_get, wp_ite]
      refine ⟨fun _ => ?_, fun _ => ⟨f, hs', rfl, hP⟩⟩
      split
      · next target htarget =>
        by_cases hsame : f.id = target.id
        · rw [← hsame]
          exact has_onFile hs' (fun env f => Part.makes (.resume w resumer) env)
            (h (s'.env f.id there) (.resume w resumer) (.inr ⟨Ne.symm hw, rfl, rfl⟩)).2
        · exact wp_mono (has_onFile_other hs' hsame
            fun env f => Part.makes (.resume w resumer) env)
            (fun _ _ hs' => ⟨f, hs', rfl, hP⟩) fun _ h => h
      · exact ⟨f, hs', rfl, hP⟩
  | recoverExpiredReasonerTurns world =>
    show wp (Store.recoverExpiredReasonerTurns world) _ _ s
    unfold Store.recoverExpiredReasonerTurns
    rw [wp_bind, wp_get]
    refine wp_mono (wp_each (I := fun s' => Has s' f) _ (fun t ht s' hs' => ?_) hf)
      (fun _ _ hs' => ⟨f, hs', rfl, hP⟩) fun _ h => h
    have hne : f.id ≠ t.1 := fun heq => (h (s.env f.id world) (.recoverExpired t.2)
      ⟨t.2, by rw [heq]; exact ht, rfl, rfl⟩).1 t.2 rfl
    exact has_onFile_other hs' hne fun env f => makes_expired env t.2

/-- **What the scan for expired turns does to one file**: what the recovery of a
turn keeps, the scan keeps. -/
theorem has_scan {P : WorkFile → Prop} {f : WorkFile} (hf : Has s f) (hP : P f) (world : World)
    (h : ∀ env t, Keeps P (recoverExpiredTurn env t)) :
    wp (Transaction.recoverExpiredReasonerTurns world).run
      (fun _ s' => ∃ g, Has s' g ∧ g.id = f.id ∧ P g) (fun _ => True) s := by
  show wp (Store.recoverExpiredReasonerTurns world) _ _ s
  unfold Store.recoverExpiredReasonerTurns
  rw [wp_bind, wp_get]
  refine wp_each (I := fun s' => ∃ g, Has s' g ∧ g.id = f.id ∧ P g) _ (fun t _ s' hs' => ?_)
    ⟨f, hf, rfl, hP⟩
  obtain ⟨g, hg, hid, hPg⟩ := hs'
  by_cases hsame : g.id = t.1
  · rw [← hsame]
    refine wp_mono (has_onFile hg (fun env f => makes_expired env t.2) (h _ t.2 g hPg))
      (fun _ s' hs' => ?_) fun _ h => h
    obtain ⟨g', hg', hid', hPg'⟩ := hs'
    exact ⟨g', hg', hid'.trans hid, hPg'⟩
  · exact wp_mono (has_onFile_other hg hsame fun env f => makes_expired env t.2)
      (fun _ _ hs' => ⟨g, hs', hid, hPg⟩) fun _ h => h

end Store

/-- **An assertion that every guarded part keeps holds of every file of every
store that the guarded runs reach.** -/
theorem Supervision.files_of_guarded {G : World → Store.Part → WorkFile → Prop} {I : WorkFile → Prop}
    (h : Store.PartsKeep G I) {s : Store}
    (hs : (Supervision.system.restrict (Store.Guarded G)).Reachable s) : Store.Files I s := by
  refine hs.invariant (I := Store.Files I) (fun s₀ h₀ => ?_) fun s₁ t s₂ _ hI hstep => ?_
  · have hnil : s₀.files = [] := h₀
    exact ⟨by simp [hnil], by simp [hnil]⟩
  · obtain ⟨hguard, hcommit⟩ := hstep
    obtain rfl : Tx.commit t.run s₁ = s₂ := hcommit
    exact Tx.commit_of_wp hI (h.transaction t hI hguard)

/-- **An assertion that every part keeps holds of every file of every reachable
store.** -/
theorem Supervision.files_of_reachable {I : WorkFile → Prop}
    (h : Store.PartsKeep (fun _ _ _ => True) I) {s : Store}
    (hs : Supervision.system.Reachable s) : Store.Files I s := by
  refine hs.invariant (I := Store.Files I) (fun s₀ h₀ => ?_) fun s₁ t s₂ _ hI hstep => ?_
  · have hnil : s₀.files = [] := h₀
    exact ⟨by simp [hnil], by simp [hnil]⟩
  · obtain rfl : Tx.commit t.run s₁ = s₂ := hstep
    refine Tx.commit_of_wp hI (h.transaction t hI ?_)
    cases t with
    | createWork => exact fun _ _ _ _ => trivial
    | call => exact ⟨fun _ _ => trivial, fun _ _ _ => trivial⟩
    | recoverExpiredReasonerTurns => trivial

/-- **A step only writes to the files.** -/
theorem Supervision.evolves_of_step {s s' : Store} (hs : Supervision.system.Reachable s)
    {t : Transaction} (h : Supervision.system.step s t s') : Store.Evolves s s' := by
  have hids : (s.files.map (·.id)).Nodup := by
    refine (Supervision.files_of_reachable (I := fun _ => True) ?_ hs).ids
    exact .of_writes (fun _ _ _ _ => trivial) fun _ _ _ _ _ => trivial
  obtain rfl : Tx.commit t.run s = s' := h
  exact Tx.commit_of_wp (I := Store.Evolves s) (.refl hids) (Store.evolves_transaction hids t)
