import OpenCAO.MemoryImport
import OpenCAO.MemoryHistory

/-!
# The rehearsal of an import

A dry run of an import prepares every entry. What then may go wrong in earnest is
what the tables see and the preparation does not: a text that begins, after blanks,
with NUL or not at all, since `length(trim(…))` is `0` there; a half of a surrogate
pair, which cannot be encoded; and two entries with one identifier, whose memories
would be one. `import_rehearsed` says that nothing else goes wrong.

An import that succeeds is described in two directions. What can be written is
written (`importEntries_of`), to the row; and whatever was written met the
constraints (`Grown`), and found the memories that were there to be its own
(`importEntries_knows`).
-/

namespace Memories

variable {h : Hooks} {s t : Store} {c : ImportCall} {entry : SourceRow} {p : Prepared}

/-! ## What preparing says of the texts -/

theorem of_bind {ε α β : Type} {x : Except ε α} {f : α → Except ε β} {b : β}
    (hb : (x >>= f) = .ok b) : ∃ a, x = .ok a ∧ f a = .ok b := by
  cases x with
  | error e => cases hb
  | ok a => exact ⟨a, rfl, hb⟩

theorem of_check {d : Prop} [Decidable d] {e : Error} {u : Unit} (hd : check d e = .ok u) : d := by
  unfold check at hd
  split at hd
  · assumption
  · cases hd

/-- A list is mapped one by one. -/
theorem forall₂_of_mapM {ε α β : Type} {f : α → Except ε β} {as : List α} {bs : List β}
    (hm : as.mapM f = .ok bs) : List.Forall₂ (fun a b => f a = .ok b) as bs := by
  induction as generalizing bs with
  | nil =>
    rw [List.mapM_nil] at hm
    rw [← Except.ok.inj hm]
    exact .nil
  | cons a as ih =>
    rw [List.mapM_cons] at hm
    obtain ⟨b, hb, hm⟩ := of_bind hm
    obtain ⟨bs', hbs, hm⟩ := of_bind hm
    rw [← Except.ok.inj hm]
    exact .cons hb (ih hbs)

/-- What is stored of a value starts with a brace. -/
theorem legacyValue_head {row : Row} {episode : Option Row} {value : Text}
    (hv : legacyValue h row episode = .ok value) : value.head? = some 0x7b := by
  unfold legacyValue at hv
  obtain ⟨refs, -, hv⟩ := of_bind hv
  obtain ⟨refs', -, hv⟩ := of_bind hv
  obtain ⟨_, -, hv⟩ := of_bind hv
  rw [← Except.ok.inj hv]
  rfl

/-- **The bounds that a prepared revision meets.** -/
structure Version.Bounded (v : Version) : Prop where
  primary : v.primary.length ≤ 512
  value : v.value.length ≤ 64000
  head : v.value.head? = some 0x7b
  cues : ∀ text ∈ v.cues, text.length ≤ 256

theorem bounded_of_prepareRevision {row : Row} {episode : Option Row} {cues : Value} {v : Version}
    (hv : prepareRevision h row episode cues = .ok v) : v.Bounded := by
  unfold prepareRevision at hv
  obtain ⟨source, -, hv⟩ := of_bind hv
  obtain ⟨value, -, hv⟩ := of_bind hv
  obtain ⟨_, hprimary, hv⟩ := of_bind hv
  obtain ⟨legacy, hlegacy, hv⟩ := of_bind hv
  obtain ⟨_, hvalue, hv⟩ := of_bind hv
  obtain ⟨_, -, hv⟩ := of_bind hv
  obtain ⟨texts, -, hv⟩ := of_bind hv
  obtain ⟨prepared, hprepared, hv⟩ := of_bind hv
  rw [← Except.ok.inj hv]
  refine ⟨(of_check hprimary).2.1, of_check hvalue, legacyValue_head hlegacy, fun text ht => ?_⟩
  obtain ⟨cue, hcue⟩ : ∃ cue, prepareCue h cue = .ok text := by
    have := forall₂_of_mapM hprepared
    obtain ⟨i, hi, rfl⟩ := List.mem_iff_getElem.mp ht
    have hbound : i < texts.length := this.length_eq ▸ hi
    exact ⟨texts[i], (List.forall₂_iff_get.mp this).2 i hbound hi⟩
  unfold prepareCue at hcue
  obtain ⟨_, hbounds, hcue⟩ := of_bind hcue
  obtain ⟨_, -, hcue⟩ := of_bind hcue
  rw [← Except.ok.inj hcue]
  exact (of_check hbounds).2

/-- The constraints on a prepared revision come to one: that the primary begins, after blanks,
with a code point that is not NUL. -/
theorem Version.Bounded.texts_iff {v : Version} (hv : v.Bounded) :
    RevisionTexts v.primary v.value ↔ v.primary.Begins := by
  rw [← Text.sqlLength_sqlTrim_pos]
  unfold RevisionTexts
  have hvalue : 0 < v.value.sqlTrim.sqlLength := by
    rw [Text.sqlLength_sqlTrim_pos]
    obtain ⟨u, hu⟩ : ∃ u, v.value = 0x7b :: u := by
      cases hvalue : v.value with
      | nil =>
        have := hv.head
        rw [hvalue] at this
        cases this
      | cons d u =>
        have := hv.head
        rw [hvalue] at this
        exact ⟨u, congrArg (· :: u) (Option.some.inj this)⟩
    rw [hu]
    exact ⟨0x7b, rfl, by decide⟩
  exact ⟨fun h => h.1, fun h => ⟨h, (Text.sqlLength_le _).trans hv.primary, hvalue,
    (Text.sqlLength_le _).trans hv.value⟩⟩

/-! ## The cues that are kept -/

theorem mem_foldl_retain {offers kept : List RetainedCue} {q : RetainedCue} :
    q ∈ offers.foldl retain kept ↔ q ∈ kept ∨ ∃ before after, offers = before ++ q :: after ∧
      ∀ r ∈ kept ++ before, r.normalized ≠ q.normalized := by
  induction offers generalizing kept with
  | nil => simp
  | cons o offers ih =>
    rw [List.foldl_cons, ih]
    unfold retain
    by_cases ho : kept.any (·.normalized = o.normalized) = true
    · -- the first offer is not kept, so a later one is the first of its own form
      rw [if_pos ho]
      obtain ⟨r, hr, hro⟩ := List.any_eq_true.mp ho
      have hro : r.normalized = o.normalized := of_decide_eq_true hro
      constructor
      · rintro (hq | ⟨before, after, rfl, hfirst⟩)
        · exact .inl hq
        · refine .inr ⟨o :: before, after, rfl, fun x hx => ?_⟩
          rw [List.mem_append, List.mem_cons] at hx
          rcases hx with hx | rfl | hx
          · exact hfirst x (List.mem_append_left _ hx)
          · rw [← hro]
            exact hfirst r (List.mem_append_left _ hr)
          · exact hfirst x (List.mem_append_right _ hx)
      · rintro (hq | ⟨before, after, heq, hfirst⟩)
        · exact .inl hq
        · cases before with
          | nil =>
            obtain ⟨rfl, -⟩ := List.cons.inj heq
            exact absurd hro (hfirst r (List.mem_append_left _ hr))
          | cons b before =>
            obtain ⟨rfl, rfl⟩ := List.cons.inj heq
            refine .inr ⟨before, after, rfl, fun x hx => hfirst x ?_⟩
            rw [List.mem_append] at hx ⊢
            exact hx.imp_right (List.mem_cons_of_mem _)
    · rw [if_neg ho]
      have hnew : ∀ r ∈ kept, r.normalized ≠ o.normalized := fun r hr hro =>
        ho (List.any_eq_true.mpr ⟨r, hr, decide_eq_true hro⟩)
      constructor
      · rintro (hq | ⟨before, after, rfl, hfirst⟩)
        · rw [List.mem_append, List.mem_singleton] at hq
          rcases hq with hq | rfl
          · exact .inl hq
          · exact .inr ⟨[], offers, rfl, fun x hx => hnew x (by simpa using hx)⟩
        · refine .inr ⟨o :: before, after, rfl, fun x hx => hfirst x ?_⟩
          rw [List.append_assoc]
          exact hx
      · rintro (hq | ⟨before, after, heq, hfirst⟩)
        · exact .inl (List.mem_append_left _ hq)
        · cases before with
          | nil =>
            obtain ⟨rfl, -⟩ := List.cons.inj heq
            exact .inl (List.mem_append_right _ (List.mem_singleton_self _))
          | cons b before =>
            obtain ⟨rfl, rfl⟩ := List.cons.inj heq
            refine .inr ⟨before, after, rfl, fun x hx => hfirst x ?_⟩
            rw [List.append_assoc] at hx
            exact hx

/-- No two cues that are kept have one normal form. -/
theorem nodup_foldl_retain {offers kept : List RetainedCue}
    (hkept : (kept.map RetainedCue.normalized).Nodup) :
    ((offers.foldl retain kept).map RetainedCue.normalized).Nodup := by
  induction offers generalizing kept with
  | nil => exact hkept
  | cons o offers ih =>
    rw [List.foldl_cons]
    refine ih ?_
    unfold retain
    split
    · exact hkept
    case isFalse hnew =>
      rw [List.map_append, List.map_singleton, List.nodup_append]
      refine ⟨hkept, List.nodup_singleton _, fun x hx y hy hxy => hnew ?_⟩
      obtain ⟨r, hr, rfl⟩ := List.mem_map.mp hx
      rw [List.mem_singleton] at hy
      exact List.any_eq_true.mpr ⟨r, hr, decide_eq_true (hxy.trans hy)⟩

theorem mem_offered {first : ℕ} {vs : List Version} {q : RetainedCue} :
    q ∈ offered h first vs ↔
      ∃ i, ∃ v ∈ vs[i]?, q.revision = first + i ∧ q ∈ v.retained h (first + i) := by
  induction vs generalizing first with
  | nil => simp [offered]
  | cons v vs ih =>
    unfold offered
    rw [List.mem_append, ih]
    constructor
    · rintro (hq | ⟨i, w, hw, hrevision, hq⟩)
      · refine ⟨0, v, rfl, ?_, hq⟩
        unfold Version.retained at hq
        obtain ⟨text, -, rfl⟩ := List.mem_map.mp hq
        rfl
      · refine ⟨i + 1, w, hw, ?_, ?_⟩
        · rw [hrevision]
          omega
        · rwa [show first + (i + 1) = first + 1 + i by omega]
    · rintro ⟨i, w, hw, hrevision, hq⟩
      cases i with
      | zero =>
        obtain rfl : v = w := Option.some.inj hw
        exact .inl hq
      | succ i =>
        refine .inr ⟨i, w, hw, ?_, ?_⟩
        · rw [hrevision]
          omega
        · rwa [show first + 1 + i = first + (i + 1) by omega]

/-- Cues are offered revision by revision. -/
theorem pairwise_offered (first : ℕ) (vs : List Version) :
    (offered h first vs).Pairwise fun q r => q.revision ≤ r.revision := by
  induction vs generalizing first with
  | nil => exact .nil
  | cons v vs ih =>
    unfold offered
    have hfirst : ∀ q ∈ v.retained h first, q.revision = first := fun q hq => by
      unfold Version.retained at hq
      obtain ⟨text, -, rfl⟩ := List.mem_map.mp hq
      rfl
    refine List.pairwise_append.mpr ⟨?_, ih (first + 1), fun q hq r hr => ?_⟩
    · exact List.pairwise_of_forall_mem_list fun q hq r hr => by rw [hfirst q hq, hfirst r hr]
    · obtain ⟨i, -, -, hrevision, -⟩ := mem_offered.mp hr
      rw [hfirst q hq, hrevision]
      omega

/-- **Every normal form that a revision carried is kept once, with the first revision that
carried it.** -/
def FirstCues (h : Hooks) (p : Prepared) : Prop :=
  (∀ q ∈ p.cues h, q ∈ offered h 1 p.versions ∧
    ∀ r ∈ offered h 1 p.versions, r.normalized = q.normalized → q.revision ≤ r.revision) ∧
  (∀ r ∈ offered h 1 p.versions, ∃ q ∈ p.cues h, q.normalized = r.normalized) ∧
  ((p.cues h).map RetainedCue.normalized).Nodup

theorem cues_first (p : Prepared) : FirstCues h p := by
  refine ⟨fun q hq => ?_, fun r hr => ?_, nodup_foldl_retain List.nodup_nil⟩
  · unfold Prepared.cues at hq
    obtain hq | ⟨before, after, hoffers, hfirst⟩ := mem_foldl_retain.mp hq
    · cases hq
    rw [hoffers]
    refine ⟨List.mem_append_right _ List.mem_cons_self, fun r hr hsame => ?_⟩
    rw [List.mem_append, List.mem_cons] at hr
    rcases hr with hr | rfl | hr
    · exact absurd hsame (hfirst r hr)
    · exact le_refl _
    · have := hoffers ▸ pairwise_offered (h := h) 1 p.versions
      exact (List.pairwise_cons.mp (List.pairwise_append.mp this).2.1).1 r hr
  · -- the first offer of this form
    obtain ⟨q, hq⟩ : ∃ q, (offered h 1 p.versions).find?
        (fun q => q.normalized = r.normalized) = some q :=
      Option.isSome_iff_exists.mp (List.find?_isSome.mpr ⟨r, hr, decide_eq_true rfl⟩)
    obtain ⟨hsame, before, after, hoffers, hbefore⟩ := List.find?_eq_some_iff_append.mp hq
    refine ⟨q, mem_foldl_retain.mpr (.inr ⟨before, after, hoffers, fun x hx hxq => ?_⟩),
      of_decide_eq_true hsame⟩
    have := hbefore x (by simpa using hx)
    rw [hxq, hsame] at this
    cases this

/-! ## What an import writes -/

/-- The revisions of an entry, after the first `n`. -/
def ImportCall.revisions (h : Hooks) (c : ImportCall) (entry : SourceRow) :
    ℕ → List Version → List RevisionRow
  | _, [] => []
  | n, v :: vs => c.revision h entry (n + 1) v :: c.revisions h entry (n + 1) vs

/-- The cues of an entry. -/
def ImportCall.cues (h : Hooks) (c : ImportCall) (entry : SourceRow) (p : Prepared) :
    List CueRow := (p.cues h).map (c.cue h entry)

/-- The texts of a version meet the constraints of the tables. -/
def Version.Storable (v : Version) : Prop :=
  (v.primary.encodable ∧ v.value.encodable) ∧ RevisionTexts v.primary v.value

/-- **The texts of an entry meet the constraints of the tables.** -/
structure Prepared.Storable (h : Hooks) (p : Prepared) : Prop where
  versions : ∀ v ∈ p.versions, v.Storable
  cues : ∀ q ∈ p.cues h, (⟨"", q.normalized, q.text, q.revision⟩ : CueRow).Storable

theorem Prepared.Storable.cueRows (hp : p.Storable h) : ∀ q ∈ c.cues h entry p, q.Storable := by
  intro q hq
  obtain ⟨r, hr, rfl⟩ := List.mem_map.mp hq
  exact hp.cues r hr

/-- **The store that imports start from and leave.** -/
structure Sound (h : Hooks) (s : Store) : Prop where
  linear : Linear s
  attached : Attached s
  /-- What was imported has the identifier of where it comes from. -/
  provenance : ∀ m ∈ s.memories.rows, ∀ source id, m.kind = .legacy source id →
    m.id = h.memoryId m.owner m.project source id
  cued : ∀ q ∈ s.cues.rows, ∃ m ∈ s.memories.rows, m.id = q.memory

/-- The destination of a call, which a CAO principal owns. -/
structure Ready (s : Store) (c : ImportCall) : Prop where
  role : c.actor ∈ s.world.caoPrincipals
  destination : s.Destination c

theorem Ready.of_world {t : Store} (hr : Ready s c) (hworld : t.world = s.world) : Ready t c := by
  obtain ⟨hrole, hdestination⟩ := hr
  unfold Store.Destination at hdestination
  rw [← hworld] at hrole hdestination
  exact ⟨hrole, hdestination⟩

/-- **The tables after the writes for an entry.** -/
structure Imported (h : Hooks) (c : ImportCall) (entry : SourceRow) (p : Prepared) (s t : Store) :
    Prop where
  memories : t.memories.rows = s.memories.rows ++ [c.memory h entry p p.versions.length]
  revisions : t.revisions.rows = s.revisions.rows ++ c.revisions h entry 0 p.versions
  cues : t.cues.rows = s.cues.rows ++ c.cues h entry p
  world : t.world = s.world

theorem kind_ne_curated : c.kind h entry ≠ .curated := fun hkind => by cases hkind

/-- A memory at another revision. -/
theorem advance_memory (n k : ℕ) :
    (c.memory h entry p n).advance (c.memoryId h entry) n k = c.memory h entry p k :=
  MemoryRow.advance_of rfl rfl

/-- **The revisions of a new memory** go in one after the other. -/
theorem importVersions_of {base : List MemoryRow} {vs : List Version} {n : ℕ}
    (hready : Ready s c) (hbase : ∀ m ∈ base, m.id ≠ c.memoryId h entry)
    (hmemories : s.memories.rows = base ++ [c.memory h entry p (max 1 n)])
    (hfree : ∀ r ∈ s.revisions.rows, r.memory = c.memoryId h entry → r.revision ≤ n)
    (hstorable : ∀ v ∈ vs, v.Storable) :
    ∃ t, importVersions h c entry n vs s = .ok (⟨⟩, t) ∧
      t.memories.rows = base ++ [c.memory h entry p (max 1 (n + vs.length))] ∧
      t.revisions.rows = s.revisions.rows ++ c.revisions h entry n vs ∧
      t.world = s.world ∧ t.cues = s.cues ∧ t.results = s.results := by
  induction vs generalizing s n with
  | nil => exact ⟨s, rfl, hmemories, (List.append_nil _).symm, rfl, rfl, rfl⟩
  | cons v vs ih =>
    rw [List.forall_mem_cons] at hstorable
    obtain ⟨a, ha, haid, haprincipal, haproject, -⟩ := hready.destination
    have hmemory : c.memory h entry p (max 1 n) ∈ s.memories.rows := by
      rw [hmemories]
      exact List.mem_append_right _ (List.mem_singleton_self _)
    have hbound : s.RevisionBound (c.revision h entry (n + 1) v) := by
      refine ⟨_, hmemory, a, ha, haid, rfl, rfl, haprincipal, haproject, .inl rfl, ?_,
        .inl ⟨kind_ne_curated, rfl⟩⟩
      show n + 1 = max 1 n + 1 ∨ n + 1 = 1 ∧ max 1 n = 1
      omega
    obtain ⟨revisions, hinsert, hrows⟩ := UniqueRows.exists_insert (t := s.revisions)
      (a := c.revision h entry (n + 1) v) fun r hr hclash => by
        have := hfree r hr (congrArg Prod.fst hclash)
        have hsame : r.revision = n + 1 := congrArg Prod.snd hclash
        omega
    set u : Store := { s with revisions := revisions } with hu
    have hinserted : insertRevision (c.revision h entry (n + 1) v) s = .ok (⟨⟩, u) :=
      insertRevision_of hstorable.1.1 hbound hstorable.1.2 hinsert
    -- the memory is moved on, except by its first revision
    obtain ⟨w, hupdate, hwmemories, hwrevisions, hwworld, hwcues, hwresults⟩ :
        ∃ w, Tx.when (1 < n + 1) (updateCurrentRevision (c.memoryId h entry) n (n + 1)) u =
            .ok (⟨⟩, w) ∧ w.memories.rows = base ++ [c.memory h entry p (max 1 (n + 1))] ∧
          w.revisions = u.revisions ∧ w.world = s.world ∧ w.cues = s.cues ∧
          w.results = s.results := by
      unfold Tx.when
      by_cases hn : 1 < n + 1
      · rw [if_pos hn]
        refine ⟨u.advanced (c.memoryId h entry) n (n + 1), ?_, ?_, rfl, rfl, rfl, rfl⟩
        · unfold updateCurrentRevision
          rw [Tx.run_bind (b := u) rfl, Tx.require_bind]
          · rfl
          · intro m _ hmid hcurrent
            refine ⟨by rw [hcurrent], c.revision h entry (n + 1) v, ?_, hmid.symm, rfl⟩
            show _ ∈ revisions.rows
            rw [hrows]
            exact List.mem_append_right _ (List.mem_singleton_self _)
        · show s.memories.rows.map _ = _
          have hkept : base.map (MemoryRow.advance (c.memoryId h entry) n (n + 1)) = base := by
            conv_rhs => rw [← List.map_id base]
            exact List.map_congr_left fun m hm => MemoryRow.advance_of_ne (hbase m hm)
          rw [hmemories, List.map_append, List.map_singleton, hkept,
            show max 1 n = n by omega, advance_memory, show max 1 (n + 1) = n + 1 by omega]
      · rw [if_neg hn]
        obtain rfl : n = 0 := by omega
        exact ⟨u, rfl, hmemories, rfl, rfl, rfl, rfl⟩
    obtain ⟨t, ht, htmemories, htrevisions, htworld, htcues, htresults⟩ :=
      ih (s := w) (n := n + 1) (hready.of_world hwworld) hwmemories (fun r hr hmemory => by
        rw [hwrevisions] at hr
        show r.revision ≤ n + 1
        have hr : r ∈ revisions.rows := hr
        rw [hrows, List.mem_append, List.mem_singleton] at hr
        rcases hr with hr | rfl
        · exact (hfree r hr hmemory).trans (Nat.le_succ n)
        · exact le_refl _) hstorable.2
    refine ⟨t, ?_, ?_, ?_, htworld.trans hwworld, htcues.trans hwcues, htresults.trans hwresults⟩
    · show (insertRevision _ >>= fun _ => _) s = _
      rw [Tx.run_bind hinserted, Tx.run_bind hupdate]
      exact ht
    · rw [htmemories, List.length_cons, show n + 1 + vs.length = n + (vs.length + 1) by omega]
    · rw [htrevisions, hwrevisions]
      show revisions.rows ++ _ = _
      rw [hrows, List.append_assoc]
      rfl

theorem mem_revisions {n : ℕ} {vs : List Version} {r : RevisionRow} :
    r ∈ c.revisions h entry n vs ↔ ∃ i, ∃ v ∈ vs[i]?, r = c.revision h entry (n + i + 1) v := by
  induction vs generalizing n with
  | nil => simp [ImportCall.revisions]
  | cons v vs ih =>
    unfold ImportCall.revisions
    rw [List.mem_cons, ih]
    constructor
    · rintro (rfl | ⟨i, w, hw, rfl⟩)
      · exact ⟨0, v, rfl, rfl⟩
      · exact ⟨i + 1, w, hw, by rw [show n + 1 + i + 1 = n + (i + 1) + 1 by omega]⟩
    · rintro ⟨i, w, hw, rfl⟩
      cases i with
      | zero =>
        obtain rfl : v = w := Option.some.inj hw
        exact .inl rfl
      | succ i => exact .inr ⟨i, w, hw, by rw [show n + 1 + i + 1 = n + (i + 1) + 1 by omega]⟩

/-- A revision with a number that the entry has is there. -/
theorem exists_revision {n k : ℕ} {vs : List Version} (hn : n < k) (hk : k ≤ n + vs.length) :
    ∃ r ∈ c.revisions h entry n vs, r.key = (c.memoryId h entry, k) := by
  have hi : k - n - 1 < vs.length := by omega
  refine ⟨_, mem_revisions.mpr ⟨k - n - 1, vs[k - n - 1], List.getElem?_eq_getElem hi, rfl⟩, ?_⟩
  show (c.memoryId h entry, n + (k - n - 1) + 1) = _
  rw [show n + (k - n - 1) + 1 = k by omega]

/-- Cues of new keys are added as they are. -/
theorem rows_foldl_addCue {qs : List CueRow} (cues : UniqueRows CueRow (SameKey CueRow.key))
    (hnodup : (qs.map CueRow.key).Nodup) (hnew : ∀ q ∈ qs, ∀ r ∈ cues.rows, r.key ≠ q.key) :
    (qs.foldl addCue cues).rows = cues.rows ++ qs := by
  induction qs generalizing cues with
  | nil => exact (List.append_nil _).symm
  | cons q qs ih =>
    rw [List.map_cons, List.nodup_cons] at hnodup
    rw [List.forall_mem_cons] at hnew
    obtain ⟨cues', hinsert, hrows⟩ := UniqueRows.exists_insert (t := cues) (a := q) hnew.1
    have hadd : addCue cues q = cues' := by
      unfold addCue
      rw [hinsert]
      rfl
    rw [List.foldl_cons, hadd, ih cues' hnodup.2, hrows, List.append_assoc]
    · rfl
    · intro q' hq' r hr
      rw [hrows, List.mem_append, List.mem_singleton] at hr
      rcases hr with hr | rfl
      · exact hnew.2 q' hq' r hr
      · exact fun hkey => hnodup.1 (hkey ▸ List.mem_map_of_mem hq')

/-- The memory of an entry clashes with nothing where its identifier is new. -/
theorem Sound.not_clash (hs : Sound h s) (hready : Ready s c)
    (hfresh : ∀ m ∈ s.memories.rows, m.id ≠ c.memoryId h entry) {n : ℕ} :
    ∀ m ∈ s.memories.rows, ¬ m.Clash (c.memory h entry p n) := by
  intro m hm hclash
  rcases hclash with hid | ⟨-, hkind, howner, horigin⟩
  · exact hfresh m hm hid
  · obtain ⟨a, ha, haid, -, haproject, -⟩ := hready.destination
    obtain ⟨b, hb, hbid, -, hbproject⟩ := hs.attached m hm
    obtain rfl : b = a := attachment_eq hb ha (hbid.trans (horigin.trans haid.symm))
    refine hfresh m hm ?_
    rw [hs.provenance m hm _ _ hkind, howner, hbproject.symm.trans haproject]
    rfl

/-- **A new entry whose texts can be stored is imported.** -/
theorem importPrepared_of (hs : Sound h s) (hready : Ready s c)
    (hfresh : ∀ m ∈ s.memories.rows, m.id ≠ c.memoryId h entry) (hversions : p.versions ≠ [])
    (hstorable : p.Storable h) :
    ∃ t, importPrepared h c entry p s = .ok (⟨⟩, t) ∧ Imported h c entry p s t := by
  obtain ⟨a, ha, haid, haprincipal, haproject, -⟩ := hready.destination
  obtain ⟨memories, hinsert, hmemories⟩ := UniqueRows.exists_insert (t := s.memories)
    (a := c.memory h entry p 1) (hs.not_clash hready hfresh)
  have hnone : ∀ r ∈ s.revisions.rows, r.memory ≠ c.memoryId h entry := fun r hr hmemory => by
    obtain ⟨m, hm, hid⟩ := hs.linear.owned r hr
    exact hfresh m hm (hid.trans hmemory)
  have hmemory : insertMemory (c.memory h entry p 1) s =
      .ok (⟨⟩, { s with memories := memories }) := by
    unfold insertMemory
    rw [Tx.run_bind (s := s) (b := s) rfl,
      Tx.require_bind ⟨rfl, a, ha, haid, haprincipal, hready.role, haproject⟩,
      Tx.require_bind fun hkind : (c.memory h entry p 1).kind = .curated =>
        absurd hkind kind_ne_curated, Tx.need_bind hinsert]
    rfl
  obtain ⟨t, ht, htmemories, htrevisions, htworld, htcues, -⟩ :=
    importVersions_of (s := { s with memories := memories }) (n := 0) (p := p)
      ⟨hready.role, hready.destination⟩ hfresh hmemories
      (fun r hr hmemory => absurd hmemory (hnone r hr)) hstorable.versions
  have hlength : max 1 (0 + p.versions.length) = p.versions.length := by
    have := List.length_pos_iff.mpr hversions
    omega
  have hcues : Tx.each insertCue (c.cues h entry p) t =
      .ok (⟨⟩, { t with cues := (c.cues h entry p).foldl addCue t.cues }) := by
    refine insertCues_of hstorable.cueRows fun q hq => ?_
    obtain ⟨r, hr, rfl⟩ := List.mem_map.mp hq
    obtain ⟨i, v, hv, hrevision, -⟩ := mem_offered.mp ((cues_first p).1 r hr).1
    obtain ⟨hi, -⟩ := List.getElem?_eq_some_iff.mp hv
    obtain ⟨x, hx, hkey⟩ : ∃ x ∈ c.revisions h entry 0 p.versions,
        x.key = (c.memoryId h entry, r.revision) := exists_revision (by omega) (by omega)
    rw [htrevisions]
    exact ⟨x, List.mem_append_right _ hx, hkey⟩
  refine ⟨{ t with cues := (c.cues h entry p).foldl addCue t.cues }, ?_, ?_, ?_, ?_, htworld⟩
  · unfold importPrepared
    rw [Tx.run_bind hmemory, Tx.run_bind ht]
    exact hcues
  · show t.memories.rows = _
    rw [htmemories, hlength]
  · exact htrevisions
  · show ((c.cues h entry p).foldl addCue t.cues).rows = _
    rw [htcues]
    refine rows_foldl_addCue _ ?_ fun q hq r hr hkey => ?_
    · unfold ImportCall.cues
      rw [List.map_map]
      refine List.Nodup.of_map Prod.snd ?_
      rw [List.map_map]
      exact (cues_first p).2.2
    · obtain ⟨m, hm, hid⟩ := hs.cued r hr
      obtain ⟨x, -, rfl⟩ := List.mem_map.mp hq
      exact hfresh m hm (hid.trans (congrArg Prod.fst hkey))

/-! ## What a successful import tells -/

theorem importVersions_storable (n : ℕ) (vs : List Version) (s : Store) :
    Tx.Ensures s (importVersions h c entry n vs) fun _ _ => ∀ v ∈ vs, v.Storable := by
  induction vs generalizing n s with
  | nil => exact List.forall_mem_nil _
  | cons v vs ih =>
    refine (insertRevision_ensures _).bind fun _ t ht => ?_
    refine .bind (P := fun _ _ => True) (Tx.wp_true fun _ _ => trivial) fun _ u _ => ?_
    exact (ih (n + 1) u).mono fun _ _ hvs => List.forall_mem_cons.mpr ⟨⟨ht.1, ht.2.2.1⟩, hvs⟩

theorem importPrepared_storable :
    Tx.Ensures s (importPrepared h c entry p) fun _ _ => p.Storable h := by
  unfold importPrepared
  refine .bind (P := fun _ _ => True) (Tx.wp_true fun _ _ => trivial) fun _ t _ => ?_
  refine (importVersions_storable 0 p.versions t).bind fun _ u hversions => ?_
  refine (insertCues_ensures _ u).mono fun _ _ hcues => ⟨hversions, fun q hq => ?_⟩
  exact hcues.1 (c.cue h entry q) (List.mem_map_of_mem hq)

/-- **An entry that was imported is in the tables.** -/
theorem importPrepared_ensures (hs : Sound h s) (hready : Ready s c)
    (hfresh : ∀ m ∈ s.memories.rows, m.id ≠ c.memoryId h entry) (hversions : p.versions ≠ []) :
    Tx.Ensures s (importPrepared h c entry p) fun _ t => Imported h c entry p s t :=
  .of_run fun a t hrun => by
    have hstorable : p.Storable h := (importPrepared_storable (c := c)).run hrun
    obtain ⟨u, hu, himported⟩ := importPrepared_of hs hready hfresh hversions hstorable
    rw [hu] at hrun
    obtain rfl : u = t := congrArg Prod.snd (Except.ok.inj hrun)
    exact himported

theorem map_revision_revisions (n : ℕ) (vs : List Version) :
    (c.revisions h entry n vs).map RevisionRow.revision = List.range' (n + 1) vs.length := by
  induction vs generalizing n with
  | nil => rfl
  | cons v vs ih =>
    show (n + 1) :: _ = _
    rw [ih (n + 1), List.length_cons, List.range'_succ]

/-- **Importing an entry keeps the store sound.** -/
theorem Sound.imported (hs : Sound h s) (hready : Ready s c)
    (hfresh : ∀ m ∈ s.memories.rows, m.id ≠ c.memoryId h entry) (hversions : p.versions ≠ [])
    (hi : Imported h c entry p s t) : Sound h t := by
  have hmemory : ∀ r ∈ c.revisions h entry 0 p.versions, r.memory = c.memoryId h entry := by
    intro r hr
    obtain ⟨i, v, -, rfl⟩ := mem_revisions.mp hr
    rfl
  have hhistory : ∀ id, t.history id = s.history id ++
      ((c.revisions h entry 0 p.versions).filter (·.memory = id)).map RevisionRow.revision := by
    intro id
    unfold Store.history
    rw [hi.revisions, List.filter_append, List.map_append]
  refine ⟨⟨fun m hm => ?_, fun m hm => ?_, fun r hr => ?_⟩, fun m hm => ?_, fun m hm => ?_,
    fun q hq => ?_⟩
  · rw [hi.memories, List.mem_append, List.mem_singleton] at hm
    rcases hm with hm | rfl
    · exact hs.linear.begun m hm
    · exact List.length_pos_iff.mpr hversions
  · rw [hi.memories, List.mem_append, List.mem_singleton] at hm
    rcases hm with hm | rfl
    · rw [hhistory, hs.linear.dense m hm, List.filter_eq_nil_iff.mpr, List.map_nil,
        List.append_nil]
      intro r hr hid
      exact hfresh m hm ((of_decide_eq_true hid).symm.trans (hmemory r hr))
    · show t.history (c.memoryId h entry) = _
      rw [hhistory, hs.linear.history_eq_nil hfresh, List.filter_eq_self.mpr fun r hr =>
        decide_eq_true (hmemory r hr), map_revision_revisions]
      rfl
  · rw [hi.memories]
    rw [hi.revisions, List.mem_append] at hr
    rcases hr with hr | hr
    · obtain ⟨m, hm, hid⟩ := hs.linear.owned r hr
      exact ⟨m, List.mem_append_left _ hm, hid⟩
    · exact ⟨_, List.mem_append_right _ (List.mem_singleton_self _), (hmemory r hr).symm⟩
  · rw [hi.world]
    rw [hi.memories, List.mem_append, List.mem_singleton] at hm
    rcases hm with hm | rfl
    · exact hs.attached m hm
    · obtain ⟨a, ha, haid, haprincipal, haproject, -⟩ := hready.destination
      exact ⟨a, ha, haid, haprincipal, haproject⟩
  · rw [hi.memories, List.mem_append, List.mem_singleton] at hm
    rcases hm with hm | rfl
    · exact hs.provenance m hm
    · intro source id hkind
      obtain ⟨rfl, rfl⟩ := Kind.legacy.inj hkind
      rfl
  · rw [hi.memories]
    rw [hi.cues, List.mem_append] at hq
    rcases hq with hq | hq
    · obtain ⟨m, hm, hid⟩ := hs.cued q hq
      exact ⟨m, List.mem_append_left _ hm, hid⟩
    · obtain ⟨r, -, rfl⟩ := List.mem_map.mp hq
      exact ⟨_, List.mem_append_right _ (List.mem_singleton_self _), rfl⟩

/-! ## What an import never does

Memories keep their identifier and provenance, and what is added to the other tables meets
their constraints. -/

/-- A store that grew from another. -/
structure Grown (s t : Store) : Prop where
  memories : ∀ m ∈ s.memories.rows, ∃ n ∈ t.memories.rows, n.id = m.id ∧ n.kind = m.kind
  revisions : ∀ r ∈ t.revisions.rows, r ∈ s.revisions.rows ∨
    (r.primary.encodable ∧ r.value.encodable) ∧ RevisionTexts r.primary r.value
  cues : ∀ q ∈ t.cues.rows, q ∈ s.cues.rows ∨ q.Storable

theorem Grown.refl (s : Store) : Grown s s :=
  ⟨fun m hm => ⟨m, hm, rfl, rfl⟩, fun _ => .inl, fun _ => .inl⟩

theorem keeps_insertMemory (m : MemoryRow) : Tx.Keeps (Grown s) (insertMemory m) := by
  intro t ht
  refine (insertMemory_ensures m).mono fun _ u hu => ?_
  obtain ⟨-, memories, hinsert, rfl⟩ := hu
  refine ⟨fun n hn => ?_, ht.revisions, ht.cues⟩
  obtain ⟨k, hk, hsame⟩ := ht.memories n hn
  exact ⟨k, UniqueRows.mem_insert_of_mem hinsert hk, hsame⟩

theorem keeps_insertRevision (r : RevisionRow) : Tx.Keeps (Grown s) (insertRevision r) := by
  intro t ht
  refine (insertRevision_ensures r).mono fun _ u hu => ?_
  obtain ⟨hencodable, -, htexts, revisions, hinsert, rfl⟩ := hu
  refine ⟨ht.memories, fun q hq => ?_, ht.cues⟩
  have hq : q ∈ revisions.rows := hq
  rw [UniqueRows.rows_insert hinsert, List.mem_append, List.mem_singleton] at hq
  rcases hq with hq | rfl
  · exact ht.revisions q hq
  · exact .inr ⟨hencodable, htexts⟩

theorem keeps_updateCurrentRevision (id : String) (expected revision : ℕ) :
    Tx.Keeps (Grown s) (updateCurrentRevision id expected revision) := by
  intro t ht
  refine (updateCurrentRevision_ensures id expected revision).mono fun _ u hu => ?_
  subst hu
  refine ⟨fun m hm => ?_, ht.revisions, ht.cues⟩
  obtain ⟨n, hn, hid, hkind⟩ := ht.memories m hm
  exact ⟨_, List.mem_map_of_mem hn, MemoryRow.advance_id.trans hid,
    MemoryRow.advance_kind.trans hkind⟩

theorem mem_addCue {cues : UniqueRows CueRow (SameKey CueRow.key)} {q r : CueRow}
    (hr : r ∈ (addCue cues q).rows) : r ∈ cues.rows ∨ r = q := by
  unfold addCue at hr
  cases hinsert : cues.insert q with
  | none =>
    rw [hinsert] at hr
    exact .inl hr
  | some cues' =>
    rw [hinsert] at hr
    have hr : r ∈ cues'.rows := hr
    rwa [UniqueRows.rows_insert hinsert, List.mem_append, List.mem_singleton] at hr

theorem mem_foldl_addCue {qs : List CueRow} {cues : UniqueRows CueRow (SameKey CueRow.key)}
    {r : CueRow} (hr : r ∈ (qs.foldl addCue cues).rows) : r ∈ cues.rows ∨ r ∈ qs := by
  induction qs generalizing cues with
  | nil => exact .inl hr
  | cons q qs ih =>
    rcases ih hr with hr | hr
    · exact (mem_addCue hr).imp_right fun hrq => List.mem_cons.mpr (.inl hrq)
    · exact .inr (List.mem_cons_of_mem _ hr)

theorem keeps_insertCue (q : CueRow) : Tx.Keeps (Grown s) (insertCue q) := by
  intro t ht
  refine (insertCue_ensures q).mono fun _ u hu => ?_
  obtain ⟨hstorable, rfl⟩ := hu
  refine ⟨ht.memories, ht.revisions, fun r hr => ?_⟩
  rcases mem_addCue hr with hr | rfl
  · exact ht.cues r hr
  · exact .inr hstorable

theorem keeps_importVersions (n : ℕ) (vs : List Version) :
    Tx.Keeps (Grown s) (importVersions h c entry n vs) := by
  induction vs generalizing n with
  | nil => exact Tx.keeps_pure _
  | cons v vs ih =>
    exact (keeps_insertRevision _).bind fun _ =>
      (Tx.Keeps.when fun _ => keeps_updateCurrentRevision _ _ _).bind fun _ => ih (n + 1)

theorem keeps_importPrepared : Tx.Keeps (Grown s) (importPrepared h c entry p) :=
  (keeps_insertMemory _).bind fun _ => (keeps_importVersions 0 _).bind fun _ =>
    .each fun q _ => keeps_insertCue q

theorem keeps_importEntries (prepared : List (SourceRow × Prepared)) (entries : List SourceRow)
    (report : Report) : Tx.Keeps (Grown s) (importEntries h c prepared entries report) := by
  induction entries generalizing report with
  | nil => exact Tx.keeps_pure _
  | cons entry entries ih =>
    rw [importEntries]
    refine .get fun u => ?_
    cases u.memories.find? fun m => m.id = c.memoryId h entry with
    | some existing => exact .require (ih _)
    | none => exact .need fun p => keeps_importPrepared.bind fun _ => ih _

/-! ## The loop over the entries -/

variable {all qs : List (SourceRow × Prepared)} {report : Report}

/-- The entries that have no memory yet. -/
def freshEntries (h : Hooks) (c : ImportCall) (s : Store) (qs : List (SourceRow × Prepared)) :
    List (SourceRow × Prepared) :=
  qs.filter fun e => ∀ m ∈ s.memories.rows, m.id ≠ c.memoryId h e.1

theorem mem_freshEntries {e : SourceRow × Prepared} :
    e ∈ freshEntries h c s qs ↔ e ∈ qs ∧ ∀ m ∈ s.memories.rows, m.id ≠ c.memoryId h e.1 := by
  unfold freshEntries
  rw [List.mem_filter, decide_eq_true_iff]

theorem freshEntries_cons {e : SourceRow × Prepared}
    (he : ∀ m ∈ s.memories.rows, m.id ≠ c.memoryId h e.1) :
    freshEntries h c s (e :: qs) = e :: freshEntries h c s qs :=
  List.filter_cons_of_pos (decide_eq_true he)

theorem freshEntries_cons_of_mem {e : SourceRow × Prepared} {m : MemoryRow}
    (hm : m ∈ s.memories.rows) (hid : m.id = c.memoryId h e.1) :
    freshEntries h c s (e :: qs) = freshEntries h c s qs :=
  List.filter_cons_of_neg fun he => of_decide_eq_true he m hm hid

/-- **What an import can write**: the entries that have no memory yet have different ones, their
texts meet the constraints of the tables, and the memories that are there are theirs. -/
structure Importable (h : Hooks) (c : ImportCall) (s : Store)
    (qs : List (SourceRow × Prepared)) : Prop where
  distinct : ((freshEntries h c s qs).map fun e => c.memoryId h e.1).Nodup
  storable : ∀ e ∈ freshEntries h c s qs, e.2.Storable h
  known : ∀ e ∈ qs, ∀ m ∈ s.memories.rows, m.id = c.memoryId h e.1 → m.kind = c.kind h e.1

/-- **Each entry that has no memory yet is written once**, its revisions in order and its
cues. -/
structure Written (h : Hooks) (c : ImportCall) (qs : List (SourceRow × Prepared))
    (s t : Store) : Prop where
  memories : t.memories.rows = s.memories.rows ++
    (freshEntries h c s qs).map fun e => c.memory h e.1 e.2 e.2.versions.length
  revisions : t.revisions.rows = s.revisions.rows ++
    (freshEntries h c s qs).flatMap fun e => c.revisions h e.1 0 e.2.versions
  cues : t.cues.rows = s.cues.rows ++ (freshEntries h c s qs).flatMap fun e => c.cues h e.1 e.2
  world : t.world = s.world

/-- The report after the entries. -/
def Report.after (report : Report) (imported alreadyImported : ℕ) : Report :=
  { report with
    imported := report.imported + imported
    alreadyImported := report.alreadyImported + alreadyImported }

/-- After its writes, an entry is no longer new; the others are what they were. -/
theorem freshEntries_imported {e : SourceRow × Prepared}
    (hdistinct : ∀ x ∈ freshEntries h c s qs, c.memoryId h x.1 ≠ c.memoryId h e.1)
    (hi : Imported h c e.1 e.2 s t) : freshEntries h c t qs = freshEntries h c s qs := by
  refine List.filter_congr fun x hx => decide_eq_decide.mpr ?_
  rw [hi.memories]
  constructor
  · exact fun hfresh m hm => hfresh m (List.mem_append_left _ hm)
  · intro hfresh m hm
    rw [List.mem_append, List.mem_singleton] at hm
    rcases hm with hm | rfl
    · exact hfresh m hm
    · exact fun hid => hdistinct x (mem_freshEntries.mpr ⟨hx, hfresh⟩) hid.symm

theorem Importable.imported {e : SourceRow × Prepared} (hc : Importable h c s (e :: qs))
    (he : ∀ m ∈ s.memories.rows, m.id ≠ c.memoryId h e.1)
    (hi : Imported h c e.1 e.2 s t) :
    Importable h c t qs ∧ freshEntries h c t qs = freshEntries h c s qs := by
  obtain ⟨hnodup, hstorable, hknown⟩ := hc
  rw [freshEntries_cons he, List.map_cons, List.nodup_cons] at hnodup
  have hdistinct : ∀ x ∈ freshEntries h c s qs, c.memoryId h x.1 ≠ c.memoryId h e.1 :=
    fun x hx hid => hnodup.1 (hid ▸ List.mem_map_of_mem (f := fun e => c.memoryId h e.1) hx)
  have hsame := freshEntries_imported hdistinct hi
  refine ⟨⟨hsame ▸ hnodup.2, fun x hx => ?_, fun x hx m hm hid => ?_⟩, hsame⟩
  · rw [hsame] at hx
    exact hstorable x (by rw [freshEntries_cons he]; exact List.mem_cons_of_mem _ hx)
  · rw [hi.memories, List.mem_append, List.mem_singleton] at hm
    rcases hm with hm | rfl
    · exact hknown x (List.mem_cons_of_mem _ hx) m hm hid
    · -- another entry of this identifier would be new as well
      have hnew : x ∈ freshEntries h c s qs :=
        mem_freshEntries.mpr ⟨hx, fun m hm hmid => he m hm (hmid.trans hid.symm)⟩
      exact absurd hid.symm (hdistinct x hnew)

theorem Ready.imported {e : SourceRow × Prepared} (hready : Ready s c)
    (hi : Imported h c e.1 e.2 s t) : Ready t c := hready.of_world hi.world

/-- The lookup of an entry, where it has no memory. -/
theorem find?_of_fresh (hfresh : ∀ m ∈ s.memories.rows, m.id ≠ c.memoryId h entry) :
    s.memories.find? (fun m => m.id = c.memoryId h entry) = none :=
  List.find?_eq_none.mpr fun m hm hid => hfresh m hm (of_decide_eq_true hid)

/-- The lookup of an entry, where it has one. -/
theorem find?_of_known {m : MemoryRow} (hm : m ∈ s.memories.rows)
    (hid : m.id = c.memoryId h entry) :
    s.memories.find? (fun m => m.id = c.memoryId h entry) = some m :=
  s.memories.find?_of_mem MemoryRow.clash_symm (fun a b ha hb =>
    .inl ((of_decide_eq_true ha : a.id = _).trans (of_decide_eq_true hb : b.id = _).symm)) hm
    (decide_eq_true hid)

/-- The loop at an entry that has a memory. -/
theorem importEntries_known {entries : List SourceRow} {m : MemoryRow}
    (hm : m ∈ s.memories.rows) (hid : m.id = c.memoryId h entry) :
    importEntries h c all (entry :: entries) report s =
      (Tx.require (m.kind = c.kind h entry) .conflict >>= fun _ =>
        importEntries h c all entries (report.after 0 1)) s := by
  rw [importEntries, Tx.run_bind (s := s) (b := s) rfl, find?_of_known hm hid]
  rfl

/-- The loop at an entry that has none. -/
theorem importEntries_fresh {entries : List SourceRow}
    (hfresh : ∀ m ∈ s.memories.rows, m.id ≠ c.memoryId h entry) :
    importEntries h c all (entry :: entries) report s =
      (Tx.need (preparedFor all entry.id.str) .notFound >>= fun p =>
        importPrepared h c entry p >>= fun _ =>
          importEntries h c all entries (report.after 1 0)) s := by
  rw [importEntries, Tx.run_bind (s := s) (b := s) rfl, find?_of_fresh hfresh]
  rfl

/-- **What can be written is written.** -/
theorem importEntries_of (report : Report) (hs : Sound h s) (hready : Ready s c)
    (hprepared : ∀ e ∈ freshEntries h c s qs, preparedFor all e.1.id.str = some e.2)
    (hversions : ∀ e ∈ qs, e.2.versions ≠ []) (hc : Importable h c s qs) :
    ∃ t imported known, importEntries h c all (qs.map Prod.fst) report s =
      .ok (report.after imported known, t) ∧ Written h c qs s t := by
  induction qs generalizing s report with
  | nil =>
    exact ⟨s, 0, 0, rfl, (List.append_nil _).symm, (List.append_nil _).symm,
      (List.append_nil _).symm, rfl⟩
  | cons e qs ih =>
    rw [List.forall_mem_cons] at hversions
    by_cases he : ∀ m ∈ s.memories.rows, m.id ≠ c.memoryId h e.1
    · have hp := hprepared e (by rw [freshEntries_cons he]; exact List.mem_cons_self)
      have hstorable := hc.storable e (by rw [freshEntries_cons he]; exact List.mem_cons_self)
      obtain ⟨t, ht, hi⟩ := importPrepared_of hs hready he hversions.1 hstorable
      obtain ⟨hct, hsame⟩ := hc.imported he hi
      obtain ⟨u, imported, known, hu, hwritten⟩ := ih (report.after 1 0)
        (hs.imported hready he hversions.1 hi) (hready.imported hi) (fun x hx => by
          rw [hsame] at hx
          exact hprepared x (by rw [freshEntries_cons he]; exact List.mem_cons_of_mem _ hx))
        hversions.2 hct
      refine ⟨u, 1 + imported, known, ?_, ?_⟩
      · rw [List.map_cons, importEntries_fresh he, Tx.need_bind hp, Tx.run_bind ht, hu]
        unfold Report.after
        simp only [Nat.add_assoc, Nat.zero_add]
      · obtain ⟨hmemories, hrevisions, hcues, hworld⟩ := hwritten
        rw [hsame] at hmemories hrevisions hcues
        rw [hi.memories] at hmemories
        rw [hi.revisions] at hrevisions
        rw [hi.cues] at hcues
        refine ⟨?_, ?_, ?_, hworld.trans hi.world⟩
        · rw [hmemories, freshEntries_cons he, List.append_assoc]
          rfl
        · rw [hrevisions, freshEntries_cons he, List.append_assoc]
          rfl
        · rw [hcues, freshEntries_cons he, List.append_assoc]
          rfl
    · push Not at he
      obtain ⟨m, hm, hid⟩ := he
      have hsame : freshEntries h c s (e :: qs) = freshEntries h c s qs :=
        freshEntries_cons_of_mem hm hid
      have hkind := hc.known e List.mem_cons_self m hm hid
      obtain ⟨u, imported, known, hu, hwritten⟩ := ih (report.after 0 1) hs hready
        (fun x hx => hprepared x (hsame ▸ hx)) hversions.2
        ⟨hsame ▸ hc.distinct, fun x hx => hc.storable x (hsame ▸ hx),
          fun x hx => hc.known x (List.mem_cons_of_mem _ hx)⟩
      refine ⟨u, imported, 1 + known, ?_, ?_⟩
      · rw [List.map_cons, importEntries_known hm hid, Tx.require_bind hkind, hu]
        unfold Report.after
        simp only [Nat.add_assoc, Nat.zero_add]
      · obtain ⟨hmemories, hrevisions, hcues, hworld⟩ := hwritten
        exact ⟨hsame ▸ hmemories, hsame ▸ hrevisions, hsame ▸ hcues, hworld⟩

/-- **A successful import found the memories that were there to be its own.** -/
theorem importEntries_knows (entries : List SourceRow) (report : Report) (s : Store) :
    Tx.Ensures s (importEntries h c all entries report) fun _ _ =>
      ∀ e ∈ entries, ∀ m ∈ s.memories.rows, m.id = c.memoryId h e → m.kind = c.kind h e := by
  induction entries generalizing s report with
  | nil => exact List.forall_mem_nil _
  | cons entry entries ih =>
    refine .of_run fun r t hrun => ?_
    by_cases hfresh : ∀ m ∈ s.memories.rows, m.id ≠ c.memoryId h entry
    · rw [importEntries_fresh hfresh] at hrun
      have hrest : Tx.Ensures s (Tx.need (preparedFor all entry.id.str) .notFound >>= fun p =>
          importPrepared h c entry p >>= fun _ =>
            importEntries h c all entries (report.after 1 0)) fun _ _ =>
          ∀ e ∈ entries, ∀ m ∈ s.memories.rows, m.id = c.memoryId h e → m.kind = c.kind h e := by
        refine .need fun p _ => .bind (keeps_importPrepared s (Grown.refl s)) fun _ u hu => ?_
        refine (ih _ u).mono fun _ _ hknown e he m hm hid => ?_
        obtain ⟨n, hn, hnid, hnkind⟩ := hu.memories m hm
        exact hnkind.symm.trans (hknown e he n hn (hnid.trans hid))
      exact List.forall_mem_cons.mpr
        ⟨fun m hm hid => absurd hid (hfresh m hm), hrest.run hrun⟩
    · push Not at hfresh
      obtain ⟨m, hm, hid⟩ := hfresh
      rw [importEntries_known hm hid] at hrun
      obtain ⟨hkind, hrun⟩ := Tx.of_require hrun
      refine List.forall_mem_cons.mpr ⟨fun n hn hnid => ?_, (ih _ s).run hrun⟩
      obtain rfl : n = m := memory_eq hn hm (hnid.trans hid.symm)
      exact hkind

/-- Entries that all have their memory are all found to be imported. -/
theorem importEntries_all (entries : List SourceRow) (report : Report)
    (hknown : ∀ e ∈ entries, ∃ m ∈ s.memories.rows, m.id = c.memoryId h e ∧ m.kind = c.kind h e) :
    importEntries h c all entries report s = .ok (report.after 0 entries.length, s) := by
  induction entries generalizing report with
  | nil => rfl
  | cons entry entries ih =>
    rw [List.forall_mem_cons] at hknown
    obtain ⟨⟨m, hm, hid, hkind⟩, hrest⟩ := hknown
    rw [importEntries_known hm hid, Tx.require_bind hkind, ih _ hrest]
    unfold Report.after
    simp only [Nat.add_assoc, Nat.zero_add, List.length_cons, Nat.add_comm 1]

/-- **The loop keeps the store sound**, whatever it writes. -/
theorem importEntries_sound (entries : List SourceRow) (report : Report) (s : Store)
    (hall : ∀ e ∈ all, e.2.versions ≠ []) (hs : Sound h s) (hready : Ready s c) :
    Tx.Ensures s (importEntries h c all entries report) fun _ t => Sound h t := by
  induction entries generalizing s report with
  | nil => exact hs
  | cons entry entries ih =>
    refine .of_run fun r t hrun => ?_
    by_cases hfresh : ∀ m ∈ s.memories.rows, m.id ≠ c.memoryId h entry
    · rw [importEntries_fresh hfresh] at hrun
      have hrest : Tx.Ensures s (Tx.need (preparedFor all entry.id.str) .notFound >>= fun p =>
          importPrepared h c entry p >>= fun _ =>
            importEntries h c all entries (report.after 1 0)) fun _ t => Sound h t := by
        refine .need fun p hp => ?_
        obtain ⟨e, he, rfl⟩ := Option.map_eq_some_iff.mp hp
        have hversions := hall e (List.mem_reverse.mp (List.mem_of_find?_eq_some he))
        refine (importPrepared_ensures hs hready hfresh hversions).bind fun _ u hu => ?_
        exact ih _ u (hs.imported hready hfresh hversions hu) (hready.of_world hu.world)
      exact hrest.run hrun
    · push Not at hfresh
      obtain ⟨m, hm, hid⟩ := hfresh
      rw [importEntries_known hm hid] at hrun
      exact (ih _ s hs hready).run (Tx.of_require hrun).2

/-! ## What was prepared -/

/-- **A prepared entry has the revisions of the history of the entry and then its value**, in
their order. -/
def EntryRevisions (h : Hooks) (entry : SourceRow) (p : Prepared) : Prop :=
  ∃ history episode cues, (sourceJson h (entry.row.get "history_json") >>= asRows) = .ok history ∧
    List.Forall₂ (fun row v => prepareRevision h row.1 row.2.1 row.2.2 = .ok v)
      (historyRows history ++ [(entry.row, episode, cues)]) p.versions

theorem entryRevisions_of_prepareEntry {episodes : List (Text × Row)} {cues : List Text}
    (hp : prepareEntry h episodes cues entry = .ok p) : EntryRevisions h entry p := by
  unfold prepareEntry at hp
  obtain ⟨lifecycle, -, hp⟩ := of_bind hp
  obtain ⟨value, hvalue, hp⟩ := of_bind hp
  obtain ⟨history, hhistory, hp⟩ := of_bind hp
  obtain ⟨episode, -, hp⟩ := of_bind hp
  obtain ⟨versions, hversions, hp⟩ := of_bind hp
  rw [← Except.ok.inj hp]
  refine ⟨history, episode, _, ?_, forall₂_of_mapM hversions⟩
  rw [hvalue]
  exact hhistory

theorem EntryRevisions.ne_nil (hp : EntryRevisions h entry p) : p.versions ≠ [] := by
  obtain ⟨history, episode, cues, -, hversions⟩ := hp
  intro hnil
  have := hversions.length_eq
  rw [hnil, List.length_append, List.length_singleton] at this
  cases this

/-- Pairs with what they are made of. -/
theorem map_fst_of_forall₂ {α β : Type} {Q : α → β → Prop} {as : List α} {bs : List (α × β)}
    (hpairs : List.Forall₂ (fun a b => b.1 = a ∧ Q a b.2) as bs) :
    bs.map Prod.fst = as ∧ ∀ b ∈ bs, Q b.1 b.2 := by
  induction hpairs with
  | nil => exact ⟨rfl, List.forall_mem_nil _⟩
  | cons hb _ ih =>
    obtain ⟨rfl, hQ⟩ := hb
    exact ⟨congrArg (_ :: ·) ih.1, List.forall_mem_cons.mpr ⟨hQ, ih.2⟩⟩

/-- Every entry is prepared, in its place. -/
theorem of_prepareAll {snapshot : Snapshot} (hall : prepareAll h snapshot = .ok all) :
    all.map Prod.fst = snapshot.entries ∧ ∀ e ∈ all, EntryRevisions h e.1 e.2 := by
  unfold prepareAll at hall
  obtain ⟨cues, -, hall⟩ := of_bind hall
  obtain ⟨prepared, hprepared, hall⟩ := of_bind hall
  obtain ⟨_, -, hall⟩ := of_bind hall
  obtain rfl : prepared = all := Except.ok.inj hall
  refine map_fst_of_forall₂ ((forall₂_of_mapM hprepared).imp fun entry e he => ?_)
  obtain ⟨p, hp, he⟩ := of_bind he
  rw [← Except.ok.inj he]
  exact ⟨rfl, entryRevisions_of_prepareEntry hp⟩

/-- Where the new entries have different memories, each is found as it was prepared. -/
theorem preparedFor_of_distinct
    (hdistinct : ((freshEntries h c s all).map fun e => c.memoryId h e.1).Nodup) :
    ∀ e ∈ freshEntries h c s all, preparedFor all e.1.id.str = some e.2 := by
  intro e he
  obtain ⟨hmem, hfresh⟩ := mem_freshEntries.mp he
  obtain ⟨x, hx⟩ : ∃ x, all.reverse.find? (fun x => x.1.id.str = e.1.id.str) = some x :=
    Option.isSome_iff_exists.mp (List.find?_isSome.mpr
      ⟨e, List.mem_reverse.mpr hmem, decide_eq_true rfl⟩)
  have hsame : x.1.id.str = e.1.id.str := by simpa using List.find?_some hx
  have hid : c.memoryId h x.1 = c.memoryId h e.1 := by
    unfold ImportCall.memoryId
    rw [hsame]
  have hxfresh : x ∈ freshEntries h c s all := mem_freshEntries.mpr
    ⟨List.mem_reverse.mp (List.mem_of_find?_eq_some hx), fun m hm hmid => hfresh m hm (hmid.trans hid)⟩
  obtain rfl : x = e := List.inj_on_of_nodup_map hdistinct hxfresh he hid
  unfold preparedFor
  rw [hx]
  rfl

/-! ## Rehearsals -/

/-- What a call checks before it prepares anything. -/
structure Authorized (s : Store) (c : ImportCall) : Prop where
  ownerLocal : c.ownerLocal = true
  ready : Ready s c
  digest : isDigest c.projectDigest = true

theorem rehearsal_ensures : Tx.Ensures s (importLegacyMemories h c.rehearsal) fun report t =>
    t = s ∧ Authorized s c ∧ ∃ all, prepareAll h c.snapshot = .ok all ∧
      report = c.rehearsal.newReport h all := by
  unfold importLegacyMemories
  refine .require fun hlocal => .get (.require fun hrole => .require fun hdigest => ?_)
  refine .require fun hdestination => .ask fun all hall => ?_
  exact ⟨rfl, ⟨hlocal, ⟨hrole, hdestination⟩, hdigest⟩, all, hall, rfl⟩

/-- **An authorized call does the loop.** -/
theorem application_eq (ha : Authorized s c) (hall : prepareAll h c.snapshot = .ok all) :
    importLegacyMemories h c.application s =
      importEntries h c.application all c.snapshot.entries (c.application.newReport h all) s := by
  have hlocal : c.application.ownerLocal = true := ha.ownerLocal
  have hrole : c.application.actor ∈ s.world.caoPrincipals := ha.ready.role
  have hdigest : isDigest c.application.projectDigest = true := ha.digest
  have hdestination : s.Destination c.application := ha.ready.destination
  unfold importLegacyMemories
  rw [Tx.require_bind hlocal, Tx.run_bind (s := s) (b := s) rfl, Tx.require_bind hrole,
    Tx.require_bind hdigest, Tx.require_bind hdestination, Tx.ask_bind]
  show (prepareAll h c.snapshot).bind _ = _
  rw [hall]
  show (do
    let s ← get
    Tx.require (s.Destination c.application) .authorization
    importEntries h c.application all c.snapshot.entries (c.application.newReport h all) :
      Tx Store Error Report) s = _
  rw [Tx.run_bind (s := s) (b := s) rfl, Tx.require_bind hdestination]

/-- **An import is sound**, as a dry run or for good. -/
theorem Sound.importLegacyMemories (hs : Sound h s) :
    Sound h (Tx.commit (importLegacyMemories h c) s) := by
  refine Tx.commit_of_wp hs ?_
  unfold Memories.importLegacyMemories
  refine Tx.Ensures.require fun _ => .get (.require fun hrole => .require fun _ => ?_)
  refine Tx.Ensures.require fun hdestination => .ask fun all hall => ?_
  refine Tx.Ensures.ite (fun _ => hs) fun _ => .get (.require fun _ => ?_)
  exact importEntries_sound _ _ s (fun e he => ((of_prepareAll hall).2 e he).ne_nil) hs
    ⟨hrole, hdestination⟩

theorem Sound.remember (hs : Sound h s) (c : Call) :
    Sound h (Tx.commit (remember h.safe h.fold c) s) := by
  refine Tx.commit_of_wp hs ((remember_ensures (c := c)).mono fun _ t ht => ?_)
  rcases ht with ⟨rfl, -⟩ | ⟨work, existing, goal, hadmits, hwrote⟩
  · exact hs
  refine ⟨hs.linear.wrote hadmits hwrote, hs.attached.wrote hwrote, fun m' hm' => ?_,
    fun q hq => ?_⟩
  · cases existing with
    | none =>
      rw [(hwrote.created rfl).2.2, List.mem_append, List.mem_singleton] at hm'
      rcases hm' with hm' | rfl
      · exact hs.provenance m' hm'
      · exact fun _ _ hkind => by cases hkind
    | some row =>
      rw [(hwrote.updated (Option.some_ne_none _)).2, List.mem_map] at hm'
      obtain ⟨m, hm, rfl⟩ := hm'
      simp only [MemoryRow.advance_id, MemoryRow.advance_owner, MemoryRow.advance_project,
        MemoryRow.advance_kind]
      exact hs.provenance m hm
  · have hkept : ∀ m ∈ s.memories.rows, ∃ m' ∈ t.memories.rows, m'.id = m.id := by
      intro m hm
      cases existing with
      | none =>
        rw [(hwrote.created rfl).2.2]
        exact ⟨m, List.mem_append_left _ hm, rfl⟩
      | some row =>
        rw [(hwrote.updated (Option.some_ne_none _)).2]
        exact ⟨_, List.mem_map_of_mem hm, MemoryRow.advance_id⟩
    have hown : ∃ m' ∈ t.memories.rows, m'.id = c.memoryId := by
      cases existing with
      | none =>
        rw [(hwrote.created rfl).2.2]
        exact ⟨_, List.mem_append_right _ (List.mem_singleton_self _), rfl⟩
      | some row =>
        obtain ⟨hid, hvisible, -⟩ := hadmits.row
        obtain ⟨m', hm', hsame⟩ := hkept _ (mem_visibleRows.mp hvisible).1
        exact ⟨m', hm', hsame.trans hid.symm⟩
    rw [hwrote.added] at hq
    rcases mem_foldl_addCue hq with hq | hq
    · obtain ⟨m, hm, hid⟩ := hs.cued q hq
      obtain ⟨m', hm', hsame⟩ := hkept m hm
      exact ⟨m', hm', hsame.trans hid⟩
    · obtain ⟨cue, -, rfl⟩ := List.mem_map.mp hq
      exact hown

/-- **Every store that is filled with memories is sound.** -/
theorem sound_of_reachable (hs : (imports h).Reachable s) : Sound h s := by
  refine TransitionSystem.Reachable.invariant (T := imports h) (I := Sound h)
    (fun s hs => ?_) (fun s e s' _ hs hstep => ?_) hs
  · obtain ⟨hmemories, hrevisions, hcues⟩ := hs
    refine ⟨⟨?_, ?_, ?_⟩, ?_, ?_, ?_⟩
    · rw [hmemories]
      exact List.forall_mem_nil _
    · rw [hmemories]
      exact List.forall_mem_nil _
    · rw [hrevisions]
      exact List.forall_mem_nil _
    · unfold Attached
      rw [hmemories]
      exact List.forall_mem_nil _
    · rw [hmemories]
      exact List.forall_mem_nil _
    · rw [hcues]
      exact List.forall_mem_nil _
  · cases e with
    | remember c =>
      obtain rfl : Tx.commit (Memories.remember h.safe h.fold c) s = s' := Option.some.inj hstep
      exact hs.remember c
    | others w =>
      obtain ⟨hextends, rfl⟩ := TransitionSystem.of_guarded hstep
      refine ⟨⟨hs.linear.begun, hs.linear.dense, hs.linear.owned⟩, fun m hm => ?_, hs.provenance,
        hs.cued⟩
      obtain ⟨a, ha, hid, hprincipal, hproject⟩ := hs.attached m hm
      obtain ⟨b, hb, hidentity⟩ := hextends a ha
      exact ⟨b, hb, (congrArg Prod.fst hidentity).trans hid,
        (congrArg (fun i => i.2.1) hidentity).trans hprincipal,
        (congrArg (fun i => i.2.2.1) hidentity).trans hproject⟩
    | importLegacy c =>
      obtain rfl : Tx.commit (Memories.importLegacyMemories h c) s = s' := Option.some.inj hstep
      exact hs.importLegacyMemories

/-- **An import for good does what its rehearsal promised**: it returns, each new entry is written
once with its revisions in order, and a second import finds every entry imported. -/
def Faithful (h : Hooks) (c : ImportCall) (all : List (SourceRow × Prepared)) (s : Store) : Prop :=
  ∃ report t, importLegacyMemories h c.application s = .ok (report, t) ∧ Written h c all s t ∧
    ∃ again, importLegacyMemories h c.application t = .ok (again, t) ∧
      again.imported = 0 ∧ again.alreadyImported = c.snapshot.entries.length

/-- A memory that was written, or was there, is found again. -/
theorem Written.again (hwritten : Written h c all s t)
    (hknown : ∀ e ∈ all, ∀ m ∈ s.memories.rows, m.id = c.memoryId h e.1 → m.kind = c.kind h e.1) :
    ∀ e ∈ all.map Prod.fst, ∃ m ∈ t.memories.rows,
      m.id = c.memoryId h e ∧ m.kind = c.kind h e := by
  intro e he
  obtain ⟨x, hx, rfl⟩ := List.mem_map.mp he
  rw [hwritten.memories]
  by_cases hfresh : ∀ m ∈ s.memories.rows, m.id ≠ c.memoryId h x.1
  · exact ⟨_, List.mem_append_right _ (List.mem_map_of_mem (mem_freshEntries.mpr ⟨hx, hfresh⟩)),
      rfl, rfl⟩
  · push Not at hfresh
    obtain ⟨m, hm, hid⟩ := hfresh
    exact ⟨m, List.mem_append_left _ hm, hid, hknown x hx m hm hid⟩

/-- What was written has different identifiers. -/
theorem Written.distinct (hwritten : Written h c all s t) :
    ((freshEntries h c s all).map fun e => c.memoryId h e.1).Nodup := by
  have hunique := t.memories.unique
  rw [hwritten.memories] at hunique
  have hnew := (List.pairwise_append.mp hunique).2.1
  rw [List.pairwise_map] at hnew
  refine List.pairwise_map.mpr (hnew.imp fun hclash hid => hclash (.inl hid))

/-- What was written met the constraints. -/
theorem Written.storable (hs : Sound h s) (hwritten : Written h c all s t) (hgrown : Grown s t) :
    ∀ e ∈ freshEntries h c s all, e.2.Storable h := by
  intro e he
  have hfresh := (mem_freshEntries.mp he).2
  refine ⟨fun v hv => ?_, fun q hq => ?_⟩
  · obtain ⟨i, hi, rfl⟩ := List.mem_iff_getElem.mp hv
    have hr : c.revision h e.1 (0 + i + 1) e.2.versions[i] ∈ t.revisions.rows := by
      rw [hwritten.revisions]
      exact List.mem_append_right _ (List.mem_flatMap.mpr
        ⟨e, he, mem_revisions.mpr ⟨i, _, List.getElem?_eq_getElem hi, rfl⟩⟩)
    rcases hgrown.revisions _ hr with hold | hnew
    · obtain ⟨m, hm, hid⟩ := hs.linear.owned _ hold
      exact absurd hid (hfresh m hm)
    · exact hnew
  · have hr : c.cue h e.1 q ∈ t.cues.rows := by
      rw [hwritten.cues]
      exact List.mem_append_right _ (List.mem_flatMap.mpr ⟨e, he, List.mem_map_of_mem hq⟩)
    rcases hgrown.cues _ hr with hold | hnew
    · obtain ⟨m, hm, hid⟩ := hs.cued _ hold
      exact absurd hid (hfresh m hm)
    · exact hnew

theorem revisions_application (n : ℕ) (vs : List Version) :
    c.application.revisions h entry n vs = c.revisions h entry n vs := by
  induction vs generalizing n with
  | nil => rfl
  | cons v vs ih => exact congrArg (_ :: ·) (ih (n + 1))

/-- **An import is faithful exactly when the tables take what was prepared.** -/
theorem faithful_iff (hs : Sound h s) (ha : Authorized s c)
    (hall : prepareAll h c.snapshot = .ok all) :
    Faithful h c all s ↔ Importable h c s all := by
  obtain ⟨hentries, hrevisions⟩ := of_prepareAll hall
  constructor
  · rintro ⟨report, t, hrun, hwritten, -⟩
    rw [application_eq ha hall] at hrun
    refine ⟨hwritten.distinct, hwritten.storable hs ?_, fun e he m hm hid => ?_⟩
    · exact Tx.Ensures.run (keeps_importEntries _ _ _ s (Grown.refl s)) hrun
    · have hmem : e.1 ∈ c.snapshot.entries := hentries ▸ List.mem_map_of_mem he
      exact (importEntries_knows _ _ s).run hrun e.1 hmem m hm hid
  · intro hc
    obtain ⟨t, imported, known, hrun, hwritten⟩ := importEntries_of (h := h) (c := c.application)
      (c.application.newReport h all) hs ⟨ha.ready.role, ha.ready.destination⟩
      (preparedFor_of_distinct hc.distinct) (fun e he => (hrevisions e he).ne_nil)
      ⟨hc.distinct, hc.storable, hc.known⟩
    have hnew := hwritten.revisions
    simp only [revisions_application] at hnew
    have hwritten : Written h c all s t := ⟨hwritten.memories, hnew, hwritten.cues, hwritten.world⟩
    refine ⟨(c.application.newReport h all).after imported known, t, ?_, hwritten, ?_⟩
    · rw [application_eq ha hall, ← hentries]
      exact hrun
    · have hat : Authorized t c := ⟨ha.ownerLocal, ha.ready.of_world hwritten.world, ha.digest⟩
      have hagain : importEntries h c.application all c.snapshot.entries
          (c.application.newReport h all) t =
            .ok ((c.application.newReport h all).after 0 c.snapshot.entries.length, t) :=
        importEntries_all _ _ (hentries ▸ hwritten.again hc.known)
      refine ⟨_, (application_eq hat hall).trans hagain, rfl, ?_⟩
      exact Nat.zero_add _

/-- **The texts of an entry begin**, after blanks, with a code point that is not NUL, and can be
encoded. -/
structure Prepared.Plain (h : Hooks) (p : Prepared) : Prop where
  versions : ∀ v ∈ p.versions, (v.primary.encodable ∧ v.value.encodable) ∧ v.primary.Begins
  cues : ∀ q ∈ p.cues h, (q.normalized.encodable ∧ q.text.encodable) ∧ q.normalized.Begins ∧
    q.text.Begins

/-- The bounds of a prepared entry. -/
theorem EntryRevisions.bounded (hp : EntryRevisions h entry p) : ∀ v ∈ p.versions, v.Bounded := by
  obtain ⟨history, episode, cues, -, hversions⟩ := hp
  intro v hv
  obtain ⟨i, hi, rfl⟩ := List.mem_iff_getElem.mp hv
  exact bounded_of_prepareRevision
    ((List.forall₂_iff_get.mp hversions).2 i (hversions.length_eq ▸ hi) hi)

theorem EntryRevisions.storable_iff (hp : EntryRevisions h entry p) :
    p.Storable h ↔ p.Plain h := by
  have hcue : ∀ q ∈ p.cues h, CueTexts q.normalized q.text ↔
      q.normalized.Begins ∧ q.text.Begins := by
    intro q hq
    have hlength : q.text.length ≤ 256 := by
      obtain ⟨i, v, hv, -, hmem⟩ := mem_offered.mp ((cues_first p).1 q hq).1
      obtain ⟨text, htext, rfl⟩ := List.mem_map.mp hmem
      exact (hp.bounded v (List.mem_of_getElem? hv)).cues text htext
    unfold CueTexts
    rw [Text.sqlLength_sqlTrim_pos, Text.sqlLength_sqlTrim_pos]
    exact ⟨fun h => ⟨h.1, h.2.1⟩, fun h => ⟨h.1, h.2, (Text.sqlLength_le _).trans hlength⟩⟩
  constructor
  · rintro ⟨hversions, hcues⟩
    exact ⟨fun v hv => ⟨(hversions v hv).1, (hp.bounded v hv).texts_iff.mp (hversions v hv).2⟩,
      fun q hq => ⟨(hcues q hq).1, (hcue q hq).mp (hcues q hq).2⟩⟩
  · rintro ⟨hversions, hcues⟩
    exact ⟨fun v hv => ⟨(hversions v hv).1, (hp.bounded v hv).texts_iff.mpr (hversions v hv).2⟩,
      fun q hq => ⟨(hcues q hq).1, (hcue q hq).mpr (hcues q hq).2⟩⟩

/-- **What a rehearsal does not look at**: whether new entries have one identifier, how their
texts begin and whether they can be encoded, and what the memories that are there come from. -/
structure Unrehearsed (h : Hooks) (c : ImportCall) (s : Store)
    (all : List (SourceRow × Prepared)) : Prop where
  distinct : ((freshEntries h c s all).map fun e => c.memoryId h e.1).Nodup
  plain : ∀ e ∈ freshEntries h c s all, e.2.Plain h
  known : ∀ e ∈ all, ∀ m ∈ s.memories.rows, m.id = c.memoryId h e.1 → m.kind = c.kind h e.1

/-- **An import does what its rehearsal promised exactly when what the rehearsal does not look
at is in order.** The rehearsal leaves the store as it is and prepares every entry in its place,
with the revisions of its history and then its value, and each normal form of a cue with the
first revision that carried it. An import that fails leaves the store as it is. -/
theorem import_rehearsed (hs : (imports h).Reachable s)
    (hdry : importLegacyMemories h c.rehearsal s = .ok (report, t)) :
    t = s ∧ ∃ all, prepareAll h c.snapshot = .ok all ∧ all.map Prod.fst = c.snapshot.entries ∧
      (∀ e ∈ all, EntryRevisions h e.1 e.2 ∧ FirstCues h e.2) ∧
      (Faithful h c all s ↔ Unrehearsed h c s all) ∧
      ∀ e, importLegacyMemories h c.application s = .error e →
        Tx.commit (importLegacyMemories h c.application) s = s := by
  obtain ⟨hsame, ha, all, hall, -⟩ := rehearsal_ensures.run hdry
  obtain ⟨hentries, hrevisions⟩ := of_prepareAll hall
  refine ⟨hsame, all, hall, hentries, fun e he => ⟨hrevisions e he, cues_first e.2⟩, ?_,
    fun e he => ?_⟩
  · rw [faithful_iff (sound_of_reachable hs) ha hall]
    have hplain : ∀ e ∈ freshEntries h c s all, e.2.Storable h ↔ e.2.Plain h := fun e he =>
      (hrevisions e (mem_freshEntries.mp he).1).storable_iff
    exact ⟨fun hc => ⟨hc.distinct, fun e he => (hplain e he).mp (hc.storable e he), hc.known⟩,
      fun hc => ⟨hc.distinct, fun e he => (hplain e he).mpr (hc.plain e he), hc.known⟩⟩
  · unfold Tx.commit
    rw [he]

/-! ## A blank primary -/

/-- What stands for the outside of an import of one entry, with the digests of its source and
the identifier they make. -/
def sampleHooks (source memory : String) : Hooks where
  safe := allSafe
  fold := plainFold
  loads t := if t = Text.ofString "[]" then some (.list []) else none
  evidenceText t := t
  refsDigest _ :=
    Text.ofString "4f53cda18c2baa0c0354bb5f9a3ecbe5ed12ab4d8e11ba873c2f11161202b945"
  sourceDigest _ := source
  idDigest _ := "0e7683d757ca8c3c9dd2ce1cb3354a8f3ea2a826584f7d24a403b186bbb56eb7"
  memoryId _ _ _ _ := memory

def plainHooks : Hooks := sampleHooks
  "44662a9770f86f1accf25ae701e38f945cce674d3c0b27a20c64f6c13f2ae3b5"
  "mem_da8f6d7b2355023c3cf6d87d86f24221"

def blankHooks : Hooks := sampleHooks
  "1ac7eb57f901805075f4d0d640aa753d258da15be589d4e8d938421cf0301472"
  "mem_2bd7adb7f2c08cd3ac94087798da208f"

/-- A source of one entry with this primary. -/
def sampleImport (primary : String) : ImportCall where
  actor := "cao"
  ownerLocal := true
  projectDigest := "aaaaaaaaaaaaaaaaaaaaaaaaaaaaaaaaaaaaaaaaaaaaaaaaaaaaaaaaaaaaaaaa"
  attachmentId := "cat_1"
  snapshot :=
    { entries := [⟨.text (Text.ofString "e1"),
        [("primary_abstraction", .text (Text.ofString primary)),
          ("value", .text (Text.ofString "v")),
          ("lifecycle_state", .text (Text.ofString "active")),
          ("history_json", .text (Text.ofString "[]"))]⟩]
      cues := []
      episodes := [] }
  dryRun := true

/-- The destination of the samples. -/
def importWorld : World where
  caoPrincipals := ["cao"]
  attachments := ⟨[⟨"cat_1", "cao",
    "aaaaaaaaaaaaaaaaaaaaaaaaaaaaaaaaaaaaaaaaaaaaaaaaaaaaaaaaaaaaaaaa", "identity", true⟩],
    List.pairwise_singleton _ _⟩
  works := .empty
  goals := .empty

def importStart : Store where
  memories := .empty
  revisions := .empty
  cues := .empty
  results := .empty
  world := importWorld

theorem importStart_reachable (h : Hooks) : (imports h).Reachable importStart :=
  .of_init ⟨rfl, rfl, rfl⟩

/-- The entries of the plain sample, prepared. -/
def plainAll : List (SourceRow × Prepared) :=
  match prepareAll plainHooks (sampleImport "p").snapshot with
  | .ok all => all
  | .error _ => []

set_option maxRecDepth 8000 in
theorem plainAll_eq : prepareAll plainHooks (sampleImport "p").snapshot = .ok plainAll := rfl

set_option maxRecDepth 8000 in
theorem plain_rehearsal : importLegacyMemories plainHooks (sampleImport "p").rehearsal importStart =
    .ok ((sampleImport "p").rehearsal.newReport plainHooks plainAll, importStart) := rfl

set_option maxRecDepth 8000 in
/-- Nothing is out of order in the plain sample. -/
theorem plain_unrehearsed :
    Unrehearsed plainHooks (sampleImport "p") importStart plainAll where
  distinct := by decide
  plain := by
    intro e he
    obtain rfl := List.mem_singleton.mp (mem_freshEntries.mp he).1
    exact ⟨by decide, by decide⟩
  known := fun _ _ => List.forall_mem_nil _

/-- A source with a plain entry is imported as it was rehearsed. -/
theorem import_rehearsed_plain : ∃ all,
    prepareAll plainHooks (sampleImport "p").snapshot = .ok all ∧
      Faithful plainHooks (sampleImport "p") all importStart := by
  obtain ⟨-, all, hall, -, -, hiff, -⟩ :=
    import_rehearsed (importStart_reachable plainHooks) plain_rehearsal
  obtain rfl : plainAll = all := Except.ok.inj (plainAll_eq.symm.trans hall)
  exact ⟨plainAll, hall, hiff.mpr plain_unrehearsed⟩

set_option maxRecDepth 8000 in
/-- **A blank primary passes the rehearsal and fails the import**, on a `CHECK`. -/
theorem blank_passes_rehearsal :
    (imports blankHooks).Reachable importStart ∧
      (∃ report, importLegacyMemories blankHooks (sampleImport "  ").rehearsal importStart =
        .ok (report, importStart)) ∧
      importLegacyMemories blankHooks (sampleImport "  ").application importStart =
        .error .integrity :=
  ⟨importStart_reachable blankHooks, ⟨_, rfl⟩, rfl⟩

end Memories
