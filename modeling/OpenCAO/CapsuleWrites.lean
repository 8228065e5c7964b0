import OpenCAO.CapsuleFormat

/-!
# Recording that fails

Whatever `record` refuses before it writes is refused with all files as they were. After the
file is replaced it is read again, and by then the old content is gone. There is one thing
that can be wrong with a file that `record` has just written: it may be longer than
`read_capsule` reads. No field is too long for itself, but they may be together, and nothing
looks at that before the file is replaced.
-/

namespace Utf8

/-- The number of bytes of a text. -/
def size (t : List ℕ) : ℕ := (t.map fun c => (encodeChar c).length).sum

theorem size_append (t u : List ℕ) : size (t ++ u) = size t + size u := by simp [size]

theorem size_replicate (n c : ℕ) : size (List.replicate n c) = n * (encodeChar c).length := by
  simp [size]

theorem length_of_encode {t : List ℕ} {bytes : List UInt8} (h : encode t = some bytes) :
    bytes.length = size t := by
  unfold encode at h
  split_ifs at h
  obtain rfl := Option.some.inj h
  exact List.length_flatMap

end Utf8

namespace Capsules

open Text Regex Utf8

/-! ## How long a file is -/

/-- **The number of bytes of a capsule file**: those of the markers, of the texts, and three
more for each trigger. -/
def capsuleSize (a : Arguments) (stored : Option Capsule) (today : Text) : ℕ :=
  100 + size a.capsuleId + size a.scope +
    size ((stored.bind (·.metadata.get? "created")).getD today) + size today +
    ((mergedTriggers stored (a.triggers.map squeeze)).map fun t => size t + 3).sum +
    size (squeeze a.title) + size (squeeze a.rule) + size (squeeze a.verification)

theorem size_joinLines {ts : List Text} (h : ts ≠ []) :
    size (joinLines ts) + 1 = (ts.map fun t => size t + 1).sum := by
  unfold joinLines
  induction ts with
  | nil => exact absurd rfl h
  | cons t ts ih =>
    cases ts with
    | nil => simp
    | cons u us =>
      have hrest := ih (List.cons_ne_nil u us)
      rw [List.intercalate_cons_cons, size_append, size_append, List.map_cons, List.sum_cons,
        ← hrest, show size [10] = 1 from rfl]
      omega

theorem size_text {a : Arguments} {stored : Option Capsule} {today : Text} {d : Draft}
    (hd : d.Valid) (h : Prepared a stored today d) : size d.text = capsuleSize a stored today := by
  have htriggers : size (joinLines (d.triggers.map (ofString "- " ++ ·))) + 1
      = (d.triggers.map fun t => size t + 3).sum := by
    rw [size_joinLines (by simpa using hd.triggers_ne), List.map_map]
    refine congrArg List.sum (List.map_congr_left fun t _ => ?_)
    show size (ofString "- " ++ t) + 1 = size t + 3
    rw [size_append, show size (ofString "- ") = 2 by decide]
    omega
  unfold capsuleSize Draft.text Draft.body
  rw [← h.capsuleId, ← h.scope, ← h.title, ← h.triggers, ← h.rule, ← h.verification, ← h.created,
    ← h.updated, ← htriggers]
  simp only [size_append]
  rw [show size (ofString "---\nid: ") = 8 by decide,
    show size (ofString "\nstatus: active\nscope: ") = 23 by decide,
    show size (ofString "\ncreated: ") = 10 by decide,
    show size (ofString "\nupdated: ") = 10 by decide,
    show size (ofString "\ntriggers:\n") = 11 by decide,
    show size (ofString "\n---\n") = 5 by decide, show size (ofString "\n# ") = 3 by decide,
    show size (ofString "\n\n## Rule\n\n") = 11 by decide,
    show size (ofString "\n\n## Verification\n\n") = 19 by decide,
    show size (ofString "\n") = 1 by decide]
  omega

/-! ## What is left when a call fails -/

/-- **A call that raises has changed nothing**: no file, and no receipt. -/
def Intact (s : AdaptationStore) (result : Except Refusal Receipt × AdaptationStore) : Prop :=
  ∀ e, result.1 = .error e →
    (∀ name, result.2.stored? name = s.stored? name) ∧ result.2.captures = s.captures

/-- **A call passes all checks** that are made before the file is replaced. -/
def passes (env : Environment) (s : AdaptationStore) (a : Arguments) : Bool :=
  match prepare env s a with
  | .ok d => (Utf8.encode d.text).isSome
  | .error _ => false

/-- **The file is going to be longer than `read_capsule` reads.** -/
def Oversized (env : Environment) (s : AdaptationStore) (a : Arguments) : Prop :=
  ∃ stored, existing env s (fileName a.capsuleId) = .ok stored ∧
    sizeLimit < capsuleSize a stored env.today.isoformat

/-- A capsule that is there is not longer than what is read. -/
theorem stored?_ne_of_existing {env : Environment} {s : AdaptationStore} {name : Text}
    {stored : Option Capsule} (h : existing env s name = .ok stored) {bytes : List UInt8}
    (hsize : sizeLimit < bytes.length) : s.stored? name ≠ some (.regular bytes) := by
  intro hentry
  rw [existing, hentry] at h
  obtain ⟨c, hread, -⟩ := bind_eq_ok.mp h
  obtain ⟨_, hlimit, -⟩ := bind_eq_ok.mp hread
  exact absurd (require_eq_ok.mp hlimit) (Nat.not_le.mpr hsize)

/-- A call that does not pass the checks leaves the store as it was. -/
theorem record_of_not_passes {env : Environment} {s : AdaptationStore} {a : Arguments}
    (h : passes env s a = false) : ∃ e, record env s a = (.error e, s) := by
  unfold passes at h
  unfold record
  cases hd : prepare env s a with
  | error e => exact ⟨e, rfl⟩
  | ok d =>
    cases hbytes : Utf8.encode d.text with
    | none => exact ⟨.unicode, by simp only [hbytes]⟩
    | some bytes => simp [hd, hbytes] at h

/-- **A call that passes the checks** fails exactly if the file is too long, and then it has
replaced another content. -/
theorem record_of_passes {env : Environment} {s : AdaptationStore} {a : Arguments}
    (h : passes env s a = true) :
    (Oversized env s a ∧ (∃ e, (record env s a).1 = .error e) ∧
      (record env s a).2.stored? (fileName a.capsuleId) ≠ s.stored? (fileName a.capsuleId)) ∨
    (¬ Oversized env s a ∧ ∃ r, (record env s a).1 = .ok r) := by
  unfold passes at h
  cases hd : prepare env s a with
  | error e =>
    rw [hd] at h
    cases h
  | ok d =>
    rw [hd] at h
    obtain ⟨bytes, hbytes⟩ := Option.isSome_iff_exists.mp h
    obtain ⟨hvalid, stored, hstored, hprepared⟩ := prepare_eq_ok hd
    obtain ⟨hentry, hrecord⟩ := record_of_prepare hd hbytes
    have hsize : bytes.length = capsuleSize a stored env.today.isoformat := by
      rw [length_of_encode hbytes, size_text hvalid hprepared]
    by_cases hlimit : bytes.length ≤ sizeLimit
    · rw [if_pos hlimit] at hrecord
      refine .inr ⟨?_, hrecord⟩
      rintro ⟨stored', hstored', hover⟩
      rw [hstored] at hstored'
      obtain rfl := Except.ok.inj hstored'
      exact absurd hlimit (Nat.not_le.mpr (hsize ▸ hover))
    · rw [if_neg hlimit] at hrecord
      obtain ⟨e, hrecord⟩ := hrecord
      refine .inl ⟨⟨stored, hstored, hsize ▸ Nat.not_le.mp hlimit⟩, ⟨e, by rw [hrecord]⟩, ?_⟩
      rw [hentry]
      exact (stored?_ne_of_existing hstored (Nat.not_le.mp hlimit)).symm

/-- **A failed call leaves everything as it was, unless the file was going to be too long.** -/
theorem record_intact_iff (env : Environment) (s : AdaptationStore) (a : Arguments) :
    Intact s (record env s a) ↔ ¬ (passes env s a = true ∧ Oversized env s a) := by
  cases h : passes env s a with
  | false =>
    obtain ⟨e, hrecord⟩ := record_of_not_passes h
    rw [hrecord]
    exact iff_of_true (fun _ _ => ⟨fun _ => rfl, rfl⟩) fun ⟨h, _⟩ => by cases h
  | true =>
    rcases record_of_passes h with ⟨hover, ⟨e, he⟩, hentry⟩ | ⟨hover, r, hr⟩
    · exact iff_of_false (fun hintact => hentry ((hintact e he).1 _)) fun h => h ⟨rfl, hover⟩
    · refine iff_of_true (fun e he => ?_) fun h => hover h.2
      rw [hr] at he
      cases he

/-- A word is all of its words. -/
theorem squeeze_of_word {t : Text} (hne : t ≠ []) (h : ∀ c ∈ t, isSpace c = false) :
    squeeze t = t := by
  have hsplit : t.splitOnP isSpace = [t] := by
    clear hne
    induction t with
    | nil => rfl
    | cons c t ih =>
      obtain ⟨hc, ht⟩ := List.forall_mem_cons.mp h
      rw [List.splitOnP_cons_eq_if_modifyHead, if_neg (by simp [hc]), ih ht, List.modifyHead_cons]
  simp [squeeze, split, hsplit, hne, join]

/-- A text of the greatest length, of characters of four bytes. -/
def longText : Text := List.replicate 16000 0x1f600

def longArguments : Arguments :=
  { sampleArguments "Tests" with rule := longText, verification := longText }

def longDraft : Draft where
  capsuleId := ofString "tests"
  scope := ofString "global"
  title := ofString "Tests"
  triggers := [ofString "test"]
  rule := longText
  verification := longText
  created := sampleEnvironment.today.isoformat
  updated := sampleEnvironment.today.isoformat

theorem prepare_longArguments : prepare sampleEnvironment {} longArguments = .ok longDraft := by
  have hlength : longText.length = 16000 := List.length_replicate
  have hne : longText ≠ [] := List.ne_nil_of_length_eq_add_one hlength
  have hline : ∀ field, line field longText = .ok longText := fun field => by
    have hsqueeze : squeeze longText = longText := squeeze_of_word hne fun c hc => by
      rw [List.eq_of_mem_replicate hc]
      rfl
    unfold line
    rw [hsqueeze]
    exact if_neg (not_or.mpr ⟨hne, hlength.le.not_gt⟩)
  unfold prepare
  rw [show longArguments.rule = longText from rfl,
    show longArguments.verification = longText from rfl]
  simp only [hline, ok_bind]
  rfl

/-- **Two long texts make a file that is too long to be read**: the call fails, and the file has
been replaced. -/
theorem long_capsule_replaced :
    ¬ ∀ (env : Environment) (s : AdaptationStore) (a : Arguments), Intact s (record env s a) := by
  intro h
  have hscalar : longDraft.text.all isScalar = true := by
    have hlong : longText.all isScalar = true := by
      rw [longText, List.all_replicate]
      rfl
    simp only [Draft.text, Draft.body, longDraft, List.all_append, hlong]
    decide +kernel
  have hpasses : passes sampleEnvironment {} longArguments = true := by
    rw [passes, prepare_longArguments]
    simp [encode, hscalar]
  rcases record_of_passes hpasses with ⟨-, ⟨e, he⟩, hentry⟩ | ⟨hsize, -⟩
  · exact hentry ((h _ _ _ e he).1 _)
  · obtain ⟨hvalid, stored, hstored, hprepared⟩ := prepare_eq_ok prepare_longArguments
    refine hsize ⟨stored, hstored, ?_⟩
    rw [← size_text hvalid hprepared]
    simp only [Draft.text, Draft.body, size_append]
    have hlong : size longText = 64000 := size_replicate 16000 0x1f600
    rw [show longDraft.rule = longText from rfl, show longDraft.verification = longText from rfl,
      hlong, show sizeLimit = 128000 from rfl, show size (ofString "---\nid: ") = 8 by decide]
    omega

end Capsules
