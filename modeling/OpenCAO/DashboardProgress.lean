import OpenCAO.DashboardReplay

/-!
# The dashboard catches up

A stream that begins to read – since it was just opened, or was woken – comes to an end of it by
its own steps, however large the table is: each page that is not the last has an event, and
there are fewer behind it (`remaining_advance`). Then it waits, and has told of every event in
the table, or it has told the client to begin anew (`catches_up`). Nothing else has to happen
for that.
-/

namespace Dashboard

variable {t : EventTable} {authority : Option Authority} {s s' : Stream} {outputs : List Output}

/-- The number of events behind a sequence. -/
def EventTable.left (t : EventTable) (after : ℕ) : ℕ := (t.production after t.lastSequence).length

/-- Nothing is left behind the end. -/
theorem EventTable.left_last (t : EventTable) : t.left t.lastSequence = 0 := by
  rw [EventTable.left, List.length_eq_zero_iff, List.eq_nil_iff_forall_not_mem]
  intro r hr
  obtain ⟨-, -, hlt, hle⟩ := EventTable.mem_production.mp hr
  exact absurd hlt hle.not_gt

/-- Behind an event there are those that come after it. -/
theorem EventTable.production_behind {p : ℕ} {front back : List EventRow} {r : EventRow}
    (h : t.production p t.lastSequence = front ++ r :: back) :
    t.production r.sequence t.lastSequence = back := by
  have hsorted := t.pairwise_production p t.lastSequence
  have hr : p < r.sequence := by
    have hmem : r ∈ t.production p t.lastSequence := h ▸ List.mem_append_right _ List.mem_cons_self
    exact (EventTable.mem_production.mp hmem).2.2.1
  have hbehind : (front ++ r :: back).filter (fun q => decide (r.sequence < q.sequence)) = back :=
    Paging.filter_behind (h ▸ hsorted)
  rw [← h, EventTable.production, List.filter_filter] at hbehind
  refine Eq.trans (List.filter_congr fun q _ => ?_) hbehind
  rw [← Bool.decide_and]
  refine decide_eq_decide.mpr ⟨?_, ?_⟩
  · rintro ⟨hscope, hlt, hle⟩
    exact ⟨hlt, hscope, hr.trans hlt, hle⟩
  · rintro ⟨hlt, hscope, -, hle⟩
    exact ⟨hscope, hlt, hle⟩

/-- **A page takes its events off what is left**, and is not empty if there is another. -/
theorem left_of_history {after : Option DashboardCursor} {limit : ℤ} {page : Page}
    (h : history authority t after limit = .inr page) :
    page.items.length + t.left page.nextCursor.sequence ≤ t.left (place after) ∧
      (page.hasMore = true → 0 < page.items.length) := by
  unfold history at h
  dsimp only at h
  split_ifs at h
  obtain rfl := Sum.inr.inj h
  have hplace : ∀ g, (after.getD ⟨g, 0⟩).sequence = place after := by cases after <;> exact fun _ => rfl
  dsimp only
  rw [hplace]
  set rows := t.production (place after) t.lastSequence with hrows
  have hleft : t.left (place after) = rows.length := rfl
  rw [hleft, List.length_map]
  cases hmore : (Paging.cut (min (max limit 1) 1000).toNat rows).2 with
  | none =>
    refine ⟨?_, by simp⟩
    show _ + t.left t.lastSequence ≤ _
    rw [t.left_last, Paging.cut_fst, List.length_take]
    exact Nat.min_le_right _ _
  | some r =>
    obtain ⟨front, hfront, hback⟩ := Paging.cut_of_some hmore
    have hbehind := EventTable.production_behind (hrows.symm.trans hback)
    have hlength := congrArg List.length hback
    rw [List.length_append, List.length_cons] at hlength
    rw [hfront, List.length_append, List.length_singleton]
    show _ + (t.production r.sequence t.lastSequence).length ≤ _ ∧ _
    rw [hbehind]
    exact ⟨by omega, fun _ => Nat.succ_pos _⟩

/-- **How many steps a stream has before it waits**, at most. -/
def Stream.remaining (t : EventTable) (s : Stream) : ℕ :=
  let toRead := fun after => 3 * t.left after + 3
  let toWait := fun after => if s.timedOut then toRead after + 1 else 1
  match s.phase with
  | .reading => toRead (place s.cursor) + if s.timedOut then 4 else 0
  | .telling items nextCursor hasMore =>
    items.length + 1 + if hasMore then toRead nextCursor.sequence + if s.timedOut then 4 else 0
      else toWait nextCursor.sequence
  | .told => toWait (place s.cursor)
  | .waiting => 0
  | .returned => 0

/-- **Every step brings a stream nearer to its end**, if it may tell of everything, and it
returns only to have the client begin anew. -/
theorem remaining_advance (hlimit : s.maxEvents = none)
    (h : s.advance authority t = some (s', outputs)) :
    s'.remaining t < s.remaining t ∧ s'.maxEvents = none ∧
      s'.commitGeneration = s.commitGeneration ∧
      (s'.phase = .returned → resynced outputs = true) := by
  obtain ⟨cursor, synchronizedCursor, emitted, maxEvents, commitGeneration, timedOut, phase⟩ := s
  obtain rfl : maxEvents = none := hlimit
  cases phase with
  | reading =>
    simp only [Stream.advance] at h
    cases hhistory : history authority t cursor 100 with
    | inl page =>
      rw [hhistory] at h
      obtain ⟨rfl, rfl⟩ := Prod.mk.inj (Option.some.inj h)
      exact ⟨Nat.lt_add_right _ (Nat.succ_pos _), rfl, rfl, fun _ => rfl⟩
    | inr page =>
      rw [hhistory] at h
      obtain ⟨rfl, rfl⟩ := Prod.mk.inj (Option.some.inj h)
      obtain ⟨hleft, hmore⟩ := left_of_history hhistory
      refine ⟨?_, rfl, rfl, by simp⟩
      simp only [Stream.remaining]
      cases hhas : page.hasMore with
      | true =>
        have hpos := hmore hhas
        simp only [if_true]
        omega
      | false =>
        simp only [Bool.false_eq_true, if_false]
        split_ifs <;> omega
  | telling items nextCursor hasMore =>
    cases items with
    | cons item items =>
      obtain ⟨rfl, rfl⟩ := Prod.mk.inj (Option.some.inj h)
      refine ⟨?_, rfl, rfl, by simp [Stream.exhausted]⟩
      simp only [Stream.remaining, Stream.exhausted, Option.any_none, Bool.false_eq_true, if_false,
        List.length_cons]
      omega
    | nil =>
      cases hasMore with
      | true =>
        obtain ⟨rfl, rfl⟩ := Prod.mk.inj (Option.some.inj h)
        refine ⟨?_, rfl, rfl, by simp⟩
        simp only [Stream.remaining, if_true, List.length_nil]
        show 3 * t.left nextCursor.sequence + 3 + _ < _
        omega
      | false =>
        simp only [Stream.advance, Bool.false_eq_true, if_false] at h
        have hlt : ∀ n, n < 0 + 1 + n := fun n => by omega
        split_ifs at h <;> obtain ⟨rfl, rfl⟩ := Prod.mk.inj (Option.some.inj h) <;>
          exact ⟨hlt _, rfl, rfl, by simp⟩
  | told =>
    cases timedOut with
    | true =>
      obtain ⟨rfl, rfl⟩ := Prod.mk.inj (Option.some.inj h)
      exact ⟨Nat.lt_succ_self _, rfl, rfl, by simp⟩
    | false =>
      obtain ⟨rfl, rfl⟩ := Prod.mk.inj (Option.some.inj h)
      exact ⟨Nat.one_pos, rfl, rfl, by simp⟩
  | waiting => simp [Stream.advance] at h
  | returned => simp [Stream.advance] at h

/-- A stream that does not go on by itself waits or has returned. -/
theorem Stream.stops (h : s.advance authority t = none) :
    s.phase = .waiting ∨ s.phase = .returned := by
  unfold Stream.advance at h
  cases hphase : s.phase with
  | reading =>
    simp only [hphase] at h
    cases hhistory : history authority t s.cursor 100 <;> rw [hhistory] at h <;> cases h
  | telling items nextCursor hasMore =>
    cases items with
    | cons item items => simp [hphase] at h
    | nil =>
      simp only [hphase] at h
      split_ifs at h
  | told =>
    simp only [hphase] at h
    split_ifs at h
  | waiting => exact Or.inl rfl
  | returned => exact Or.inr rfl

/-- A stream has read the whole table, where it says that it has read everything. -/
def Stream.ReadAll (t : EventTable) (s : Stream) : Prop :=
  ∀ mark, s.mark = some mark → ∀ r ∈ t.rows, r.sequence ≤ mark

/-- While the table stays as it is, this does too: it is what a stream sees if all the rows are
those of its own process. -/
theorem Stream.ReadAll.advance (hread : s.ReadAll t) (hlimit : s.maxEvents = none)
    (h : s.advance authority t = some (s', outputs)) : s'.ReadAll t := by
  let τ : System :=
    { authority, table := t, commitGeneration := s.commitGeneration, committing := 0,
      connection := none, start := none, received := [], inserted := [],
      ours := t.rows.map EventRow.sequence }
  have hawake : Awake τ s := ⟨Nat.le_refl _, fun mark hmark => Or.inl fun r hr _ => hread mark hmark r hr⟩
  intro mark hmark r hr
  rcases (Awake.advance (σ := τ) hawake h).seen mark hmark with hseen | hlt
  · exact hseen r hr (List.mem_map_of_mem hr)
  · rw [(remaining_advance hlimit h).2.2.1] at hlt
    exact absurd hlt (Nat.lt_irrefl _)

variable {σ : System}

/-- **A stream of which it is known how it goes on.** -/
structure Reading (σ : System) (c : Connection) : Prop where
  inv : Inv σ
  connection : σ.connection = some c
  limit : c.stream.maxEvents = none
  read : c.stream.ReadAll σ.table
  returned : c.stream.phase = .returned → resynced (σ.received ++ c.inFlight) = true

/-- A step of the system in which the stream goes on. -/
theorem Reading.advance {c : Connection} (h : Reading σ c)
    (hadvance : c.stream.advance σ.authority σ.table = some (s', outputs)) :
    σ.step .advance = some { σ with connection := some ⟨s', c.inFlight ++ outputs⟩ } ∧
      Reading { σ with connection := some ⟨s', c.inFlight ++ outputs⟩ } ⟨s', c.inFlight ++ outputs⟩ := by
  have hstep : σ.step .advance = some { σ with connection := some ⟨s', c.inFlight ++ outputs⟩ } := by
    simp [System.step, h.connection, hadvance]
  obtain ⟨-, hlimit, -, hreturned⟩ := remaining_advance h.limit hadvance
  refine ⟨hstep, h.inv.step hstep, rfl, hlimit, h.read.advance h.limit hadvance, fun hphase => ?_⟩
  show resynced (σ.received ++ (c.inFlight ++ outputs)) = true
  rw [resynced_append, resynced_append, hreturned hphase, Bool.or_true, Bool.or_true]

/-- The stream goes on to where it waits or has returned. -/
theorem Reading.drain {c : Connection} (h : Reading σ c) :
    ∃ n σ' c', TransitionSystem.replay System.step σ (List.replicate n .advance) = some σ' ∧
      σ'.table = σ.table ∧ σ'.received = σ.received ∧ σ'.start = σ.start ∧ Reading σ' c' ∧
      (c'.stream.phase = .waiting ∨ c'.stream.phase = .returned) := by
  induction hn : c.stream.remaining σ.table using Nat.strong_induction_on generalizing σ c with
  | _ n ih =>
    cases hadvance : c.stream.advance σ.authority σ.table with
    | none =>
      exact ⟨0, σ, c, rfl, rfl, rfl, rfl, h, Stream.stops hadvance⟩
    | some r =>
      obtain ⟨s', outputs⟩ := r
      obtain ⟨hstep, hreading⟩ := h.advance hadvance
      obtain ⟨m, σ', c', hrun, htable, hreceived, hstart, hend⟩ :=
        ih _ (hn ▸ (remaining_advance h.limit hadvance).1) hreading rfl
      refine ⟨m + 1, σ', c', ?_, htable, hreceived, hstart, hend⟩
      rw [List.replicate_succ, TransitionSystem.replay, hstep]
      exact hrun

/-- **A stream catches up by its own steps.** From where it begins to read it comes to wait, and
then every production event in the table was told, or it tells the client to begin anew. -/
theorem catches_up (h : System.system.Reachable σ) {c : Connection} (hc : σ.connection = some c)
    (hphase : c.stream.phase = .reading) (hlimit : c.stream.maxEvents = none) :
    ∃ n σ' c', TransitionSystem.replay System.step σ (List.replicate n .advance) = some σ' ∧
      σ'.connection = some c' ∧
      (resynced (σ.received ++ c'.inFlight) = true ∨
        c'.stream.phase = .waiting ∧ ∀ r ∈ σ.table.rows, r.operatorScope = .production →
          place σ.start < r.sequence →
          ∃ generation, event r generation ∈ events (σ.received ++ c'.inFlight)) := by
  have hreading : Reading σ c := by
    refine ⟨inv_of_reachable h, hc, hlimit, fun mark hmark => ?_, fun hreturned => ?_⟩
    · simp [Stream.mark, hphase] at hmark
    · simp [hphase] at hreturned
  obtain ⟨n, σ', c', hrun, htable, hreceived, hstart, hend, hwaits⟩ := hreading.drain
  refine ⟨n, σ', c', hrun, hend.connection, ?_⟩
  rw [← hreceived, ← htable, ← hstart]
  rcases hwaits with hwaits | hreturned
  · refine Or.inr ⟨hwaits, fun r hr hscope hlt => ?_⟩
    have hmark : c'.stream.mark = some (place c'.stream.cursor) := by rw [Stream.mark, hwaits]
    have hle := hend.read _ hmark r hr
    have hstands := hend.inv.stands c' hend.connection
    have hresynced := hstands.resynced (by simp [hwaits])
    have hbase := hend.inv.base
    rw [System.outputs_of_some hend.connection] at hbase
    rw [hstands.cursor (by simp [hwaits])] at hle
    cases hlast : lastId σ'.start (σ'.received ++ c'.inFlight) with
    | none =>
      rw [hlast] at hle
      exact absurd hle ((Nat.zero_le _).trans_lt hlt).not_ge
    | some d =>
      rw [hlast] at hle
      exact ⟨_, hbase.prefix.told hresynced hlast hr hscope hlt hle⟩
  · exact Or.inl (hend.returned hreturned)

/-- A client whose connection was just opened. -/
theorem catches_up_at_once : ∃ σ c n σ' c', System.system.Reachable σ ∧ σ.connection = some c ∧
    TransitionSystem.replay System.step σ (List.replicate n .advance) = some σ' ∧
    σ'.connection = some c' ∧ (resynced (σ.received ++ c'.inFlight) = true ∨
      c'.stream.phase = .waiting ∧ ∃ generation,
        event sampleEvent generation ∈ events (σ.received ++ c'.inFlight)) := by
  have hreach := reachable_sampleControlPlane.replay (sampleLoss.take 3) rfl
  obtain ⟨n, σ', c', hrun, hc', hend⟩ := catches_up hreach rfl rfl rfl
  refine ⟨_, _, n, σ', c', hreach, rfl, hrun, hc', hend.imp id fun hwaits => ?_⟩
  exact ⟨hwaits.1, hwaits.2 sampleEvent (by decide) rfl (by decide)⟩

end Dashboard
