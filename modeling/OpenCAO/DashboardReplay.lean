import OpenCAO.DashboardStream

/-!
# What the dashboard is told

The client of the event stream loses its connection at any time, and with it the frames that
were under way; the table loses rows and gets new ones meanwhile. All that the client
ever got is one replay (`LogReplay.Replays`) nevertheless, over all its connections, since a
stream begins where the last frame that arrived ended. So no event is told twice, events come
in their order, and they are events of one generation of the authority (`told_once`). What
stands in the table up to the last frame was told (`told_upto`): an event is missed only if it
was thrown out before it was read.

A stream waits without polling, and no event is overlooked by this. The number of commits is
read before the table is, and a transaction is counted after it is committed; so an event
of this process that a waiting stream has not seen is one whose transaction is going to wake it,
or has woken it already (`no_lost_wakeup`).
-/

namespace Dashboard

open LogReplay (Replays position Frame)

/-! ## Frames as a replay -/

/-- The place a frame is at. -/
def Output.place : Output → Option DashboardCursor
  | .event item => some item.cursor
  | .synced cursor => some cursor
  | .heartbeat => none
  | .resyncRequired _ => none

/-- A frame, as a frame of a replay of sequences. -/
def Output.frame : Output → Frame ℕ ℕ
  | .event item => .row item.cursor.sequence
  | .synced cursor => .barrier cursor.sequence
  | .heartbeat => .quiet
  | .resyncRequired _ => .quiet

/-- The sequence of a cursor; the history begins at `0`. -/
def place (c : Option DashboardCursor) : ℕ := (c.map DashboardCursor.sequence).getD 0

/-- The events that were told. -/
def events (frames : List Output) : List Item := frames.filterMap fun
  | .event item => some item
  | _ => none

/-- The cursors that a client has come by. -/
def places (start : Option DashboardCursor) (frames : List Output) : List DashboardCursor :=
  start.toList ++ frames.filterMap Output.place

/-- The sequences of the events in the table that are visible to the operator. -/
def EventTable.Shown (t : EventTable) (n : ℕ) : Prop :=
  ∃ r ∈ t.rows, r.operatorScope = .production ∧ r.sequence = n

/-- The frames that a stream is going to yield before it reads again. -/
def Phase.script : Phase → List Output
  | .telling items nextCursor hasMore =>
    items.map .event ++ if hasMore then [] else [.synced nextCursor]
  | _ => []

variable {t : EventTable} {inserted : List EventRow} {start : Option DashboardCursor}
  {frames frames' : List Output}

theorem lastId_append : lastId start (frames ++ frames') = lastId (lastId start frames) frames' :=
  List.foldl_append

theorem events_append : events (frames ++ frames') = events frames ++ events frames' :=
  List.filterMap_append

theorem resynced_append :
    resynced (frames ++ frames') = (resynced frames || resynced frames') := List.any_append

theorem mem_events {i : Item} : i ∈ events frames ↔ .event i ∈ frames := by
  induction frames with
  | nil => simp [events]
  | cons o frames ih => cases o <;> simp_all [events]

/-- What a client was told, as a replay tells it. -/
theorem told_frames :
    LogReplay.told (frames.map Output.frame) = (events frames).map fun i => i.cursor.sequence := by
  induction frames with
  | nil => rfl
  | cons o frames ih => cases o <;> simp_all [events, Output.frame]

/-- The position of a replay is that of the cursor. -/
theorem position_frames (h : resynced frames = false) :
    position id (place start) (frames.map Output.frame) = place (lastId start frames) := by
  induction frames generalizing start with
  | nil => rfl
  | cons o frames ih =>
    cases o with
    | event item => exact @ih (some item.cursor) h
    | synced cursor => exact @ih (some cursor) h
    | heartbeat => exact ih h
    | resyncRequired page => exact nomatch h

/-- The cursor is one that the client has come by. -/
theorem mem_places_of_lastId (h : resynced frames = false) {c : DashboardCursor}
    (hc : lastId start frames = some c) : c ∈ places start frames := by
  induction frames generalizing start with
  | nil =>
    obtain rfl : start = some c := hc
    exact List.mem_cons_self
  | cons o frames ih =>
    have hskip : ∀ d, c ∈ places (some d) frames →
        c ∈ start.toList ++ d :: frames.filterMap Output.place :=
      fun d hd => List.mem_append_right _ hd
    cases o with
    | event item => exact hskip _ (@ih (some item.cursor) h hc)
    | synced cursor => exact hskip _ (@ih (some cursor) h hc)
    | heartbeat => exact ih h hc
    | resyncRequired page => exact nomatch h

/-- Without a cursor no frame had a place. -/
theorem places_eq_nil (h : resynced frames = false) (hnone : lastId start frames = none) :
    places start frames = [] := by
  induction frames generalizing start with
  | nil =>
    obtain rfl : start = none := hnone
    rfl
  | cons o frames ih =>
    cases o with
    | event item => exact absurd (@ih (some item.cursor) h hnone) (List.cons_ne_nil _ _)
    | synced cursor => exact absurd (@ih (some cursor) h hnone) (List.cons_ne_nil _ _)
    | heartbeat => exact ih h hnone
    | resyncRequired page => exact nomatch h

/-! ## What a page says -/

theorem EventTable.le_lastSequence (t : EventTable) : ∀ r ∈ t.rows, r.sequence ≤ t.lastSequence := by
  intro r hr
  have hne : t.rows ≠ [] := List.ne_nil_of_mem hr
  have hlast : t.lastSequence = (t.rows.getLast hne).sequence := by
    simp [EventTable.lastSequence, List.getLast?_eq_some_getLast hne]
  rw [hlast]
  have hsplit := List.dropLast_append_getLast hne
  have hpair := t.ordered
  rw [← hsplit] at hr hpair
  rcases List.mem_append.mp hr with hr | hr
  · exact ((List.pairwise_append.mp hpair).2.2 r hr _ List.mem_cons_self).le
  · rw [List.mem_singleton.mp hr]

theorem EventTable.lastSequence_le (t : EventTable) : t.lastSequence ≤ t.last := by
  unfold EventTable.lastSequence
  cases hlast : t.rows.getLast? with
  | none => exact Nat.zero_le _
  | some r => exact (t.within r (List.mem_of_getLast? hlast)).2

/-- **What a client may have been told**, with the table as it is. -/
structure Sound (t : EventTable) (inserted : List EventRow) (start : Option DashboardCursor)
    (frames : List Output) : Prop where
  replays : Replays id t.Shown (place start) (frames.map Output.frame)
  events : ∀ i ∈ events frames, ∃ r ∈ inserted, r.operatorScope = .production ∧
    i = event r i.cursor.authorityGeneration
  within : ∀ c ∈ frames.filterMap Output.place, c.sequence ≤ t.last
  uniform : ∀ c ∈ places start frames, ∀ d ∈ places start frames,
    c.authorityGeneration = d.authorityGeneration

/-- **A page goes on where its cursor is.** -/
structure Continues (t : EventTable) (after : Option DashboardCursor) (page : Page) : Prop where
  replays : Replays id t.Shown (place after)
    ((Phase.telling page.items page.nextCursor page.hasMore).script.map Output.frame)
  items : ∀ i ∈ page.items, ∃ r ∈ t.rows, r.operatorScope = .production ∧
    i = event r page.authority.generation
  generation : ∀ c, after = some c → c.authorityGeneration = page.authority.generation
  next : page.nextCursor.authorityGeneration = page.authority.generation
  within : page.nextCursor.sequence ≤ t.last
  last : lastId after (Phase.telling page.items page.nextCursor page.hasMore).script
    = some page.nextCursor
  seen : page.hasMore = false → ∀ r ∈ t.rows, r.sequence ≤ page.nextCursor.sequence

/-- The events behind a position, in their order. -/
theorem EventTable.mem_production {t : EventTable} {after upto : ℕ} {r : EventRow} :
    r ∈ t.production after upto ↔
      r ∈ t.rows ∧ r.operatorScope = .production ∧ after < r.sequence ∧ r.sequence ≤ upto := by
  simp [EventTable.production]

theorem EventTable.pairwise_production (t : EventTable) (after upto : ℕ) :
    (t.production after upto).Pairwise fun a b => a.sequence < b.sequence := t.ordered.filter _

/-- **The front of the events behind a position replays them.** -/
theorem EventTable.replays_front {t : EventTable} {p : ℕ} {front back : List EventRow}
    (h : t.production p t.lastSequence = front ++ back) :
    Replays id t.Shown p ((front.map EventRow.sequence).map Frame.row) := by
  have hmem : ∀ r, r ∈ front ∨ r ∈ back ↔ r ∈ t.rows ∧ r.operatorScope = .production ∧
      p < r.sequence ∧ r.sequence ≤ t.lastSequence := fun r => by
    rw [← List.mem_append, ← h, EventTable.mem_production]
  have hpair := t.pairwise_production p t.lastSequence
  rw [h] at hpair
  obtain ⟨hfront, -, hcross⟩ := List.pairwise_append.mp hpair
  refine LogReplay.replays_rows ?_ (List.pairwise_map.mpr hfront) ?_
  · rintro _ hn
    obtain ⟨r, hr, rfl⟩ := List.mem_map.mp hn
    exact ((hmem r).mp (Or.inl hr)).2.2.1
  · rintro _ ⟨r, hr, hscope, rfl⟩ hlt
    rcases (hmem r).mpr ⟨hr, hscope, hlt, t.le_lastSequence r hr⟩ with hin | hin
    · exact Or.inl (List.mem_map_of_mem hin)
    · refine Or.inr ?_
      rintro _ hn
      obtain ⟨q, hq, rfl⟩ := List.mem_map.mp hn
      exact hcross q hq r hin

/-- **Everything behind a position replays it**, and the end of the table may be told then. -/
theorem EventTable.replays_all {t : EventTable} {p : ℕ} (hp : p ≤ t.lastSequence) :
    Replays id t.Shown p (((t.production p t.lastSequence).map EventRow.sequence).map Frame.row
      ++ [.barrier t.lastSequence]) := by
  have hreplay : Replays id t.Shown p
      (((t.production p t.lastSequence).map EventRow.sequence).map Frame.row) :=
    t.replays_front (List.append_nil _).symm
  have hupto : ∀ n ∈ (t.production p t.lastSequence).map EventRow.sequence,
      n ≤ t.lastSequence := by
    rintro _ hn
    obtain ⟨r, hr, rfl⟩ := List.mem_map.mp hn
    exact (EventTable.mem_production.mp hr).2.2.2
  refine LogReplay.replays_append.mpr ⟨hreplay, ⟨LogReplay.position_rows_le hp hupto, ?_⟩, trivial⟩
  rintro _ ⟨r, hr, hscope, rfl⟩ hbehind
  -- Such an event would be among those that were told.
  have htold := hreplay.within r.sequence ?_
  · exact absurd hbehind htold.2.not_gt
  · have hmem := EventTable.mem_production.mpr
      ⟨hr, hscope, hreplay.le.trans_lt hbehind, t.le_lastSequence r hr⟩
    exact LogReplay.mem_told.mpr (List.mem_map_of_mem (List.mem_map_of_mem hmem))

/-- The cursor of a page that is behind its last event. -/
theorem lastId_events (items : List Item) (i : Item) :
    lastId start ((items ++ [i]).map Output.event) = some i.cursor := by
  rw [List.map_append, lastId_append]
  rfl

/-- **A page of the history.** -/
theorem continues_of_history {authority : Option Authority} {after : Option DashboardCursor}
    {limit : ℤ} {page : Page} (h : history authority t after limit = .inr page) :
    Continues t after page := by
  unfold history at h
  dsimp only at h
  split_ifs at h with hgeneration hbounds
  obtain rfl := Sum.inr.inj h
  set generation := (authority.getD ⟨Text.ofString "missing", 0⟩).generation with hg
  have hplace : (after.getD ⟨generation, 0⟩).sequence = place after := by cases after <;> rfl
  rw [hplace] at hbounds ⊢
  have hle : place after ≤ t.lastSequence := by omega
  set rows := t.production (place after) t.lastSequence with hrows
  have hpositive : 0 < (min (max limit 1) 1000).toNat := by omega
  have hshown : ∀ r ∈ (Paging.cut (min (max limit 1) 1000).toNat rows).1, r ∈ rows := by
    rw [Paging.cut_fst]
    exact fun r hr => List.mem_of_mem_take hr
  have hframes : ∀ rows : List EventRow,
      ((rows.map fun raw => event raw generation).map Output.event).map Output.frame
        = (rows.map EventRow.sequence).map Frame.row := by
    intro rows
    simp only [List.map_map]
    rfl
  refine
    { replays := ?_, items := ?_, generation := ?_, next := rfl, within := ?_, last := ?_
      seen := ?_ }
  · cases hmore : (Paging.cut (min (max limit 1) 1000).toNat rows).2 with
    | none =>
      have hall := Paging.cut_of_none hpositive hmore
      show Replays id t.Shown _ (((_ : List Item).map Output.event ++ [Output.synced _]).map Output.frame)
      rw [hall, List.map_append, hframes]
      exact t.replays_all hle
    | some r =>
      obtain ⟨front, hfront, hback⟩ := Paging.cut_of_some hmore
      show Replays id t.Shown _ (((_ : List Item).map Output.event ++ []).map Output.frame)
      rw [List.append_nil, hframes, hfront]
      have hsplit : t.production (place after) t.lastSequence
          = (front ++ [r]) ++ rows.drop (min (max limit 1) 1000).toNat := by
        rw [List.append_assoc]
        exact hback
      exact t.replays_front hsplit
  · intro i hi
    obtain ⟨r, hr, rfl⟩ := List.mem_map.mp hi
    have hprod := EventTable.mem_production.mp (hshown r hr)
    exact ⟨r, hprod.1, hprod.2.1, rfl⟩
  · rintro c rfl
    exact not_not.mp hgeneration
  · cases hmore : (Paging.cut (min (max limit 1) 1000).toNat rows).2 with
    | none => exact t.lastSequence_le
    | some r =>
      obtain ⟨front, -, hback⟩ := Paging.cut_of_some hmore
      have hr : r ∈ rows := hback ▸ List.mem_append_right _ List.mem_cons_self
      exact (t.within r (EventTable.mem_production.mp hr).1).2
  · cases hmore : (Paging.cut (min (max limit 1) 1000).toNat rows).2 with
    | none => exact lastId_append
    | some r =>
      obtain ⟨front, hfront, -⟩ := Paging.cut_of_some hmore
      show lastId after (((_ : List EventRow).map _).map Output.event ++ []) = _
      rw [List.append_nil, hfront, List.map_append]
      exact lastId_events _ (event r generation)
  · intro hmore
    rw [Option.isSome_eq_false_iff, Option.isNone_iff_eq_none] at hmore
    dsimp only
    rw [hmore]
    exact t.le_lastSequence

/-! ## The table goes on -/

/-- A frame is before whatever is added to the table. -/
theorem Sound.precedes (h : Sound t inserted start frames) {n : ℕ} (hn : t.last < n) :
    ∀ f ∈ frames.map Output.frame, f.Precedes id n := by
  intro f hf
  obtain ⟨o, ho, rfl⟩ := List.mem_map.mp hf
  have hplace : ∀ c, o.place = some c → c.sequence < n := fun c hc =>
    (h.within c (List.mem_filterMap.mpr ⟨o, ho, hc⟩)).trans_lt hn
  cases o with
  | event item => exact hplace _ rfl
  | synced cursor => exact hplace _ rfl
  | heartbeat => trivial
  | resyncRequired page => trivial

theorem Sound.prefix (h : Sound t inserted start (frames ++ frames')) :
    Sound t inserted start frames where
  replays := by
    have hreplays := h.replays
    rw [List.map_append, LogReplay.replays_append] at hreplays
    exact hreplays.1
  events i hi := h.events i (by rw [events_append]; exact List.mem_append_left _ hi)
  within c hc := h.within c (by rw [List.filterMap_append]; exact List.mem_append_left _ hc)
  uniform := by
    have hsub : ∀ c ∈ places start frames, c ∈ places start (frames ++ frames') := by
      intro c hc
      rw [places, List.filterMap_append, ← List.append_assoc]
      exact List.mem_append_left _ hc
    exact fun c hc d hd => h.uniform c (hsub c hc) d (hsub d hd)

/-- A frame that says nothing of the events. -/
theorem Sound.quiet (h : Sound t inserted start frames) {o : Output} (hplace : o.place = none)
    (hframe : o.frame = .quiet) (hevents : Dashboard.events [o] = []) :
    Sound t inserted start (frames ++ [o]) where
  replays := by
    rw [List.map_append, LogReplay.replays_append, List.map_singleton, hframe]
    exact ⟨h.replays, trivial, trivial⟩
  events i hi := by
    rw [events_append, hevents, List.append_nil] at hi
    exact h.events i hi
  within c hc := by
    rw [List.filterMap_append, List.filterMap_cons_none hplace, List.filterMap_nil,
      List.append_nil] at hc
    exact h.within c hc
  uniform := by
    rw [places, List.filterMap_append, List.filterMap_cons_none hplace, List.filterMap_nil,
      List.append_nil]
    exact h.uniform

/-- **A page follows what was told before it.** -/
theorem Sound.continues {page : Page} (h : Sound t inserted start frames)
    (hrows : ∀ r ∈ t.rows, r ∈ inserted) (hresynced : resynced frames = false)
    (hpage : Continues t (lastId start frames) page) :
    Sound t inserted start
      (frames ++ (Phase.telling page.items page.nextCursor page.hasMore).script) := by
  have hplaces : ∀ c ∈ (Phase.telling page.items page.nextCursor page.hasMore).script.filterMap
      Output.place, c.authorityGeneration = page.authority.generation ∧ c.sequence ≤ t.last := by
    intro c hc
    obtain ⟨o, ho, hplace⟩ := List.mem_filterMap.mp hc
    rcases List.mem_append.mp ho with ho | ho
    · obtain ⟨i, hi, rfl⟩ := List.mem_map.mp ho
      obtain ⟨r, hr, -, rfl⟩ := hpage.items i hi
      obtain rfl := Option.some.inj hplace
      exact ⟨rfl, (t.within r hr).2⟩
    · split_ifs at ho with hmore
      · exact absurd ho List.not_mem_nil
      · obtain rfl := List.mem_singleton.mp ho
        obtain rfl := Option.some.inj hplace
        exact ⟨hpage.next, hpage.within⟩
  refine { replays := ?_, events := ?_, within := ?_, uniform := ?_ }
  · rw [List.map_append, LogReplay.replays_append, position_frames hresynced]
    exact ⟨h.replays, hpage.replays⟩
  · intro i hi
    rw [events_append] at hi
    rcases List.mem_append.mp hi with hi | hi
    · exact h.events i hi
    · have hmem : i ∈ page.items := by
        rcases List.mem_append.mp (mem_events.mp hi) with hi | hi
        · simpa using hi
        · split_ifs at hi <;> simp at hi
      obtain ⟨r, hr, hscope, rfl⟩ := hpage.items i hmem
      exact ⟨r, hrows r hr, hscope, rfl⟩
  · intro c hc
    rw [List.filterMap_append] at hc
    exact (List.mem_append.mp hc).elim (h.within c) fun hc => (hplaces c hc).2
  · -- All are of the generation of the page, unless there was no cursor before it.
    have hgeneration : ∀ c ∈ places start
        (frames ++ (Phase.telling page.items page.nextCursor page.hasMore).script),
        c.authorityGeneration = page.authority.generation := by
      intro c hc
      rw [places, List.filterMap_append, ← List.append_assoc] at hc
      rcases List.mem_append.mp hc with hc | hc
      · cases hlast : lastId start frames with
        | none => exact absurd hc (by
            rw [← places, places_eq_nil hresynced hlast]
            exact List.not_mem_nil)
        | some d =>
          rw [h.uniform c hc d (mem_places_of_lastId hresynced hlast)]
          exact hpage.generation d hlast
      · exact (hplaces c hc).1
    exact fun c hc d hd => (hgeneration c hc).trans (hgeneration d hd).symm

/-- Rows are thrown out. -/
theorem Sound.delete (h : Sound t inserted start frames) (sequences : List ℕ) :
    Sound (t.delete sequences) inserted start frames where
  replays := h.replays.of_rows fun _ ⟨r, hr, hscope, hn⟩ =>
    Or.inl ⟨r, List.mem_of_mem_filter hr, hscope, hn⟩
  events := h.events
  within := h.within
  uniform := h.uniform

/-- A row is added. -/
theorem Sound.insert (h : Sound t inserted start frames) (e : NewEvent) (r : EventRow) :
    Sound (t.insert e) (inserted ++ [r]) start frames where
  replays := by
    refine h.replays.of_rows ?_
    rintro _ ⟨s, hs, hscope, rfl⟩
    rcases List.mem_append.mp hs with hs | hs
    · exact Or.inl ⟨s, hs, hscope, rfl⟩
    · obtain rfl := List.mem_singleton.mp hs
      exact Or.inr (h.precedes (Nat.lt_succ_self _))
  events i hi := by
    obtain ⟨s, hs, hscope⟩ := h.events i hi
    exact ⟨s, List.mem_append_left _ hs, hscope⟩
  within c hc := Nat.le_succ_of_le (h.within c hc)
  uniform := h.uniform

/-- **What is kept of the rows**, and of what was told of them. -/
structure Base (σ : System) (frames : List Output) : Prop where
  inserted : ∀ r ∈ σ.table.rows, r ∈ σ.inserted
  unique : ∀ a ∈ σ.inserted, ∀ b ∈ σ.inserted, a.sequence = b.sequence → a = b
  within : ∀ a ∈ σ.inserted, a.sequence ≤ σ.table.last
  ours : ∀ n ∈ σ.ours, n ≤ σ.table.last
  sound : Sound σ.table σ.inserted σ.start frames

variable {σ σ' : System}

theorem Base.delete (h : Base σ frames) (sequences : List ℕ) :
    Base { σ with table := σ.table.delete sequences } frames where
  inserted r hr := h.inserted r (List.mem_of_mem_filter hr)
  unique := h.unique
  within := h.within
  ours := h.ours
  sound := h.sound.delete sequences

theorem Base.insert (h : Base σ frames) (ours : Bool) (e : NewEvent) :
    Base (σ.insert ours e) frames where
  inserted r hr := by
    rcases List.mem_append.mp hr with hr | hr
    · exact List.mem_append_left _ (h.inserted r hr)
    · exact List.mem_append_right _ hr
  unique a ha b hb heq := by
    have hbelow : ∀ a ∈ σ.inserted, a.sequence ≠ σ.table.last + 1 := fun a ha hlast => by
      have := h.within a ha
      omega
    rcases List.mem_append.mp ha with ha | ha <;> rcases List.mem_append.mp hb with hb | hb
    · exact h.unique a ha b hb heq
    · rw [List.mem_singleton.mp hb] at heq
      exact absurd heq (hbelow a ha)
    · rw [List.mem_singleton.mp ha] at heq
      exact absurd heq.symm (hbelow b hb)
    · rw [List.mem_singleton.mp ha, List.mem_singleton.mp hb]
  within a ha := by
    rcases List.mem_append.mp ha with ha | ha
    · exact Nat.le_succ_of_le (h.within a ha)
    · rw [List.mem_singleton.mp ha]
      exact Nat.le_refl _
  ours n hn := by
    show n ≤ σ.table.last + 1
    have hn : n ∈ σ.ours ∨ n = σ.table.last + 1 := by
      cases ours with
      | true => simpa [System.insert] using hn
      | false => exact Or.inl hn
    exact hn.elim (fun hn => Nat.le_succ_of_le (h.ours n hn)) fun hn => hn.le
  sound := h.sound.insert e _

/-- **The rows of this process up to a sequence are all there are.** -/
def Seen (σ : System) (mark : ℕ) : Prop := ∀ r ∈ σ.table.rows, r.sequence ∈ σ.ours → r.sequence ≤ mark

theorem Seen.insert {mark : ℕ} (hbase : Base σ frames) (h : Seen σ mark) (e : NewEvent) :
    Seen (σ.insert false e) mark := by
  intro r hr hours
  rcases List.mem_append.mp hr with hr | hr
  · exact h r hr hours
  · rw [List.mem_singleton.mp hr] at hours
    exact absurd (hbase.ours _ hours) (Nat.not_succ_le_self _)

/-- **A transaction keeps what was told.** -/
theorem Base.commit (h : Base σ frames) (ours : Bool) (deleted : List ℕ) (added : List NewEvent) :
    Base (added.foldl (System.insert ours) { σ with table := σ.table.delete deleted }) frames ∧
      ∀ mark, ours = false → Seen σ mark →
        Seen (added.foldl (System.insert ours) { σ with table := σ.table.delete deleted }) mark := by
  have hseen : ∀ mark, Seen σ mark → Seen { σ with table := σ.table.delete deleted } mark :=
    fun mark hmark r hr => hmark r (List.mem_of_mem_filter hr)
  replace h := h.delete deleted
  suffices hfold : ∀ τ : System, Base τ frames → Base (added.foldl (System.insert ours) τ) frames ∧
      ∀ mark, ours = false → Seen τ mark → Seen (added.foldl (System.insert ours) τ) mark by
    exact ⟨(hfold _ h).1, fun mark hours hmark => (hfold _ h).2 mark hours (hseen mark hmark)⟩
  induction added with
  | nil => exact fun τ hτ => ⟨hτ, fun _ _ hmark => hmark⟩
  | cons e added ih =>
    intro τ hτ
    refine ⟨(ih _ (hτ.insert ours e)).1, fun mark hours hmark => ?_⟩
    subst hours
    exact (ih _ (hτ.insert false e)).2 mark rfl (hmark.insert hτ e)

/-- A transaction leaves the client and the notifications alone. -/
theorem System.foldl_insert (ours : Bool) (added : List NewEvent) (σ : System) :
    (added.foldl (System.insert ours) σ).connection = σ.connection ∧
      (added.foldl (System.insert ours) σ).start = σ.start ∧
      (added.foldl (System.insert ours) σ).received = σ.received ∧
      (added.foldl (System.insert ours) σ).commitGeneration = σ.commitGeneration ∧
      (added.foldl (System.insert ours) σ).committing = σ.committing := by
  induction added generalizing σ with
  | nil => exact ⟨rfl, rfl, rfl, rfl, rfl⟩
  | cons e added ih => exact ih (σ.insert ours e)

/-! ## A stream goes on -/

/-- **Where a stream stands**, after the frames that it yielded. -/
structure Stands (start : Option DashboardCursor) (frames : List Output) (s : Stream) : Prop where
  resynced : s.phase ≠ .returned → resynced frames = false
  cursor : s.phase ≠ .returned → s.cursor = lastId start frames
  next : ∀ items nextCursor hasMore, s.phase = .telling items nextCursor hasMore →
    lastId start (frames ++ s.phase.script) = some nextCursor
  synchronized : ∀ c, s.synchronizedCursor = some c → .synced c ∈ frames

/-- Up to where a stream has read everything. -/
def Stream.mark (s : Stream) : Option ℕ :=
  match s.phase with
  | .telling _ nextCursor hasMore => if hasMore then none else some nextCursor.sequence
  | .told => some (place s.cursor)
  | .waiting => some (place s.cursor)
  | .reading => none
  | .returned => none

/-- **A stream is going to be woken** if there is something of this process to be read. -/
structure Awake (σ : System) (s : Stream) : Prop where
  le : s.commitGeneration ≤ σ.commitGeneration
  seen : ∀ mark, s.mark = some mark →
    Seen σ mark ∨ s.commitGeneration < σ.commitGeneration + σ.committing

/-- A barrier that was told once is not told again where it stands. -/
theorem lastId_of_synced {c : DashboardCursor}
    (h : Sound t inserted start (frames ++ [.synced c])) (hresynced : resynced frames = false)
    (hc : .synced c ∈ frames) : lastId start frames = some c := by
  have hreplays := h.replays
  rw [List.map_append, LogReplay.replays_append, position_frames hresynced] at hreplays
  obtain ⟨hbefore, ⟨hle, -⟩, -⟩ := hreplays
  have hge := hbefore.barrier_le (List.mem_map_of_mem hc)
  rw [position_frames hresynced] at hge
  have hmem : c ∈ places start frames :=
    List.mem_append_right _ (List.mem_filterMap.mpr ⟨_, hc, rfl⟩)
  cases hlast : lastId start frames with
  | none => exact absurd hmem (by rw [places_eq_nil hresynced hlast]; exact List.not_mem_nil)
  | some d =>
    rw [hlast] at hle hge
    have hd := mem_places_of_lastId hresynced hlast
    have hgeneration := h.prefix.uniform d hd c hmem
    obtain ⟨g, n⟩ := d
    obtain ⟨g', n'⟩ := c
    exact congrArg some (congrArg₂ DashboardCursor.mk hgeneration (Nat.le_antisymm hle hge))

/-- **A step of a stream.** -/
theorem advance_spec {authority : Option Authority} {s s' : Stream} {outputs : List Output}
    (hrows : ∀ r ∈ t.rows, r ∈ inserted)
    (hsound : Sound t inserted start (frames ++ s.phase.script)) (hstands : Stands start frames s)
    (h : s.advance authority t = some (s', outputs)) :
    Sound t inserted start (frames ++ outputs ++ s'.phase.script) ∧
      Stands start (frames ++ outputs) s' := by
  obtain ⟨cursor, synchronizedCursor, emitted, maxEvents, commitGeneration, timedOut, phase⟩ := s
  have hkeeps : ∀ c, synchronizedCursor = some c → Output.synced c ∈ frames ++ outputs :=
    fun c hc => List.mem_append_left _ (hstands.synchronized c hc)
  cases phase with
  | reading =>
    have hresynced := hstands.resynced (by simp)
    have hcursor : cursor = lastId start frames := hstands.cursor (by simp)
    have hsound : Sound t inserted start frames := hsound.prefix
    simp only [Stream.advance] at h
    cases hhistory : history authority t cursor 100 with
    | inl page =>
      rw [hhistory] at h
      obtain ⟨rfl, rfl⟩ := Prod.mk.inj (Option.some.inj h)
      refine ⟨?_, ⟨by simp, by simp, by simp, hkeeps⟩⟩
      exact (List.append_nil _).symm ▸ hsound.quiet rfl rfl rfl
    | inr page =>
      rw [hhistory] at h
      obtain ⟨rfl, rfl⟩ := Prod.mk.inj (Option.some.inj h)
      have hpage := hcursor ▸ continues_of_history hhistory
      rw [List.append_nil] at hkeeps ⊢
      refine ⟨hsound.continues hrows hresynced hpage, ⟨fun _ => hresynced, fun _ => hcursor, ?_, hkeeps⟩⟩
      rintro items nextCursor hasMore hphase
      obtain ⟨rfl, rfl, rfl⟩ := Phase.telling.inj hphase
      rw [lastId_append]
      exact hpage.last
  | telling items nextCursor hasMore =>
    have hresynced := hstands.resynced (by simp)
    have hnext := hstands.next _ _ _ rfl
    cases items with
    | cons item items =>
      obtain ⟨rfl, rfl⟩ := Prod.mk.inj (Option.some.inj h)
      have hscript : frames ++ (Phase.telling (item :: items) nextCursor hasMore).script
          = frames ++ [.event item] ++ (Phase.telling items nextCursor hasMore).script := by
        rw [List.append_assoc]
        rfl
      dsimp only at hsound hnext
      rw [hscript] at hsound hnext
      refine ⟨?_, ⟨fun _ => ?_, fun _ => ?_, ?_, hkeeps⟩⟩
      · dsimp only
        split_ifs
        · exact (List.append_nil _).symm ▸ hsound.prefix
        · exact hsound
      · rw [resynced_append, hresynced]
        rfl
      · rw [lastId_append]
        rfl
      · rintro items' nextCursor' hasMore' hphase
        dsimp only at hphase ⊢
        split_ifs at hphase ⊢ with hexhausted
        obtain ⟨rfl, rfl, rfl⟩ := Phase.telling.inj hphase
        exact hnext
    | nil =>
      cases hasMore with
      | true =>
        obtain ⟨rfl, rfl⟩ := Prod.mk.inj (Option.some.inj h)
        rw [List.append_nil] at hkeeps ⊢
        have hscript : frames ++ (Phase.telling [] nextCursor true).script = frames :=
          List.append_nil _
        dsimp only at hsound hnext
        rw [hscript] at hsound hnext
        refine ⟨(List.append_nil _).symm ▸ hsound, ⟨fun _ => hresynced, fun _ => hnext.symm, ?_, hkeeps⟩⟩
        exact fun _ _ _ hphase => nomatch hphase
      | false =>
        have hscript : (Phase.telling [] nextCursor false).script = [.synced nextCursor] := rfl
        dsimp only at hsound hnext
        rw [hscript] at hsound hnext
        simp only [Stream.advance, Bool.false_eq_true, if_false] at h
        split_ifs at h with hdiffers
        · obtain ⟨rfl, rfl⟩ := Prod.mk.inj (Option.some.inj h)
          refine ⟨(List.append_nil _).symm ▸ hsound, ⟨fun _ => ?_, fun _ => hnext.symm, ?_, ?_⟩⟩
          · rw [resynced_append, hresynced]
            rfl
          · exact fun _ _ _ hphase => nomatch hphase
          · rintro c hc
            obtain rfl := Option.some.inj hc
            exact List.mem_append_right _ List.mem_cons_self
        · obtain ⟨rfl, rfl⟩ := Prod.mk.inj (Option.some.inj h)
          rw [List.append_nil] at hkeeps ⊢
          have hsame := (not_not.mp hdiffers).symm
          have hlast := lastId_of_synced hsound hresynced (hstands.synchronized _ hsame)
          refine ⟨(List.append_nil _).symm ▸ hsound.prefix,
            ⟨fun _ => hresynced, fun _ => hlast.symm, ?_, hkeeps⟩⟩
          exact fun _ _ _ hphase => nomatch hphase
  | told =>
    have hresynced := hstands.resynced (by simp)
    have hcursor : cursor = lastId start frames := hstands.cursor (by simp)
    have hbefore : Sound t inserted start frames := hsound.prefix
    cases timedOut with
    | true =>
      obtain ⟨rfl, rfl⟩ := Prod.mk.inj (Option.some.inj h)
      have hquiet := hbefore.quiet (o := .heartbeat) rfl rfl rfl
      refine ⟨(List.append_nil _).symm ▸ hquiet, ⟨fun _ => ?_, fun _ => ?_, fun _ _ _ hphase => (nomatch hphase), hkeeps⟩⟩
      · rw [resynced_append, hresynced]
        rfl
      · rw [lastId_append]
        exact hcursor
    | false =>
      obtain ⟨rfl, rfl⟩ := Prod.mk.inj (Option.some.inj h)
      rw [List.append_nil] at hkeeps ⊢
      exact ⟨(List.append_nil _).symm ▸ hbefore, ⟨fun _ => hresynced, fun _ => hcursor,
        fun _ _ _ hphase => (nomatch hphase), hkeeps⟩⟩
  | waiting => exact nomatch h
  | returned => exact nomatch h

/-- A stream that goes on stays awake. -/
theorem Awake.advance {s s' : Stream} {outputs : List Output} (hawake : Awake σ s)
    (h : s.advance σ.authority σ.table = some (s', outputs)) : Awake σ s' := by
  obtain ⟨cursor, synchronizedCursor, emitted, maxEvents, commitGeneration, timedOut, phase⟩ := s
  have hle : commitGeneration ≤ σ.commitGeneration := hawake.le
  cases phase with
  | reading =>
    simp only [Stream.advance] at h
    cases hhistory : history σ.authority σ.table cursor 100 with
    | inl page =>
      rw [hhistory] at h
      obtain ⟨rfl, rfl⟩ := Prod.mk.inj (Option.some.inj h)
      exact ⟨hle, fun _ hmark => nomatch hmark⟩
    | inr page =>
      rw [hhistory] at h
      obtain ⟨rfl, rfl⟩ := Prod.mk.inj (Option.some.inj h)
      refine ⟨hle, fun mark hmark => Or.inl fun r hr _ => ?_⟩
      simp only [Stream.mark] at hmark
      split_ifs at hmark with hmore
      obtain rfl := Option.some.inj hmark
      exact (continues_of_history hhistory).seen (by simpa using hmore) r hr
  | telling items nextCursor hasMore =>
    cases items with
    | cons item items =>
      obtain ⟨rfl, rfl⟩ := Prod.mk.inj (Option.some.inj h)
      refine ⟨hle, fun mark hmark => hawake.seen mark ?_⟩
      simp only [Stream.mark] at hmark ⊢
      generalize Stream.exhausted _ (emitted + 1) = exhausted at hmark
      cases exhausted with
      | true => exact nomatch hmark
      | false => exact hmark
    | nil =>
      cases hasMore with
      | true =>
        obtain ⟨rfl, rfl⟩ := Prod.mk.inj (Option.some.inj h)
        exact ⟨hle, fun _ hmark => nomatch hmark⟩
      | false =>
        simp only [Stream.advance, Bool.false_eq_true, if_false] at h
        split_ifs at h
        · obtain ⟨rfl, rfl⟩ := Prod.mk.inj (Option.some.inj h)
          exact ⟨hle, hawake.seen⟩
        · obtain ⟨rfl, rfl⟩ := Prod.mk.inj (Option.some.inj h)
          exact ⟨hle, hawake.seen⟩
  | told =>
    cases timedOut with
    | true =>
      obtain ⟨rfl, rfl⟩ := Prod.mk.inj (Option.some.inj h)
      exact ⟨hle, fun _ hmark => nomatch hmark⟩
    | false =>
      obtain ⟨rfl, rfl⟩ := Prod.mk.inj (Option.some.inj h)
      exact ⟨hle, hawake.seen⟩
  | waiting => exact nomatch h
  | returned => exact nomatch h

/-- A stream that is woken reads again, from where it was. -/
theorem resume_spec {s s' : Stream} {observed : ℕ} (hle : s.commitGeneration ≤ observed)
    (h : s.resume observed = some s') :
    s.phase = .waiting ∧ s'.phase = .reading ∧ s'.cursor = s.cursor ∧
      s'.synchronizedCursor = s.synchronizedCursor ∧ s'.commitGeneration ≤ observed := by
  unfold Stream.resume at h
  split at h
  · next hphase =>
    split_ifs at h
    · obtain rfl := Option.some.inj h
      exact ⟨hphase, rfl, rfl, rfl, Nat.le_refl _⟩
    · obtain rfl := Option.some.inj h
      exact ⟨hphase, rfl, rfl, rfl, hle⟩
  · exact nomatch h

/-! ## The system goes on -/

/-- The frames that a client got, and those that are certain. -/
def System.outputs (σ : System) : List Output :=
  σ.received ++ match σ.connection with
    | none => []
    | some c => c.inFlight ++ c.stream.phase.script

/-- **The invariant.** -/
structure Inv (σ : System) : Prop where
  base : Base σ σ.outputs
  stands : ∀ c, σ.connection = some c → Stands σ.start (σ.received ++ c.inFlight) c.stream
  awake : ∀ c, σ.connection = some c → Awake σ c.stream

theorem Base.prefix (h : Base σ (frames ++ frames')) : Base σ frames :=
  ⟨h.inserted, h.unique, h.within, h.ours, h.sound.prefix⟩

theorem System.outputs_of_some {c : Connection} (h : σ.connection = some c) :
    σ.outputs = σ.received ++ c.inFlight ++ c.stream.phase.script := by
  rw [System.outputs, h, List.append_assoc]

theorem System.outputs_of_none (h : σ.connection = none) : σ.outputs = σ.received := by
  rw [System.outputs, h, List.append_nil]

theorem Inv.of_initial (h : System.Initial σ) : Inv σ := by
  have hframes : σ.outputs = [] := by rw [System.outputs_of_none h.connection, h.received]
  refine ⟨⟨h.inserted, h.unique, h.within, h.ours, ?_⟩, ?_, ?_⟩
  · rw [hframes]
    refine ⟨trivial, fun _ hi => absurd hi List.not_mem_nil, fun _ hc => absurd hc List.not_mem_nil, ?_⟩
    intro c hc d hd
    rw [places, List.filterMap_nil, List.append_nil, Option.mem_toList] at hc hd
    rw [Option.mem_unique hc hd]
  · intro c hc
    exact nomatch h.connection.symm.trans hc
  · intro c hc
    exact nomatch h.connection.symm.trans hc

theorem Inv.commit (h : Inv σ) (ours : Bool) (deleted : List ℕ) (added : List NewEvent)
    (authority : Option Authority) (hstep : σ.step (.commit ours deleted added authority) = some σ') :
    Inv σ' := by
  obtain rfl := Option.some.inj hstep
  obtain ⟨hbase, hseen⟩ := h.base.commit ours deleted added
  obtain ⟨hconnection, hstart, hreceived, hcommits, hcommitting⟩ :=
    System.foldl_insert ours added { σ with table := σ.table.delete deleted }
  set τ := added.foldl (System.insert ours) { σ with table := σ.table.delete deleted }
  have hframes : τ.outputs = σ.outputs := by
    unfold System.outputs
    rw [hconnection, hreceived]
  refine ⟨⟨hbase.inserted, hbase.unique, hbase.within, hbase.ours, ?_⟩, ?_, ?_⟩
  · show Sound τ.table τ.inserted τ.start τ.outputs
    rw [hframes]
    exact hbase.sound
  · intro c hc
    show Stands τ.start (τ.received ++ c.inFlight) c.stream
    rw [hstart, hreceived]
    exact h.stands c (hconnection.symm.trans hc)
  · intro c hc
    have hawake := h.awake c (hconnection.symm.trans hc)
    refine ⟨?_, fun mark hmark => ?_⟩
    · show c.stream.commitGeneration ≤ τ.commitGeneration
      rw [hcommits]
      exact hawake.le
    · show Seen τ mark ∨ c.stream.commitGeneration <
        τ.commitGeneration + (if ours then σ.committing + 1 else σ.committing)
      rw [hcommits]
      cases ours with
      | true => exact Or.inr (Nat.lt_succ_of_le (hawake.le.trans (Nat.le_add_right _ _)))
      | false => exact (hawake.seen mark hmark).imp (hseen mark rfl) id

/-- **Every step keeps the invariant.** -/
theorem Inv.step (h : Inv σ) {a : Action} (hstep : σ.step a = some σ') : Inv σ' := by
  cases a with
  | commit ours deleted added authority => exact h.commit ours deleted added authority hstep
  | notify =>
    obtain ⟨hpending, rfl⟩ := TransitionSystem.of_guarded hstep
    refine ⟨⟨h.base.inserted, h.base.unique, h.base.within, h.base.ours, h.base.sound⟩, h.stands,
      fun c hc => ⟨Nat.le_succ_of_le (h.awake c hc).le, fun mark hmark => ?_⟩⟩
    refine ((h.awake c hc).seen mark hmark).imp id fun hlt => ?_
    show c.stream.commitGeneration < σ.commitGeneration + 1 + (σ.committing - 1)
    omega
  | connect limit =>
    obtain ⟨⟨hnone, hresynced⟩, rfl⟩ := TransitionSystem.of_guarded hstep
    have hframes := System.outputs_of_none (Option.isNone_iff_eq_none.mp hnone)
    refine ⟨⟨h.base.inserted, h.base.unique, h.base.within, h.base.ours, ?_⟩, ?_, ?_⟩
    · have hsound := h.base.sound
      rw [hframes] at hsound
      show Sound σ.table σ.inserted σ.start (σ.received ++ [])
      rw [List.append_nil]
      exact hsound
    · intro c hc
      obtain rfl := Option.some.inj hc
      have hnil := List.append_nil σ.received
      exact ⟨fun _ => hnil.symm ▸ hresynced, fun _ => hnil.symm ▸ rfl,
        fun _ _ _ hphase => (nomatch hphase), fun _ hc => (nomatch hc)⟩
    · intro c hc
      obtain rfl := Option.some.inj hc
      exact ⟨Nat.le_refl _, fun _ hmark => (nomatch hmark)⟩
  | advance =>
    obtain ⟨c, hc, hstep⟩ := Option.bind_eq_some_iff.mp hstep
    obtain ⟨⟨stream, outputs⟩, hadvance, hstep⟩ := Option.bind_eq_some_iff.mp hstep
    obtain rfl := Option.some.inj hstep
    have hsound := h.base.sound
    rw [System.outputs_of_some hc] at hsound
    obtain ⟨hsound, hstands⟩ := advance_spec h.base.inserted hsound (h.stands c hc) hadvance
    refine ⟨⟨h.base.inserted, h.base.unique, h.base.within, h.base.ours, ?_⟩, ?_, ?_⟩
    · rw [System.outputs_of_some rfl]
      simpa only [List.append_assoc] using hsound
    · intro c' hc'
      obtain rfl := Option.some.inj hc'
      simpa only [List.append_assoc] using hstands
    · intro c' hc'
      obtain rfl := Option.some.inj hc'
      obtain ⟨hle, hseen⟩ := (h.awake c hc).advance hadvance
      exact ⟨hle, hseen⟩
  | resume =>
    obtain ⟨c, hc, hstep⟩ := Option.bind_eq_some_iff.mp hstep
    obtain ⟨stream, hresume, hstep⟩ := Option.bind_eq_some_iff.mp hstep
    obtain rfl := Option.some.inj hstep
    have hsound := h.base.sound
    rw [System.outputs_of_some hc] at hsound
    obtain ⟨hphase, hreading, hcursor, hsynchronized, hle⟩ :=
      resume_spec (h.awake c hc).le hresume
    have hstands := h.stands c hc
    refine ⟨⟨h.base.inserted, h.base.unique, h.base.within, h.base.ours, ?_⟩, ?_, ?_⟩
    · rw [System.outputs_of_some (c := { c with stream }) rfl]
      dsimp only
      rw [hreading]
      exact (List.append_nil _).symm ▸ hsound.prefix
    · intro c' hc'
      obtain rfl := Option.some.inj hc'
      refine ⟨fun _ => hstands.resynced (by simp [hphase]), fun _ => ?_, ?_, ?_⟩
      · exact hcursor.trans (hstands.cursor (by simp [hphase]))
      · intro items nextCursor hasMore htelling
        exact nomatch hreading.symm.trans htelling
      · exact fun d hd => hstands.synchronized d (hsynchronized.symm.trans hd)
    · intro c' hc'
      obtain rfl := Option.some.inj hc'
      refine ⟨hle, fun mark hmark => ?_⟩
      simp [Stream.mark, hreading] at hmark
  | receive =>
    obtain ⟨c, hc, hstep⟩ := Option.bind_eq_some_iff.mp hstep
    have hsound := h.base.sound
    rw [System.outputs_of_some hc] at hsound
    cases hflight : c.inFlight with
    | nil =>
      rw [hflight] at hstep
      exact nomatch hstep
    | cons frame frames =>
      rw [hflight] at hstep hsound
      obtain rfl := Option.some.inj hstep
      have hmoved : σ.received ++ frame :: frames = (σ.received ++ [frame]) ++ frames := by simp
      cases hresynced : resynced [frame] with
      | true =>
        refine ⟨⟨h.base.inserted, h.base.unique, h.base.within, h.base.ours, ?_⟩, ?_, ?_⟩
        · rw [System.outputs_of_none (by simp)]
          rw [hmoved, List.append_assoc] at hsound
          exact hsound.prefix
        · exact fun _ hc' => nomatch hc'
        · exact fun _ hc' => nomatch hc'
      | false =>
        refine ⟨⟨h.base.inserted, h.base.unique, h.base.within, h.base.ours, ?_⟩, ?_, ?_⟩
        · rw [System.outputs_of_some (c := ⟨c.stream, frames⟩) (by simp)]
          rw [hmoved] at hsound
          exact hsound
        · intro c' hc'
          obtain rfl := Option.some.inj hc'
          have hstands := h.stands c hc
          rw [hflight, hmoved] at hstands
          exact hstands
        · intro c' hc'
          obtain rfl := Option.some.inj hc'
          obtain ⟨hle, hseen⟩ := h.awake c hc
          exact ⟨hle, hseen⟩
  | disconnect =>
    obtain rfl := Option.some.inj hstep
    refine ⟨⟨h.base.inserted, h.base.unique, h.base.within, h.base.ours, ?_⟩, ?_, ?_⟩
    · rw [System.outputs_of_none rfl]
      exact h.base.sound.prefix
    · exact fun _ hc' => nomatch hc'
    · exact fun _ hc' => nomatch hc'

theorem inv_of_reachable (h : System.system.Reachable σ) : Inv σ :=
  h.invariant (fun _ => Inv.of_initial) fun _ _ _ _ ih hstep => ih.step hstep

/-! ## What the client knows -/

/-- What a client was told, whatever else is under way. -/
theorem Inv.received (h : Inv σ) : Base σ σ.received := h.base.prefix

/-- **Nothing is told twice.** Over all its connections, a client is told of production events,
as they were inserted, in their order, each at most once, behind the cursor it began with, and
all in one generation of the authority. -/
theorem told_once (h : System.system.Reachable σ) :
    (events σ.received).Pairwise (fun i j => i.cursor.sequence < j.cursor.sequence) ∧
    (∀ i ∈ events σ.received, place σ.start < i.cursor.sequence ∧
      ∃ r ∈ σ.inserted, r.operatorScope = .production ∧
        i = event r i.cursor.authorityGeneration) ∧
    (∀ c ∈ places σ.start σ.received, ∀ d ∈ places σ.start σ.received,
      c.authorityGeneration = d.authorityGeneration) := by
  have hsound := (inv_of_reachable h).received.sound
  refine ⟨?_, fun i hi => ⟨?_, hsound.events i hi⟩, hsound.uniform⟩
  · have hrising := hsound.replays.rising
    rw [told_frames, List.pairwise_map] at hrising
    exact hrising
  · have hwithin := hsound.replays.within i.cursor.sequence
    rw [told_frames] at hwithin
    exact (hwithin (List.mem_map_of_mem hi)).1

/-- Of the events in the table, those up to a cursor were told. -/
theorem Base.told (h : Base σ frames) (hresynced : resynced frames = false) {c : DashboardCursor}
    (hc : lastId σ.start frames = some c) {r : EventRow} (hr : r ∈ σ.table.rows)
    (hscope : r.operatorScope = .production) (hstart : place σ.start < r.sequence)
    (hle : r.sequence ≤ c.sequence) : event r c.authorityGeneration ∈ events frames := by
  have htold : r.sequence ∈ LogReplay.told (frames.map Output.frame) := by
    have hall : ∀ n, σ.table.Shown n → True := fun _ _ => trivial
    refine h.sound.replays.told hall
      (fun _ _ _ _ heq => heq) (fun _ _ => trivial) ⟨r, hr, hscope, rfl⟩ hstart ?_
    show r.sequence ≤ position id (place σ.start) (frames.map Output.frame)
    rw [position_frames hresynced, hc]
    exact hle
  rw [told_frames] at htold
  obtain ⟨i, hi, hseq⟩ := List.mem_map.mp htold
  obtain ⟨q, hq, -, hitem⟩ := h.sound.events i hi
  have hsame : q = r := by
    refine h.unique q hq r (h.inserted r hr) ?_
    rw [hitem] at hseq
    exact hseq
  have hgeneration : i.cursor.authorityGeneration = c.authorityGeneration := by
    refine h.sound.uniform _ ?_ _ (mem_places_of_lastId hresynced hc)
    exact List.mem_append_right _ (List.mem_filterMap.mpr ⟨_, mem_events.mp hi, rfl⟩)
  rw [hsame, hgeneration] at hitem
  exact hitem ▸ hi

/-- **Nothing in the table is passed over.** Of the production events that stand in the table, a
client was told of each up to the cursor of the last frame it got, and so it was before each
frame that says where it is. -/
theorem told_upto (h : System.system.Reachable σ) {front back : List Output}
    (hreceived : σ.received = front ++ back) (hresynced : resynced front = false)
    {c : DashboardCursor} (hc : lastId σ.start front = some c) {r : EventRow}
    (hr : r ∈ σ.table.rows) (hscope : r.operatorScope = .production)
    (hstart : place σ.start < r.sequence) (hle : r.sequence ≤ c.sequence) :
    event r c.authorityGeneration ∈ events front := by
  have hbase := (inv_of_reachable h).received
  rw [hreceived] at hbase
  exact hbase.prefix.told hresynced hc hr hscope hstart hle

/-- **No wake-up is lost.** Once every transaction of this process was notified, a stream that
goes on waiting has told of all that this process inserted and is still there. -/
theorem no_lost_wakeup (h : System.system.Reachable σ) {c : Connection}
    (hc : σ.connection = some c) (hblocked : c.stream.blocked σ.commitGeneration)
    (hnotified : σ.committing = 0) {r : EventRow} (hr : r ∈ σ.table.rows)
    (hours : r.sequence ∈ σ.ours) (hscope : r.operatorScope = .production)
    (hstart : place σ.start < r.sequence) :
    ∃ generation, event r generation ∈ events (σ.received ++ c.inFlight) := by
  have hinv := inv_of_reachable h
  have hstands := hinv.stands c hc
  have hresynced := hstands.resynced (by simp [hblocked.1])
  have hcursor := hstands.cursor (by simp [hblocked.1])
  have hbase := hinv.base
  rw [System.outputs_of_some hc] at hbase
  have hmark : c.stream.mark = some (place c.stream.cursor) := by rw [Stream.mark, hblocked.1]
  have hseen : r.sequence ≤ place c.stream.cursor := by
    rcases (hinv.awake c hc).seen _ hmark with hseen | hlt
    · exact hseen r hr hours
    · rw [hnotified] at hlt
      exact absurd hblocked.2 hlt.not_ge
  rw [hcursor] at hseen
  cases hlast : lastId σ.start (σ.received ++ c.inFlight) with
  | none =>
    rw [hlast] at hseen
    exact absurd hseen ((Nat.zero_le _).trans_lt hstart).not_ge
  | some d =>
    rw [hlast] at hseen
    exact ⟨_, hbase.prefix.told hresynced hlast hr hscope hstart hseen⟩

/-! ### A client that lost its connection -/

/-- A control plane without events, and a client that has its first snapshot. -/
def sampleControlPlane : System where
  authority := some ⟨Text.ofString "canonical", 3⟩
  table := ⟨[], 0, .nil, fun _ hr => absurd hr List.not_mem_nil⟩
  commitGeneration := 0
  committing := 0
  connection := none
  start := some ⟨3, 0⟩
  received := []
  inserted := []
  ours := []

theorem reachable_sampleControlPlane : System.system.Reachable sampleControlPlane :=
  .of_init ⟨by decide, by decide, by decide, by decide, rfl, rfl⟩

/-- One event is told, the connection is lost, and a new one says that there are no others that
are visible. -/
def sampleLoss : List Action :=
  [.commit true [] [⟨Text.ofString "work.created", Text.ofString "work_item", .production, []⟩,
      ⟨Text.ofString "work.created", Text.ofString "work_item", .system, []⟩]
      (some ⟨Text.ofString "canonical", 3⟩),
    .notify, .connect 0, .advance, .advance, .receive, .disconnect,
    .connect 0, .advance, .advance, .receive, .advance]

theorem told_once_after_loss : ∃ σ, System.system.Reachable σ ∧
    (events σ.received).map (fun i => i.cursor.sequence) = [1] ∧
      (events σ.received).Pairwise fun i j => i.cursor.sequence < j.cursor.sequence := by
  refine ⟨_, reachable_sampleControlPlane.replay sampleLoss rfl, by decide, ?_⟩
  exact (told_once (reachable_sampleControlPlane.replay sampleLoss rfl)).1

/-- The event that is visible. -/
def sampleEvent : EventRow :=
  ⟨1, Text.ofString "work.created", Text.ofString "work_item", .production, []⟩

theorem told_upto_after_loss : ∃ σ, System.system.Reachable σ ∧ sampleEvent ∈ σ.table.rows ∧
    event sampleEvent 3 ∈ events σ.received := by
  have hreach := reachable_sampleControlPlane.replay sampleLoss rfl
  refine ⟨_, hreach, by decide, ?_⟩
  exact told_upto hreach (List.append_nil _).symm rfl (c := ⟨3, 2⟩) rfl (r := sampleEvent)
    (by decide) rfl (by decide) (by decide)

theorem no_lost_wakeup_after_loss : ∃ σ c, System.system.Reachable σ ∧ σ.connection = some c ∧
    c.stream.blocked σ.commitGeneration ∧
    ∃ generation, event sampleEvent generation ∈ events (σ.received ++ c.inFlight) := by
  have hreach := reachable_sampleControlPlane.replay sampleLoss rfl
  have hblocked : Stream.blocked 1
      { cursor := some ⟨3, 2⟩, synchronizedCursor := some ⟨3, 2⟩, emitted := 0, maxEvents := none,
        commitGeneration := 1, timedOut := false, phase := .waiting } := ⟨rfl, Nat.le_refl _⟩
  refine ⟨_, _, hreach, rfl, hblocked, ?_⟩
  exact no_lost_wakeup hreach rfl hblocked rfl (r := sampleEvent) (by decide) (by decide) rfl
    (by decide)

end Dashboard
