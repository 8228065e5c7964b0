import Mathlib.Data.List.Basic
import Mathlib.Data.Nat.Notation
import Mathlib.Order.Nat

/-!
# Lines of a stream that comes in pieces

A stream is read in pieces, as they happen to arrive, and its lines are handled one by one: what
is behind the last separator waits for the next piece. A line that is too long ends the reading,
and so it does as soon as so much of a line has come that it will be.

How the stream was cut does not matter (`feed_eq_drain`): the same lines are handled in the same
order, and the reading ends with the same error. What every line keeps is kept by the reading
(`drain_keeps`).
-/

namespace LineStreams

variable {α σ ε : Type*}

/-- **How lines are handled**: a line changes a state, and it may fail. -/
structure Reader (α σ ε : Type*) where
  separator : α
  limit : ℕ
  line : List α → σ → σ × Option ε
  tooLong : σ → σ × ε

variable [DecidableEq α] {a : α} {front back stream : List α}

/-- A stream cut at the first separator. -/
def cut (a : α) : List α → Option (List α × List α)
  | [] => none
  | b :: stream =>
    if b = a then some ([], stream) else (cut a stream).map fun (raw, rest) => (b :: raw, rest)

theorem cut_eq_none : cut a stream = none ↔ a ∉ stream := by
  induction stream with
  | nil => simp [cut]
  | cons b stream ih =>
    rw [cut]
    split_ifs with hb
    · simp [hb]
    · simp [ih, Ne.symm hb]

theorem of_cut (h : cut a stream = some (front, back)) : stream = front ++ a :: back := by
  induction stream generalizing front with
  | nil => simp [cut] at h
  | cons b stream ih =>
    rw [cut] at h
    split_ifs at h with hb
    · obtain ⟨rfl, rfl⟩ := Prod.mk.inj (Option.some.inj h)
      rw [hb]
      rfl
    · obtain ⟨⟨raw, rest⟩, hcut, hmk⟩ := Option.map_eq_some_iff.mp h
      obtain ⟨rfl, rfl⟩ := Prod.mk.inj hmk
      rw [ih hcut]
      rfl

/-- A line that has come is not changed by what comes behind it. -/
theorem cut_append (h : cut a stream = some (front, back)) (rest : List α) :
    cut a (stream ++ rest) = some (front, back ++ rest) := by
  induction stream generalizing front with
  | nil => simp [cut] at h
  | cons b stream ih =>
    rw [List.cons_append, cut]
    rw [cut] at h
    split_ifs at h ⊢ with hb
    · obtain ⟨rfl, rfl⟩ := Prod.mk.inj (Option.some.inj h)
      rfl
    · obtain ⟨⟨raw, tail⟩, hcut, hmk⟩ := Option.map_eq_some_iff.mp h
      obtain ⟨rfl, rfl⟩ := Prod.mk.inj hmk
      rw [ih hcut]
      rfl

/-- A line that has not ended yet only grows. -/
theorem length_le_of_cut_append (h : cut a stream = none) {rest : List α}
    (hcut : cut a (stream ++ rest) = some (front, back)) : stream.length ≤ front.length := by
  by_contra hlt
  have hmem : a ∈ stream := by
    have hsplit := congrArg (fun l => l[front.length]?) (of_cut hcut)
    simp only [List.getElem?_append_left (not_le.mp hlt), List.getElem?_append_right le_rfl,
      Nat.sub_self, List.getElem?_cons_zero] at hsplit
    exact List.mem_of_getElem? hsplit
  exact cut_eq_none.mp h hmem

namespace Reader

variable (r : Reader α σ ε)

/-- **The lines of a buffer** are handled, and what is left of it is kept. -/
def drain (buffer : List α) (s : σ) : σ × Except ε (List α) :=
  match h : cut r.separator buffer with
  | none =>
    if r.limit < buffer.length then ((r.tooLong s).1, .error (r.tooLong s).2) else (s, .ok buffer)
  | some (raw, rest) =>
    if r.limit < raw.length then ((r.tooLong s).1, .error (r.tooLong s).2)
    else
      match r.line raw s with
      | (s', some error) => (s', .error error)
      | (s', none) =>
        have : rest.length < buffer.length := by simp [of_cut h]; omega
        drain rest s'
termination_by buffer.length

/-- **The pieces of a stream**, one after the other, behind what is left of those before. -/
def feed : List (List α) → List α → σ → σ × Except ε (List α)
  | [], pending, s => (s, .ok pending)
  | piece :: pieces, pending, s =>
    match r.drain (pending ++ piece) s with
    | (s', .ok pending) => feed pieces pending s'
    | (s', .error error) => (s', .error error)

variable {r} {s : σ}

theorem drain_none (h : cut r.separator stream = none) : r.drain stream s =
    if r.limit < stream.length then ((r.tooLong s).1, .error (r.tooLong s).2)
    else (s, .ok stream) := by
  rw [drain]
  split
  · rfl
  · next hcut => simp [h] at hcut

theorem drain_some (h : cut r.separator stream = some (front, back)) : r.drain stream s =
    if r.limit < front.length then ((r.tooLong s).1, .error (r.tooLong s).2)
    else
      match r.line front s with
      | (s', some error) => (s', .error error)
      | (s', none) => r.drain back s' := by
  rw [drain]
  split
  · next hcut => simp [h] at hcut
  · next hcut =>
    obtain ⟨rfl, rfl⟩ := Prod.mk.inj (Option.some.inj (hcut.symm.trans h))
    rfl

/-- **A stream goes on where it was left.** -/
theorem drain_append (stream rest : List α) (s : σ) : r.drain (stream ++ rest) s =
    match r.drain stream s with
    | (s', .ok pending) => r.drain (pending ++ rest) s'
    | (s', .error error) => (s', .error error) := by
  induction stream, s using drain.induct r with
  | case1 stream s hcut hlong =>
    rw [drain_none hcut, if_pos hlong]
    cases hall : cut r.separator (stream ++ rest) with
    | none =>
      have hlong' : r.limit < (stream ++ rest).length := by
        rw [List.length_append]
        omega
      rw [drain_none hall, if_pos hlong']
    | some parts =>
      have hlong' : r.limit < parts.1.length :=
        hlong.trans_le (length_le_of_cut_append hcut hall)
      rw [drain_some hall, if_pos hlong']
  | case2 stream s hcut hshort => rw [drain_none hcut, if_neg hshort]
  | case3 stream s raw back hcut hlong =>
    rw [drain_some hcut, drain_some (cut_append hcut rest), if_pos hlong, if_pos hlong]
  | case4 stream s raw back hcut hshort s' error hline =>
    rw [drain_some hcut, drain_some (cut_append hcut rest), if_neg hshort, if_neg hshort, hline]
  | case5 stream s raw back hcut hshort s' hline _ ih =>
    rw [drain_some hcut, drain_some (cut_append hcut rest), if_neg hshort, if_neg hshort, hline]
    exact ih

/-- What is left has no line in it, and is not too long. -/
theorem drain_of_ok {s' : σ} {pending : List α} (h : r.drain stream s = (s', .ok pending)) :
    r.drain pending s' = (s', .ok pending) := by
  induction stream, s using drain.induct r with
  | case1 stream s hcut hlong => simp [drain_none hcut, hlong] at h
  | case2 stream s hcut hshort =>
    rw [drain_none hcut, if_neg hshort] at h
    obtain ⟨rfl, hpending⟩ := Prod.mk.inj h
    obtain rfl := Except.ok.inj hpending
    rw [drain_none hcut, if_neg hshort]
  | case3 stream s raw back hcut hlong => simp [drain_some hcut, hlong] at h
  | case4 stream s raw back hcut hshort s₁ error hline =>
    simp [drain_some hcut, hshort, hline] at h
  | case5 stream s raw back hcut hshort s₁ hline _ ih =>
    rw [drain_some hcut, if_neg hshort, hline] at h
    exact ih h

/-- **How a stream was cut does not matter.** -/
theorem feed_eq_drain {pending : List α} (h : r.drain pending s = (s, .ok pending))
    (pieces : List (List α)) : r.feed pieces pending s = r.drain (pending ++ pieces.flatten) s := by
  induction pieces generalizing pending s with
  | nil => rw [feed, List.flatten_nil, List.append_nil, h]
  | cons piece pieces ih =>
    rw [feed, List.flatten_cons, ← List.append_assoc, drain_append (pending ++ piece)]
    cases hdrain : r.drain (pending ++ piece) s with
    | mk s' result =>
      cases result with
      | ok pending' => exact ih (drain_of_ok hdrain)
      | error error => rfl

/-- **What every line of a stream keeps, the reading keeps.** -/
theorem drain_keeps {P : σ → Prop} {stream : List α}
    (hline : ∀ raw, raw <:+: stream → ∀ s, P s → P (r.line raw s).1)
    (htooLong : ∀ s, P s → P (r.tooLong s).1) (hs : P s) : P (r.drain stream s).1 := by
  induction stream, s using drain.induct r with
  | case1 stream s hcut hlong =>
    rw [drain_none hcut, if_pos hlong]
    exact htooLong s hs
  | case2 stream s hcut hshort =>
    rw [drain_none hcut, if_neg hshort]
    exact hs
  | case3 stream s raw back hcut hlong =>
    rw [drain_some hcut, if_pos hlong]
    exact htooLong s hs
  | case4 stream s raw back hcut hshort s' error hraw =>
    have hfront : raw <:+: stream := ⟨[], r.separator :: back, by rw [of_cut hcut]; rfl⟩
    rw [drain_some hcut, if_neg hshort, hraw]
    exact (congrArg (fun t => P t.1) hraw).mp (hline raw hfront s hs)
  | case5 stream s raw back hcut hshort s' hraw _ ih =>
    have hfront : raw <:+: stream := ⟨[], r.separator :: back, by rw [of_cut hcut]; rfl⟩
    have hback : back <:+ stream := ⟨raw ++ [r.separator], by rw [of_cut hcut]; simp⟩
    rw [drain_some hcut, if_neg hshort, hraw]
    exact ih (fun raw' h => hline raw' (h.trans hback.isInfix))
      ((congrArg (fun t => P t.1) hraw).mp (hline raw hfront s hs))

end Reader

end LineStreams
