import OpenCAO.PythonText
import Mathlib.Data.Rat.Init

/-!
# Values of Python

What an opaque field may hold is a value as `json` has them, and whatever else a
caller has put into a container. Containers that compare their elements – the keys of a
mapping, the elements of a set – compare them by `==`, under which a list is not a
tuple but a set is a frozen set, and `True` is `1`.

A comprehension over such a container keeps the first of equal elements, or the first
of equal keys with the last of the values. The containers that there are have no equal
elements in the first place (`Valid`), and rebuilding one changes nothing.
-/

/-- **A value of Python.** What is equal is one leaf. -/
inductive PyValue where
  | none
  /-- A number; the truth values are numbers. -/
  | number (q : ℚ)
  /-- Another object, which equals itself only. -/
  | other (n : ℕ)
  | str (t : Text)
  /-- The items of a mapping, in the order in which its keys were added. -/
  | mapping (items : List (PyValue × PyValue))
  | list (xs : List PyValue)
  | tuple (xs : List PyValue)
  | set (xs : List PyValue)
  | frozenset (xs : List PyValue)

namespace PyValue

/-- **Induction over a value**, through its elements and items. -/
theorem induct {P : PyValue → Prop} (none : P .none) (number : ∀ q, P (.number q))
    (other : ∀ n, P (.other n)) (str : ∀ t, P (.str t))
    (mapping : ∀ ms, (∀ m ∈ ms, P m.1 ∧ P m.2) → P (.mapping ms))
    (list : ∀ xs, (∀ x ∈ xs, P x) → P (.list xs))
    (tuple : ∀ xs, (∀ x ∈ xs, P x) → P (.tuple xs))
    (set : ∀ xs, (∀ x ∈ xs, P x) → P (.set xs))
    (frozenset : ∀ xs, (∀ x ∈ xs, P x) → P (.frozenset xs)) : ∀ v, P v :=
  @PyValue.rec P (fun ms => ∀ m ∈ ms, P m.1 ∧ P m.2) (fun xs => ∀ x ∈ xs, P x)
    (fun m => P m.1 ∧ P m.2) none number other str mapping list tuple set frozenset
    (fun _ h => by cases h) (fun _ _ hm hms => List.forall_mem_cons.mpr ⟨hm, hms⟩)
    (fun _ h => by cases h) (fun _ _ hx hxs => List.forall_mem_cons.mpr ⟨hx, hxs⟩)
    (fun _ _ hk hv => ⟨hk, hv⟩)

mutual

/-- **`==`**. -/
def same : PyValue → PyValue → Bool
  | .none, .none => true
  | .number p, .number q => p == q
  | .other m, .other n => m == n
  | .str t, .str u => t == u
  | .mapping ms, .mapping ns => ms.length == ns.length && sameItems ms ns
  | .list xs, .list ys => sameElements xs ys
  | .tuple xs, .tuple ys => sameElements xs ys
  | .set xs, .set ys => xs.length == ys.length && among xs ys
  | .set xs, .frozenset ys => xs.length == ys.length && among xs ys
  | .frozenset xs, .set ys => xs.length == ys.length && among xs ys
  | .frozenset xs, .frozenset ys => xs.length == ys.length && among xs ys
  | _, _ => false
termination_by structural v => v

/-- The elements of two sequences are the same. -/
def sameElements : List PyValue → List PyValue → Bool
  | [], [] => true
  | x :: xs, y :: ys => same x y && sameElements xs ys
  | _, _ => false
termination_by structural xs => xs

/-- The elements of one set are elements of another. -/
def among : List PyValue → List PyValue → Bool
  | [], _ => true
  | x :: xs, ys => ys.any (fun y => same x y) && among xs ys
termination_by structural xs => xs

/-- The items of one mapping are items of another. -/
def sameItems : List (PyValue × PyValue) → List (PyValue × PyValue) → Bool
  | [], _ => true
  | (k, v) :: ms, ns => ns.any (fun n => same k n.1 && same v n.2) && sameItems ms ns
termination_by structural ms => ms

end

mutual

/-- The texts in a value, at any depth. -/
def texts : PyValue → List Text
  | .str t => [t]
  | .mapping items => itemTexts items
  | .list xs => elementTexts xs
  | .tuple xs => elementTexts xs
  | .set xs => elementTexts xs
  | .frozenset xs => elementTexts xs
  | .none => []
  | .number _ => []
  | .other _ => []
termination_by structural v => v

/-- The texts in the elements. -/
def elementTexts : List PyValue → List Text
  | [] => []
  | x :: xs => texts x ++ elementTexts xs
termination_by structural xs => xs

/-- The texts in the keys and values. -/
def itemTexts : List (PyValue × PyValue) → List Text
  | [] => []
  | (k, v) :: ms => texts k ++ texts v ++ itemTexts ms
termination_by structural ms => ms

end

theorem forall_mem_elementTexts {P : Text → Prop} {xs : List PyValue} :
    (∀ t ∈ elementTexts xs, P t) ↔ ∀ x ∈ xs, ∀ t ∈ texts x, P t := by
  induction xs with
  | nil => simp [elementTexts]
  | cons x xs ih => rw [elementTexts, List.forall_mem_append, List.forall_mem_cons, ih]

theorem forall_mem_itemTexts {P : Text → Prop} {ms : List (PyValue × PyValue)} :
    (∀ t ∈ itemTexts ms, P t) ↔ ∀ m ∈ ms, (∀ t ∈ texts m.1, P t) ∧ ∀ t ∈ texts m.2, P t := by
  induction ms with
  | nil => simp [itemTexts]
  | cons m ms ih =>
    rw [itemTexts, List.forall_mem_append, List.forall_mem_append, List.forall_mem_cons, ih]

/-! ## Containers -/

/-- A mapping with an item added, or the value of its key replaced. -/
def put (items : List (PyValue × PyValue)) (m : PyValue × PyValue) : List (PyValue × PyValue) :=
  if items.any fun e => same e.1 m.1 then
    items.map fun e => if same e.1 m.1 then (e.1, m.2) else e
  else items ++ [m]

/-- The items of `{key: value for …}`. -/
def dict (items : List (PyValue × PyValue)) : List (PyValue × PyValue) := items.foldl put []

/-- A set with an element added. -/
def add (xs : List PyValue) (x : PyValue) : List PyValue :=
  if xs.any fun y => same y x then xs else xs ++ [x]

/-- The elements of `{element for …}`. -/
def distinct (xs : List PyValue) : List PyValue := xs.foldl add []

/-- **A value that can be built**: no container holds equal keys or elements. -/
inductive Valid : PyValue → Prop
  | none : Valid .none
  | number (q : ℚ) : Valid (.number q)
  | other (n : ℕ) : Valid (.other n)
  | str (t : Text) : Valid (.str t)
  | mapping {ms : List (PyValue × PyValue)} : ms.Pairwise (fun a b => same a.1 b.1 = false) →
      (∀ m ∈ ms, Valid m.1) → (∀ m ∈ ms, Valid m.2) → Valid (.mapping ms)
  | list {xs : List PyValue} : (∀ x ∈ xs, Valid x) → Valid (.list xs)
  | tuple {xs : List PyValue} : (∀ x ∈ xs, Valid x) → Valid (.tuple xs)
  | set {xs : List PyValue} : xs.Pairwise (fun a b => same a b = false) → (∀ x ∈ xs, Valid x) →
      Valid (.set xs)
  | frozenset {xs : List PyValue} : xs.Pairwise (fun a b => same a b = false) →
      (∀ x ∈ xs, Valid x) → Valid (.frozenset xs)

/-- The keys of a mapping are keys that were put, and so are its values. -/
theorem mem_put {items : List (PyValue × PyValue)} {m e : PyValue × PyValue}
    (he : e ∈ put items m) :
    (e.1 = m.1 ∨ ∃ i ∈ items, e.1 = i.1) ∧ (e.2 = m.2 ∨ ∃ i ∈ items, e.2 = i.2) := by
  unfold put at he
  split at he
  · obtain ⟨i, hi, rfl⟩ := List.mem_map.mp he
    split
    · exact ⟨.inr ⟨i, hi, rfl⟩, .inl rfl⟩
    · exact ⟨.inr ⟨i, hi, rfl⟩, .inr ⟨i, hi, rfl⟩⟩
  · rcases List.mem_append.mp he with hi | hi
    · exact ⟨.inr ⟨e, hi, rfl⟩, .inr ⟨e, hi, rfl⟩⟩
    · rw [List.mem_singleton.mp hi]
      exact ⟨.inl rfl, .inl rfl⟩

/-- What holds of the keys and values that a mapping is built from holds of its own. -/
theorem forall_mem_dict {P Q : PyValue → Prop} {items : List (PyValue × PyValue)}
    (h : ∀ m ∈ items, P m.1 ∧ Q m.2) : ∀ e ∈ dict items, P e.1 ∧ Q e.2 := by
  unfold dict
  induction items using List.reverseRecOn with
  | nil => exact fun e he => by cases he
  | append_singleton items m ih =>
    have ih := ih fun m hm => h m (List.mem_append_left _ hm)
    have hm := h m (List.mem_append_right _ (List.mem_singleton_self m))
    rw [List.foldl_append]
    intro e he
    obtain ⟨hkey, hvalue⟩ := mem_put he
    refine ⟨?_, ?_⟩
    · rcases hkey with hkey | ⟨i, hi, hkey⟩ <;> rw [hkey]
      · exact hm.1
      · exact (ih i hi).1
    · rcases hvalue with hvalue | ⟨i, hi, hvalue⟩ <;> rw [hvalue]
      · exact hm.2
      · exact (ih i hi).2

theorem forall_mem_distinct {P : PyValue → Prop} {xs : List PyValue} (h : ∀ x ∈ xs, P x) :
    ∀ y ∈ distinct xs, P y := by
  unfold distinct
  induction xs using List.reverseRecOn with
  | nil => exact fun y hy => by cases hy
  | append_singleton xs x ih =>
    have ih := ih fun x hx => h x (List.mem_append_left _ hx)
    rw [List.foldl_append]
    intro y hy
    have hy : y ∈ add (xs.foldl add []) x := hy
    unfold add at hy
    split at hy
    · exact ih y hy
    · rcases List.mem_append.mp hy with hy | hy
      · exact ih y hy
      · rw [List.mem_singleton.mp hy]
        exact h x (List.mem_append_right _ (List.mem_singleton_self x))

/-- A mapping has no equal keys. -/
theorem pairwise_dict (items : List (PyValue × PyValue)) :
    (dict items).Pairwise fun a b => same a.1 b.1 = false := by
  unfold dict
  induction items using List.reverseRecOn with
  | nil => exact .nil
  | append_singleton items m ih =>
    rw [List.foldl_append]
    show (put (items.foldl put []) m).Pairwise _
    unfold put
    split
    · -- the keys are what they were
      rw [List.pairwise_map]
      refine ih.imp fun {a b} hab => ?_
      split <;> split <;> exact hab
    · rename_i hnew
      refine List.pairwise_append.mpr ⟨ih, List.pairwise_singleton _ _, fun a ha b hb => ?_⟩
      rw [List.mem_singleton.mp hb]
      exact Bool.eq_false_iff.mpr fun h => hnew (List.any_eq_true.mpr ⟨a, ha, h⟩)

/-- A set has no equal elements. -/
theorem pairwise_distinct (xs : List PyValue) :
    (distinct xs).Pairwise fun a b => same a b = false := by
  unfold distinct
  induction xs using List.reverseRecOn with
  | nil => exact .nil
  | append_singleton xs x ih =>
    rw [List.foldl_append]
    show (add (xs.foldl add []) x).Pairwise _
    unfold add
    split
    · exact ih
    · rename_i hnew
      refine List.pairwise_append.mpr ⟨ih, List.pairwise_singleton _ _, fun a ha b hb => ?_⟩
      rw [List.mem_singleton.mp hb]
      exact Bool.eq_false_iff.mpr fun h => hnew (List.any_eq_true.mpr ⟨a, ha, h⟩)

/-- **A mapping without equal keys is rebuilt as it is.** -/
theorem dict_of_pairwise {items : List (PyValue × PyValue)}
    (h : items.Pairwise fun a b => same a.1 b.1 = false) : dict items = items := by
  unfold dict
  induction items using List.reverseRecOn with
  | nil => rfl
  | append_singleton items m ih =>
    obtain ⟨hitems, -, hm⟩ := List.pairwise_append.mp h
    rw [List.foldl_append, ih hitems]
    have hnew : (items.any fun e => same e.1 m.1) = false := by
      rw [List.any_eq_false]
      intro e he
      simp [hm e he m (List.mem_singleton_self m)]
    show put items m = _
    rw [put, hnew]
    rfl

/-- **A set without equal elements is rebuilt as it is.** -/
theorem distinct_of_pairwise {xs : List PyValue} (h : xs.Pairwise fun a b => same a b = false) :
    distinct xs = xs := by
  unfold distinct
  induction xs using List.reverseRecOn with
  | nil => rfl
  | append_singleton xs x ih =>
    obtain ⟨hxs, -, hx⟩ := List.pairwise_append.mp h
    rw [List.foldl_append, ih hxs]
    have hnew : (xs.any fun y => same y x) = false := by
      rw [List.any_eq_false]
      intro y hy
      simp [hx y hy x (List.mem_singleton_self x)]
    show add xs x = _
    rw [add, hnew]
    rfl

end PyValue
