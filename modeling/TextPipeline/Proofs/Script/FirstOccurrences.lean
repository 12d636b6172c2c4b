import Mathlib.Data.List.Nodup
import Mathlib.Data.Set.Function
import TextPipeline.Script.Compiler

/-!
# First occurrences

The first occurrences in a list are its members, each once, in the order in which they come first.
A list behind another one may be rid of members of the other one, and the first occurrences in a
front of a list are a front of those in the list.
-/

namespace TextPipeline

namespace Compiler

variable {xs ys : List String} {a b : String}

/-- No member is lost and none is added. -/
theorem mem_firstOccurrences :
  a ∈ firstOccurrences xs ↔ a ∈ xs
  := by
  induction xs with
  | nil => rfl
  | cons x xs ih =>
    rw [firstOccurrences, List.mem_cons, List.mem_cons, List.mem_filter, ih]
    by_cases h : a = x <;> simp [h]

/-- No member is left twice. -/
theorem nodup_firstOccurrences (xs : List String) :
  (firstOccurrences xs).Nodup
  := by
  induction xs with
  | nil => apply List.nodup_nil
  | cons x xs ih =>
    rw [firstOccurrences, List.nodup_cons]
    constructor
    · simp
    · apply ih.filter

/-- Distinct members are all left. -/
theorem firstOccurrences_of_nodup (h : xs.Nodup) :
  firstOccurrences xs = xs
  := by
  induction xs with
  | nil => rfl
  | cons x xs ih =>
    obtain ⟨hx, hxs⟩ := List.nodup_cons.mp h
    rw [firstOccurrences, ih hxs, List.filter_eq_self.mpr]
    intro y hy
    simpa using ne_of_mem_of_not_mem hy hx

/-- Members may be chosen before or after the first occurrences are. -/
theorem firstOccurrences_filter (p : String → Bool) (xs : List String) :
  firstOccurrences (xs.filter p) = (firstOccurrences xs).filter p
  := by
  induction xs with
  | nil => rfl
  | cons x xs ih =>
    rw [List.filter_cons, firstOccurrences, List.filter_cons]
    split
    · rw [firstOccurrences, ih, List.filter_filter, List.filter_filter]
      simp only [Bool.and_comm]
    · next hx =>
      -- The occurrences of `x` that are left out on the right are left out by the choice too.
      rw [ih, List.filter_filter]
      apply List.filter_congr
      intro y _
      by_cases hy : y = x
      · simp [hy, hx]
      · simp [hy]

/-- The first occurrences among members that are kept apart are those of the members. -/
theorem firstOccurrences_map {f : String → String} (h : Set.InjOn f {x | x ∈ xs}) :
  firstOccurrences (xs.map f) = (firstOccurrences xs).map f
  := by
  induction xs with
  | nil => rfl
  | cons x xs ih =>
    have hxs : Set.InjOn f {y | y ∈ xs} := by
      apply h.mono
      intro y hy
      apply List.mem_cons_of_mem x hy
    rw [List.map_cons, firstOccurrences, ih hxs, firstOccurrences, List.map_cons, List.filter_map]
    congr 2
    apply List.filter_congr
    intro y hy
    have hinj : f y = f x ↔ y = x :=
      h.eq_iff (List.mem_cons_of_mem x (mem_firstOccurrences.mp hy)) List.mem_cons_self
    simp [hinj]

/-- Of a list behind another one those first occurrences count that the other one does not have. -/
theorem firstOccurrences_append (xs ys : List String) :
  firstOccurrences (xs ++ ys)
    = firstOccurrences xs ++ (firstOccurrences ys).filter fun y => y ∉ xs
  := by
  induction xs with
  | nil => simp [firstOccurrences]
  | cons x xs ih =>
    rw [List.cons_append, firstOccurrences, firstOccurrences, ih, List.filter_append,
      List.filter_filter, List.cons_append]
    congr 2
    apply List.filter_congr
    intro y _
    simp

/-- The first occurrences in a list with another one behind it depend on those in the list. -/
theorem firstOccurrences_append_congr {xs' : List String}
    (h : firstOccurrences xs = firstOccurrences xs') (ys : List String) :
  firstOccurrences (xs ++ ys) = firstOccurrences (xs' ++ ys)
  := by
  have hmem : ∀ y, y ∈ xs ↔ y ∈ xs' := by
    intro y
    rw [← mem_firstOccurrences, h, mem_firstOccurrences]
  simp only [firstOccurrences_append, h, hmem]

/-- Behind a list members of it may be left out. -/
theorem firstOccurrences_append_filter {p : String → Bool}
    (h : ∀ y ∈ ys, p y = false → y ∈ xs) :
  firstOccurrences (xs ++ ys.filter p) = firstOccurrences (xs ++ ys)
  := by
  rw [firstOccurrences_append, firstOccurrences_append, firstOccurrences_filter,
    List.filter_filter]
  congr 1
  apply List.filter_congr
  intro y hy
  cases hp : p y with
  | true => simp
  | false => simp [h y (mem_firstOccurrences.mp hy) hp]

/-- Behind a list one of its members may be left out. -/
theorem firstOccurrences_append_cons (h : a ∈ xs) (ys : List String) :
  firstOccurrences (xs ++ a :: ys) = firstOccurrences (xs ++ ys)
  := by
  have hys : firstOccurrences (xs ++ ys.filter (· ≠ a)) = firstOccurrences (xs ++ ys) := by
    apply firstOccurrences_append_filter
    simp +contextual [h]
  have hcons : firstOccurrences (xs ++ (a :: ys).filter (· ≠ a))
      = firstOccurrences (xs ++ a :: ys) := by
    apply firstOccurrences_append_filter
    simp +contextual [h]
  rw [← hcons, List.filter_cons_of_neg (by simp), hys]

/-- The first occurrences in a front of a list are a front of those in the list. -/
theorem prefix_firstOccurrences (h : xs <+: ys) :
  firstOccurrences xs <+: firstOccurrences ys
  := by
  obtain ⟨more, rfl⟩ := h
  rw [firstOccurrences_append]
  apply List.prefix_append

/-- What a front of a list has comes before what the front does not have. -/
theorem idxOf_lt_of_prefix (h : xs <+: ys) (ha : a ∈ xs) (hb : b ∉ xs) :
  ys.idxOf a < ys.idxOf b
  := by
  obtain ⟨more, rfl⟩ := h
  rw [List.idxOf_append, List.idxOf_append, if_pos ha, if_neg hb]
  have := List.idxOf_lt_length_of_mem ha
  omega

/-- The members of a common front have the same place in two lists. -/
theorem idxOf_eq_of_mem_take {k : Nat} (htake : xs.take k = ys.take k) (ha : a ∈ xs.take k) :
  xs.idxOf a = ys.idxOf a
  := by
  rw [← (List.take_prefix k xs).idxOf_eq_of_mem ha, htake]
  rw [htake] at ha
  apply (List.take_prefix k ys).idxOf_eq_of_mem ha

/-- What follows a common front in one list comes in it before what follows in the other list. -/
theorem idxOf_lt_of_take_eq {k : Nat} (htake : xs.take k = ys.take k) (ha : xs.idxOf a = k)
    (hb : ys.idxOf b = k) (hmem : b ∈ xs) (hab : a ≠ b) :
  xs.idxOf a < xs.idxOf b
  := by
  obtain hlt | heq | hgt := Nat.lt_trichotomy (xs.idxOf b) k
  · have := idxOf_eq_of_mem_take htake ((List.mem_take_iff_idxOf_lt hmem).mpr hlt)
    omega
  · apply absurd _ hab.symm
    apply (List.idxOf_inj hmem).mp
    rw [heq, ha]
  · omega

/-- What comes first in a list comes first among the first occurrences. -/
theorem idxOf_firstOccurrences_lt (h : xs.idxOf a < xs.idxOf b) :
  (firstOccurrences xs).idxOf a < (firstOccurrences xs).idxOf b
  := by
  have ha : a ∈ xs := List.idxOf_lt_length_iff.mp (Nat.lt_of_lt_of_le h List.idxOf_le_length)
  apply idxOf_lt_of_prefix (prefix_firstOccurrences (List.take_prefix (xs.idxOf b) xs))
  · apply mem_firstOccurrences.mpr
    apply (List.mem_take_iff_idxOf_lt ha).mpr h
  · intro hb
    have hb := mem_firstOccurrences.mp hb
    have hlt := (List.mem_take_iff_idxOf_lt (List.mem_of_mem_take hb)).mp hb
    apply Nat.lt_irrefl _ hlt

/-- A relation holds between the members of a list without repetition when it holds between each
two of them in their order. -/
theorem pairwise_iff_idxOf {r : String → String → Prop} (h : xs.Nodup) :
  xs.Pairwise r ↔ ∀ a ∈ xs, ∀ b ∈ xs, xs.idxOf a < xs.idxOf b → r a b
  := by
  rw [List.pairwise_iff_getElem]
  constructor
  · intro hr a ha b hb hlt
    have hab := hr _ _ (List.idxOf_lt_length_of_mem ha) (List.idxOf_lt_length_of_mem hb) hlt
    rw [List.getElem_idxOf, List.getElem_idxOf] at hab
    apply hab
  · intro hr i j hi hj hij
    apply hr _ (List.getElem_mem hi) _ (List.getElem_mem hj)
    rw [h.idxOf_getElem i hi, h.idxOf_getElem j hj]
    apply hij

end Compiler

end TextPipeline
