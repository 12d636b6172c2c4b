import Mathlib.Data.List.TakeWhile
import TextPipeline.Text.Blank

/-!
# Texts without the white space at their ends

Members that satisfy a condition are dropped from the front of a list, or from its end.  Each end of
what is left is a member without the condition, and so there is only one text that a text can be cut
down to.
-/

namespace TextPipeline

section

variable {α : Type} {p : α → Bool} {xs ys : List α} {x : α}

/-- What the longest front of a list is dropped for does not hold of the first member that is
left. -/
theorem eq_false_of_mem_head?_dropWhile (h : x ∈ (xs.dropWhile p).head?) :
  p x = false
  := by
  have hnot := List.head?_dropWhile_not p xs
  rw [Option.mem_def.1 h] at hnot
  apply hnot

/-- The last member of what is left does not satisfy `p`. -/
theorem eq_false_of_mem_getLast?_dropEndWhile (h : x ∈ (dropEndWhile p xs).getLast?) :
  p x = false
  := by
  rw [dropEndWhile, List.getLast?_reverse] at h
  apply eq_false_of_mem_head?_dropWhile h

/-- Nothing is dropped from the front when the first member does not satisfy `p`. -/
theorem dropWhile_eq_self_of_head? (h : ∀ x ∈ xs.head?, p x = false) :
  xs.dropWhile p = xs
  := by
  cases xs with
  | nil => rfl
  | cons x xs =>
    rw [List.dropWhile_cons_of_neg]
    simpa using h

/-- Nothing is dropped from the end when the last member does not satisfy `p`. -/
theorem dropEndWhile_eq_self_of_getLast? (h : ∀ x ∈ xs.getLast?, p x = false) :
  dropEndWhile p xs = xs
  := by
  rw [dropEndWhile, dropWhile_eq_self_of_head?, List.reverse_reverse]
  rwa [List.head?_reverse]

/-- An end that satisfies `p` is dropped as a whole, and more may be dropped in front of it. -/
theorem dropEndWhile_append_of_forall (h : ∀ y ∈ ys, p y = true) :
  dropEndWhile p (xs ++ ys) = dropEndWhile p xs
  := by
  rw [dropEndWhile, List.reverse_append, List.dropWhile_append_of_pos]
  · rfl
  · simpa using h

/-- Nothing is dropped in front of a member that does not satisfy `p`. -/
theorem dropEndWhile_append_of_exists (h : ∃ y ∈ ys, p y = false) :
  dropEndWhile p (xs ++ ys) = xs ++ dropEndWhile p ys
  := by
  have hrest : (ys.reverse.dropWhile p).isEmpty = false := by
    simpa using h
  rw [dropEndWhile, List.reverse_append, List.dropWhile_append, hrest, if_neg Bool.false_ne_true,
    List.reverse_append, List.reverse_reverse]
  rfl

end

/-- The text is cut down to what stands between the first and the last character that is no white
space. -/
def Trimmed (text trimmed : String) : Prop :=
  ∃ front back : List Char, text.toList = front ++ trimmed.toList ++ back ∧
    (∀ c ∈ front ++ back, isBlank c = true) ∧
    (∀ c ∈ trimmed.toList.head?, isBlank c = false) ∧
    ∀ c ∈ trimmed.toList.getLast?, isBlank c = false

/-- The text without the white space at its ends is the text cut down. -/
theorem trimmed_trimBlank (text : String) :
  Trimmed text (String.ofList (trimBlank text.toList))
  := by
  let rest := text.toList.dropWhile isBlank
  have hrest : trimBlank text.toList ++ (rest.reverse.takeWhile isBlank).reverse = rest :=
    dropEndWhile_append_takeWhile isBlank rest
  refine ⟨text.toList.takeWhile isBlank, (rest.reverse.takeWhile isBlank).reverse, ?_, ?_, ?_, ?_⟩
  · rw [String.toList_ofList, List.append_assoc, hrest, List.takeWhile_append_dropWhile]
  · intro c hc
    obtain hc | hc := List.mem_append.1 hc
    · apply List.all_eq_true.1 List.all_takeWhile c hc
    · apply List.all_eq_true.1 List.all_takeWhile c (List.mem_reverse.1 hc)
  · intro c hc
    have hhead : c ∈ rest.head? := by
      rw [String.toList_ofList, Option.mem_def] at hc
      rw [← hrest, List.head?_append, hc]
      rfl
    apply eq_false_of_mem_head?_dropWhile hhead
  · intro c hc
    rw [String.toList_ofList] at hc
    apply eq_false_of_mem_getLast?_dropEndWhile hc

/-- There is one text only that a text is cut down to. -/
theorem Trimmed.eq_trimBlank {text trimmed : String} (h : Trimmed text trimmed) :
  trimmed = String.ofList (trimBlank text.toList)
  := by
  obtain ⟨front, back, htext, hblank, hhead, hlast⟩ := h
  obtain ⟨hfront, hback⟩ := List.forall_mem_append.1 hblank
  have hrest : text.toList.dropWhile isBlank = (trimmed.toList ++ back).dropWhile isBlank := by
    rw [htext, List.append_assoc, List.dropWhile_append_of_pos hfront]
  rw [← String.toList_inj, String.toList_ofList, trimBlank, hrest]
  cases htrimmed : trimmed.toList with
  | nil =>
    rw [List.nil_append, List.dropWhile_eq_nil_iff.2 hback]
    rfl
  | cons c cs =>
    have hstart : ∀ d ∈ (trimmed.toList ++ back).head?, isBlank d = false := by
      simpa [htrimmed] using hhead
    rw [← htrimmed, dropWhile_eq_self_of_head? hstart, dropEndWhile_append_of_forall hback,
      dropEndWhile_eq_self_of_getLast? hlast]

end TextPipeline
