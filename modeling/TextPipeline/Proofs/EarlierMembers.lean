import Mathlib.Data.List.Nodup

/-!
# Members in view of earlier ones

Some members of a list are chosen in view of the members at earlier places: those that are new,
say, or those that repeat one of the others.  How far the list has been read is all that such a
choice depends on, and so it can be made while the list is read.
-/

namespace TextPipeline

variable {α : Type}

/-- The members that are chosen in view of all members before them. -/
def chosen (p : List α → α → Bool) (xs : List α) : List α :=
  (xs.zipIdx.filter fun q => p (xs.take q.2) q.1).map Prod.fst

/-- The members that are chosen in view of all members before them, those in `front` included. -/
def chosenAfter (p : List α → α → Bool) (front xs : List α) : List α :=
  ((xs.zipIdx front.length).filter fun q => p ((front ++ xs).take q.2) q.1).map Prod.fst

theorem chosenAfter_nil (p : List α → α → Bool) (xs : List α) :
  chosenAfter p [] xs = chosen p xs
  := by
  rfl

/-- The first member is chosen in view of what has been read, and then it has been read too. -/
theorem chosenAfter_cons (p : List α → α → Bool) (front : List α) (x : α) (xs : List α) :
  chosenAfter p front (x :: xs)
    = if p front x then x :: chosenAfter p (front ++ [x]) xs else chosenAfter p (front ++ [x]) xs
  := by
  have hlength : (front ++ [x]).length = front.length + 1 := by simp
  have happend : front ++ x :: xs = (front ++ [x]) ++ xs := by simp
  have hread : ((front ++ [x]) ++ xs).take front.length = front := by simp
  rw [chosenAfter, chosenAfter, List.zipIdx_cons, List.filter_cons, happend, hlength]
  simp only [hread]
  split
  · rw [List.map_cons]
  · rfl

end TextPipeline
