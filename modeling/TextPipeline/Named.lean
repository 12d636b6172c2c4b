/-!
# Named values

Lists of values with names.  Where the order carries no meaning the list is sorted by name and
holds each name once, and the operations below keep it so.
-/

namespace TextPipeline

/-- Values with names. -/
abbrev Named (α : Type) : Type := List (String × α)

namespace Named

variable {α : Type}

/-- The values with a value under a name, in place of any value the name had. -/
def insert (name : String) (value : α) : Named α → Named α
  | [] => [(name, value)]
  | (k, v) :: rest =>
    if name < k then (name, value) :: (k, v) :: rest
    else if name = k then (name, value) :: rest
    else (k, v) :: insert name value rest

/-- The value under a name. -/
def get? (name : String) (values : Named α) : Option α :=
  values.lookup name

/-- The values without those of a name. -/
def erase (name : String) (values : Named α) : Named α :=
  values.filter fun v => v.1 ≠ name

/-- Whether some value has a name. -/
def contains (name : String) (values : Named α) : Bool :=
  values.any fun v => v.1 = name

/-- The value under a name that has just been given one. -/
theorem get?_insert_self (name : String) (value : α) (values : Named α) :
  get? name (insert name value values) = some value
  := by
  induction values with
  | nil => simp [insert, get?]
  | cons v rest ih =>
    obtain ⟨k, v⟩ := v
    simp only [insert, get?] at ih ⊢
    split
    · simp
    · split
      · simp
      · next hne => simp [List.lookup_cons, beq_eq_false_iff_ne.2 hne, ih]

/-- The value under another name than the one that has just been given a value. -/
theorem get?_insert_of_ne {name other : String} (value : α) (values : Named α)
    (h : other ≠ name) :
  get? other (insert name value values) = get? other values
  := by
  induction values with
  | nil => simp [insert, get?, List.lookup_cons, beq_eq_false_iff_ne.2 h]
  | cons v rest ih =>
    obtain ⟨k, v⟩ := v
    simp only [insert, get?] at ih ⊢
    split
    · simp [List.lookup_cons, beq_eq_false_iff_ne.2 h]
    · split
      · next heq =>
        subst heq
        simp [List.lookup_cons, beq_eq_false_iff_ne.2 h]
      · simp [List.lookup_cons, ih]

end Named

end TextPipeline
