import TextPipeline.Named

/-!
# Sorted values

Values with names are sorted when their names increase, so that no name occurs twice.  Giving a
name a value and taking one away keep them sorted, and sorted values are the same as soon as each
name has the same value in both.
-/

namespace TextPipeline

namespace Named

variable {α : Type}

/-- The names increase. -/
def Sorted (values : Named α) : Prop :=
  values.Pairwise fun v w => v.1 < w.1

/-- The values with further values, one after the other. -/
def insertAll (values further : Named α) : Named α :=
  further.foldl (fun acc v => acc.insert v.1 v.2) values

/-! ### Looking up -/

/-- The first of the values has its name. -/
theorem get?_cons_self (name : String) (value : α) (values : Named α) :
  get? name ((name, value) :: values) = some value
  := by
  simp [get?]

/-- A name is looked up behind a value of another name. -/
theorem get?_cons_of_ne {name other : String} (value : α) (values : Named α)
    (h : name ≠ other) :
  get? name ((other, value) :: values) = get? name values
  := by
  simp [get?, List.lookup_cons, beq_eq_false_iff_ne.2 h]

/-- A name that no value has is not found. -/
theorem get?_eq_none {name : String} {values : Named α} (h : ∀ v ∈ values, v.1 ≠ name) :
  get? name values = none
  := by
  rw [get?, List.lookup_eq_none_iff]
  intro v hv
  simp [(h v hv).symm]

/-- A value is found under its name as long as no name comes twice. -/
theorem get?_eq_some_iff {values : Named α} (h : (values.map Prod.fst).Nodup) {name : String}
    {value : α} :
  get? name values = some value ↔ (name, value) ∈ values
  := by
  induction values with
  | nil => simp [get?]
  | cons v values ih =>
    obtain ⟨k, v⟩ := v
    rw [List.map_cons, List.nodup_cons] at h
    by_cases hname : name = k
    · subst hname
      have hfirst : (name, value) ∉ values := by
        intro hmem
        apply h.1
        apply List.mem_map_of_mem (f := Prod.fst) hmem
      rw [get?_cons_self, List.mem_cons]
      simp [hfirst, eq_comm]
    · rw [get?_cons_of_ne v values hname, ih h.2]
      simp [hname]

/-- A name is looked up in values and, if it is not found, in those behind them. -/
theorem get?_append (name : String) (values others : Named α) :
  get? name (values ++ others) = (get? name values).or (get? name others)
  := List.lookup_append

/-- In sorted values the name of the first one does not come again. -/
theorem Sorted.get?_tail {name : String} {value : α} {values : Named α}
    (h : Sorted ((name, value) :: values)) :
  get? name values = none
  := by
  apply get?_eq_none
  intro v hv heq
  have hlt := (List.pairwise_cons.1 h).1 v hv
  simp only [heq] at hlt
  apply String.lt_irrefl _ hlt

/-- In sorted values a name before the first one is not found. -/
theorem Sorted.get?_of_lt {name first : String} {value : α} {values : Named α}
    (h : Sorted ((first, value) :: values)) (hlt : name < first) :
  get? name ((first, value) :: values) = none
  := by
  apply get?_eq_none
  intro v hv heq
  obtain rfl | hv := List.mem_cons.1 hv
  · simp only at heq
    apply String.lt_irrefl name
    rw [heq] at hlt
    apply hlt
  · have hbehind := (List.pairwise_cons.1 h).1 v hv
    rw [heq] at hbehind
    apply String.lt_asymm hlt hbehind

/-- Sorted values are the same if each name has the same value in both. -/
theorem Sorted.ext {values others : Named α} (hv : Sorted values) (ho : Sorted others)
    (h : ∀ name, get? name values = get? name others) :
  values = others
  := by
  induction values generalizing others with
  | nil =>
    cases others with
    | nil => rfl
    | cons o others =>
      have := h o.1
      rw [get?_cons_self] at this
      cases this
  | cons v values ih =>
    obtain ⟨k, v⟩ := v
    cases others with
    | nil =>
      have := h k
      rw [get?_cons_self] at this
      cases this
    | cons o others =>
      obtain ⟨l, o⟩ := o
      have hkl : k = l := by
        obtain hlt | heq | hlt : k < l ∨ k = l ∨ l < k := by grind
        · have := h k
          rw [get?_cons_self, ho.get?_of_lt hlt] at this
          cases this
        · apply heq
        · have := h l
          rw [get?_cons_self, hv.get?_of_lt hlt] at this
          cases this
      subst hkl
      have hvalue : v = o := by
        have := h k
        rw [get?_cons_self, get?_cons_self] at this
        apply Option.some.inj this
      rw [hvalue, ih (List.pairwise_cons.1 hv).2 (List.pairwise_cons.1 ho).2]
      intro name
      by_cases hname : name = k
      · rw [hname, hv.get?_tail, ho.get?_tail]
      · have := h name
        rw [get?_cons_of_ne v values hname, get?_cons_of_ne o others hname] at this
        apply this

/-! ### Changing -/

/-- A value is the one just given, or it was there before. -/
theorem mem_of_mem_insert {name : String} {value : α} {values : Named α} {v : String × α}
    (h : v ∈ insert name value values) :
  v = (name, value) ∨ v ∈ values
  := by
  induction values with
  | nil =>
    rw [insert, List.mem_singleton] at h
    apply Or.inl h
  | cons w rest ih =>
    obtain ⟨k, w⟩ := w
    rw [insert] at h
    split at h
    · obtain rfl | hv := List.mem_cons.1 h
      · apply Or.inl rfl
      · apply Or.inr hv
    · split at h
      · obtain rfl | hv := List.mem_cons.1 h
        · apply Or.inl rfl
        · apply Or.inr (List.mem_cons_of_mem _ hv)
      · obtain rfl | hv := List.mem_cons.1 h
        · apply Or.inr List.mem_cons_self
        · obtain hnew | hold := ih hv
          · apply Or.inl hnew
          · apply Or.inr (List.mem_cons_of_mem _ hold)

/-- Sorted values are sorted with one more value. -/
theorem Sorted.insert {values : Named α} (h : Sorted values) (name : String) (value : α) :
  Sorted (Named.insert name value values)
  := by
  induction values with
  | nil => apply List.pairwise_singleton
  | cons w rest ih =>
    obtain ⟨k, w⟩ := w
    obtain ⟨hfirst, hrest⟩ := List.pairwise_cons.1 h
    rw [Named.insert]
    split
    · next hlt =>
      apply List.pairwise_cons.2 (And.intro _ h)
      intro v hv
      obtain rfl | hv := List.mem_cons.1 hv
      · apply hlt
      · apply String.lt_trans hlt (hfirst v hv)
    · next hge =>
      split
      · next heq =>
        subst heq
        apply List.pairwise_cons.2 (And.intro _ hrest)
        apply hfirst
      · next hne =>
        apply List.pairwise_cons.2 (And.intro _ (ih hrest))
        intro v hv
        obtain rfl | hv := mem_of_mem_insert hv
        · change k < name
          grind
        · apply hfirst v hv

/-- Sorted values are sorted without the value of a name. -/
theorem Sorted.erase {values : Named α} (h : Sorted values) (name : String) :
  Sorted (Named.erase name values)
  := List.Pairwise.filter _ h

/-- The value under a name after the value of some name is taken away. -/
theorem get?_erase (name other : String) (values : Named α) :
  get? other (erase name values) = if other = name then none else get? other values
  := by
  split
  · next heq =>
    apply get?_eq_none
    intro v hv
    rw [erase, List.mem_filter] at hv
    simpa [heq] using hv.2
  · next hne =>
    induction values with
    | nil => rfl
    | cons v rest ih =>
      obtain ⟨k, v⟩ := v
      rw [erase] at ih ⊢
      by_cases hk : k = name
      · rw [List.filter_cons_of_neg (by simp [hk]), ih, get?_cons_of_ne v rest]
        rw [hk]
        apply hne
      · rw [List.filter_cons_of_pos (by simp [hk])]
        by_cases hother : other = k
        · rw [hother, get?_cons_self, get?_cons_self]
        · rw [get?_cons_of_ne v _ hother, get?_cons_of_ne v _ hother, ih]

/-- A value that is found under its name and the values of the other names are all the values, as
long as no name comes twice. -/
theorem cons_erase_perm {name : String} {value : α} {values : Named α}
    (h : (values.map Prod.fst).Nodup) (hget : get? name values = some value) :
  ((name, value) :: erase name values).Perm values
  := by
  induction values with
  | nil => cases hget
  | cons w rest ih =>
    obtain ⟨k, w⟩ := w
    rw [List.map_cons, List.nodup_cons] at h
    by_cases hname : name = k
    · subst hname
      rw [get?_cons_self, Option.some.injEq] at hget
      have hrest : erase name rest = rest := by
        apply List.filter_eq_self.2
        intro v hv
        have hne : v.1 ≠ name := ne_of_mem_of_not_mem (List.mem_map_of_mem hv) h.1
        simpa using hne
      rw [erase, List.filter_cons_of_neg (by simp), ← erase, hrest, hget]
    · rw [get?_cons_of_ne w rest hname] at hget
      rw [erase, List.filter_cons_of_pos (by simpa using Ne.symm hname), ← erase]
      apply (List.Perm.swap _ _ _).trans
      apply (ih h.2 hget).cons

/-- The values are sorted with all the further ones. -/
theorem Sorted.insertAll {values : Named α} (h : Sorted values) (further : Named α) :
  Sorted (Named.insertAll values further)
  := by
  induction further generalizing values with
  | nil => apply h
  | cons v further ih => apply ih (h.insert v.1 v.2)

/-- The value under a name is the last one of the further ones if there is one. -/
theorem get?_insertAll_reverse (values further : Named α) (name : String) :
  get? name (insertAll values further) = (get? name further.reverse).or (get? name values)
  := by
  induction further generalizing values with
  | nil => rfl
  | cons v further ih =>
    obtain ⟨k, v⟩ := v
    rw [insertAll, List.foldl_cons, ← insertAll, ih, List.reverse_cons, get?_append,
      Option.or_assoc]
    congr 1
    by_cases hname : name = k
    · rw [hname, get?_insert_self, get?_cons_self]
      rfl
    · rw [get?_insert_of_ne v values hname, get?_cons_of_ne v [] hname]
      rfl

/-- A name has the same value in whatever order the values come, as long as no name comes twice. -/
theorem get?_congr {values others : Named α} (h : values.Perm others)
    (hnodup : (others.map Prod.fst).Nodup) (name : String) :
  get? name values = get? name others
  := by
  have hnodup' : (values.map Prod.fst).Nodup := (h.map Prod.fst).nodup_iff.2 hnodup
  apply Option.ext
  intro value
  rw [get?_eq_some_iff hnodup', get?_eq_some_iff hnodup, h.mem_iff]

/-- The value under a name is the further one if there is one, as long as no name comes twice
among the further values. -/
theorem get?_insertAll {values further : Named α} (h : (further.map Prod.fst).Nodup)
    (name : String) :
  get? name (insertAll values further) = (get? name further).or (get? name values)
  := by
  rw [get?_insertAll_reverse, get?_congr further.reverse_perm h]

/-- Of values that were inserted one after the other the last one of a name is found under it. -/
theorem get?_insertAll_nil_eq_some_iff {further : Named α} {name : String} {value : α} :
  get? name (insertAll [] further) = some value
    ↔ ∃ front back, further = front ++ (name, value) :: back ∧ ∀ v ∈ back, v.1 ≠ name
  := by
  have hnil : get? name ([] : Named α) = none := rfl
  rw [get?_insertAll_reverse, hnil, Option.or_none, get?, List.lookup_eq_some_iff]
  constructor
  · rintro ⟨back, front, hfurther, hback⟩
    refine ⟨front.reverse, back.reverse, ?_, ?_⟩
    · rw [← List.reverse_reverse further, hfurther]
      simp
    · intro v hv
      apply (bne_iff_ne.1 (hback v (List.mem_reverse.1 hv))).symm
  · rintro ⟨front, back, rfl, hback⟩
    refine ⟨back.reverse, front.reverse, ?_, ?_⟩
    · simp
    · intro v hv
      apply bne_iff_ne.2 (hback v (List.mem_reverse.1 hv)).symm

/-- The value under a name among values that were inserted one after the other. -/
theorem get?_insertAll_nil {further : Named α} (h : (further.map Prod.fst).Nodup) (name : String) :
  get? name (insertAll [] further) = get? name further
  := by
  rw [get?_insertAll h]
  apply Option.or_none

/-- Values that were inserted one after the other are sorted. -/
theorem sorted_insertAll_nil (further : Named α) :
  Sorted (insertAll [] further)
  := by
  apply Sorted.insertAll
  apply List.Pairwise.nil

/-- The value that was inserted first can be taken away again. -/
theorem erase_insertAll_cons {name : String} {value : α} {further : Named α}
    (h : (((name, value) :: further).map Prod.fst).Nodup) :
  erase name (insertAll [] ((name, value) :: further)) = insertAll [] further
  := by
  have hfurther : (further.map Prod.fst).Nodup := (List.nodup_cons.1 h).2
  apply Sorted.ext ((sorted_insertAll_nil _).erase name) (sorted_insertAll_nil further)
  intro other
  rw [get?_erase, get?_insertAll_nil h, get?_insertAll_nil hfurther]
  split
  · next heq =>
    rw [heq, get?_eq_none]
    intro v hv hname
    apply (List.nodup_cons.1 h).1
    rw [← hname]
    apply List.mem_map_of_mem hv
  · next hne => rw [get?_cons_of_ne value further hne]

/-- No name comes twice in sorted values. -/
theorem Sorted.nodup {values : Named α} (h : Sorted values) :
  (values.map Prod.fst).Nodup
  := by
  rw [List.Nodup, List.pairwise_map]
  apply List.Pairwise.imp _ h
  intro v w hlt heq
  rw [heq] at hlt
  apply String.lt_irrefl _ hlt

/-- Sorted values are what their insertion one after the other gives. -/
theorem Sorted.insertAll_nil {values : Named α} (h : Sorted values) :
  Named.insertAll [] values = values
  := by
  apply Sorted.ext (sorted_insertAll_nil values) h
  intro name
  apply get?_insertAll_nil h.nodup

/-- Values with each name once are put into the same order in whatever order they come. -/
theorem insertAll_nil_congr {values others : Named α} (h : values.Perm others)
    (hnodup : (others.map Prod.fst).Nodup) :
  insertAll [] values = insertAll [] others
  := by
  have hnodup' : (values.map Prod.fst).Nodup := (h.map Prod.fst).nodup_iff.2 hnodup
  apply Sorted.ext (sorted_insertAll_nil values) (sorted_insertAll_nil others)
  intro name
  rw [get?_insertAll_nil hnodup', get?_insertAll_nil hnodup, get?_congr h hnodup]

end Named

end TextPipeline
