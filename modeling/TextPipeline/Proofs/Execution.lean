import TextPipeline.Execution
import TextPipeline.Proofs.Json.Meaning
import TextPipeline.Proofs.Text.Trimmed

/-!
# Answers of the service

What an answer is taken for depends on its status, on what its body tells of an error, and on the
output in the body, in this order.  The body is told about by its members alone: a body that is no
JSON text has none, and of members of one name the last one counts.  So an answer is a success in
one case only, and every other answer is an error of a kind that the body and the status tell.
-/

namespace TextPipeline

namespace Execution

open Json (HasMember Meant)

variable {body cause name : String} {v : Json}

/-- Null and the empty text tell nothing. -/
def TellsNothing (v : Json) : Prop :=
  v = .null ∨ v = .str ""

/-- A value in words is the text that it is, or its JSON text on one line if it is no text. -/
def words : Json → String
  | .str s => s
  | v => v.text .compact

/-- The body tells of an error in its member `error`, or in its member `detail` if the former is
missing or tells nothing. -/
inductive TellsError (body : String) : String → Prop where
  | error {v : Json} (h : HasMember body "error" v) (hv : ¬ TellsNothing v) :
      TellsError body (words v)
  | detail {v : Json} (hnone : ∀ w, HasMember body "error" w → TellsNothing w)
      (h : HasMember body "detail" v) (hv : ¬ TellsNothing v) : TellsError body (words v)

/-! ### What a body tells -/

/-- No error is told of by null and the empty text, and by nothing else. -/
theorem told_eq_none_iff :
  told v = none ↔ TellsNothing v
  := by
  cases v with
  | str s => simp [told, TellsNothing]
  | _ => simp [told, TellsNothing]

/-- What a value tells of an error are its words, unless it tells nothing. -/
theorem told_eq_some_iff :
  told v = some cause ↔ ¬ TellsNothing v ∧ words v = cause
  := by
  rw [← told_eq_none_iff]
  cases v with
  | null => simp [told]
  | str s =>
    rw [told, words]
    split <;> simp
  | _ => simp [told, words]

/-- The members that are found in the value of a body are the last ones of their names in it. -/
theorem exists_member?_eq_iff :
  (∃ value, (Json.parse body).toOption = some value ∧ member? value name = some v)
    ↔ HasMember body name v
  := by
  rw [Json.hasMember_iff]
  cases Json.parse body with
  | error fault => simp [Except.toOption]
  | ok value => cases value <;> simp [Except.toOption, member?]

/-- A value tells what the first of two of its members tells, or the second if the first tells
nothing. -/
theorem bind_errorOf_eq (value : Option Json) :
  value.bind errorOf
    = ((value.bind fun value => member? value "error").bind told).or
        ((value.bind fun value => member? value "detail").bind told)
  := by
  cases value with
  | none => rfl
  | some value =>
    simp only [errorOf, Option.bind_some, List.findSome?_cons, List.findSome?_nil]
    cases (member? value "error").bind told with
    | some cause => rfl
    | none => cases (member? value "detail").bind told <;> rfl

/-- What the value of a body tells of an error is what the body tells. -/
theorem bind_errorOf_eq_some_iff :
  (Json.parse body).toOption.bind errorOf = some cause ↔ TellsError body cause
  := by
  rw [bind_errorOf_eq, Option.or_eq_some_iff]
  simp only [Option.bind_eq_some_iff, Option.bind_eq_none_iff, exists_member?_eq_iff,
    told_eq_some_iff, told_eq_none_iff]
  constructor
  · rintro (⟨v, h, hv, rfl⟩ | ⟨hnone, v, h, hv, rfl⟩)
    · exact .error h hv
    · exact .detail hnone h hv
  · intro h
    cases h with
    | error h hv => exact .inl ⟨_, h, hv, rfl⟩
    | detail hnone h hv => exact .inr ⟨hnone, _, h, hv, rfl⟩

/-- The value of a body tells of no error when the body tells of none. -/
theorem bind_errorOf_eq_none_iff :
  (Json.parse body).toOption.bind errorOf = none ↔ ∀ cause, ¬ TellsError body cause
  := by
  simp only [Option.eq_none_iff_forall_ne_some, ne_eq, bind_errorOf_eq_some_iff]

/-- The body tells of no error exactly when nothing is told by its members `error` and `detail`. -/
theorem forall_not_tellsError_iff :
  (∀ cause, ¬ TellsError body cause)
    ↔ ∀ name ∈ ["error", "detail"], ∀ v, HasMember body name v → TellsNothing v
  := by
  simp only [List.forall_mem_cons, List.not_mem_nil, false_implies, implies_true, and_true]
  constructor
  · intro hsilent
    have herror : ∀ v, HasMember body "error" v → TellsNothing v := by
      intro v h
      by_contra hv
      apply hsilent _ (.error h hv)
    use herror
    intro v h
    by_contra hv
    apply hsilent _ (.detail herror h hv)
  · rintro ⟨herror, hdetail⟩ _ (⟨h, hv⟩ | ⟨-, h, hv⟩)
    · apply hv (herror _ h)
    · apply hv (hdetail _ h)

/-! ### What an answer is taken for -/

/-- An answer whose status is no success is an error with this status. -/
theorem interpret_of_failure {status : Nat} (h : ¬ (200 ≤ status ∧ status ≤ 299)) :
  (∀ cause, TellsError body cause → interpret status body = .error (.status status cause)) ∧
  ((∀ cause, ¬ TellsError body cause) →
    ∃ cause, Trimmed body cause ∧ interpret status body = .error (.status status cause))
  := by
  have hstatus : status < 200 ∨ 300 ≤ status := by omega
  constructor
  · intro cause hcause
    rw [interpret, if_pos hstatus, bind_errorOf_eq_some_iff.2 hcause]
    rfl
  · intro hsilent
    use String.ofList (trimBlank body.toList), trimmed_trimBlank body
    rw [interpret, if_pos hstatus, bind_errorOf_eq_none_iff.2 hsilent]
    rfl

/-- An answer whose status is a success and whose body tells of an error is an error of the
service. -/
theorem interpret_of_tellsError {status : Nat} (h : 200 ≤ status ∧ status ≤ 299)
    (hcause : TellsError body cause) :
  interpret status body = .error (.remote cause)
  := by
  rw [interpret, if_neg (by omega), bind_errorOf_eq_some_iff.2 hcause]

/-- An answer whose status is a success and whose body tells of no error is what its output is. -/
theorem interpret_of_silent {status : Nat} (h : 200 ≤ status ∧ status ≤ 299)
    (hsilent : ∀ cause, ¬ TellsError body cause) :
  ((∀ v, ¬ Meant v body) →
    interpret status body = .error (.malformedResponse "response body is not valid JSON")) ∧
  (∀ v, Meant v body → (∀ output, ¬ HasMember body "output" (.str output)) →
    interpret status body
      = .error (.malformedResponse "response has no string 'output' field")) ∧
  ∀ output, HasMember body "output" (.str output) → interpret status body = .ok output
  := by
  have hstatus : ¬ (status < 200 ∨ 300 ≤ status) := by omega
  refine ⟨?_, ?_, ?_⟩
  · intro hmeaningless
    rw [interpret, if_neg hstatus, bind_errorOf_eq_none_iff.2 hsilent]
    cases hparse : Json.parse body with
    | error fault => rfl
    | ok v => apply absurd (Json.parse_eq_ok_iff.1 hparse) (hmeaningless v)
  · intro v hmeant hmissing
    have hparse : (Json.parse body).toOption = some v := by
      rw [Json.parse_eq_ok_iff.2 hmeant]
      rfl
    rw [interpret, if_neg hstatus, bind_errorOf_eq_none_iff.2 hsilent, hparse]
    simp only
    split
    · next output houtput =>
      apply absurd (exists_member?_eq_iff.1 ⟨v, hparse, houtput⟩) (hmissing output)
    · rfl
  · intro output houtput
    obtain ⟨v, hparse, hmember⟩ := exists_member?_eq_iff.2 houtput
    rw [interpret, if_neg hstatus, bind_errorOf_eq_none_iff.2 hsilent, hparse]
    simp only [hmember]

/-- An answer is a success exactly when its status is one, its output is a text, and its body tells
of no error. -/
theorem interpret_eq_ok_iff {status : Nat} {output : String} :
  interpret status body = .ok output
    ↔ (200 ≤ status ∧ status ≤ 299) ∧ HasMember body "output" (.str output) ∧
        ∀ cause, ¬ TellsError body cause
  := by
  constructor
  · intro hok
    by_cases h : 200 ≤ status ∧ status ≤ 299
    · have hsilent : ∀ cause, ¬ TellsError body cause := by
        intro cause hcause
        rw [interpret_of_tellsError h hcause] at hok
        cases hok
      obtain ⟨hmeaningless, hmissing, hfound⟩ := interpret_of_silent h hsilent
      by_cases hmeant : ∃ v, Meant v body
      · by_cases houtput : ∃ output, HasMember body "output" (.str output)
        · obtain ⟨output', houtput⟩ := houtput
          rw [hfound output' houtput, Except.ok.injEq] at hok
          subst hok
          exact ⟨h, houtput, hsilent⟩
        · obtain ⟨v, hmeant⟩ := hmeant
          rw [hmissing v hmeant (not_exists.1 houtput)] at hok
          cases hok
      · rw [hmeaningless (not_exists.1 hmeant)] at hok
        cases hok
    · obtain ⟨htold, hsilent⟩ := @interpret_of_failure body status h
      by_cases hcause : ∃ cause, TellsError body cause
      · obtain ⟨cause, hcause⟩ := hcause
        rw [htold cause hcause] at hok
        cases hok
      · obtain ⟨cause, -, hfailed⟩ := hsilent (not_exists.1 hcause)
        rw [hfailed] at hok
        cases hok
  · rintro ⟨h, houtput, hsilent⟩
    apply (interpret_of_silent h hsilent).2.2 output houtput

/-- What an answer with any status and any body is taken for.  An answer whose status is no success
is an error with this status and what the body tells of an error, or the body without the white
space at its ends if the body tells of none.  Any other answer whose body tells of an error is an
error of the service, whether it has an output or not.  If the body tells of no error, either, the
answer is malformed when the body is no JSON text or has no text as its output, and otherwise it is
a success with this output.  So answers are successes in this case only: the status is a success,
the output is a text, and neither `error` nor `detail` tells anything, each being missing, null or
empty. -/
theorem interpret_classified (status : Nat) (body : String) :
  (¬ (200 ≤ status ∧ status ≤ 299) →
    (∀ cause, TellsError body cause → interpret status body = .error (.status status cause)) ∧
    ((∀ cause, ¬ TellsError body cause) →
      ∃ cause, Trimmed body cause ∧ interpret status body = .error (.status status cause))) ∧
  (200 ≤ status ∧ status ≤ 299 →
    (∀ cause, TellsError body cause → interpret status body = .error (.remote cause)) ∧
    ((∀ cause, ¬ TellsError body cause) →
      ((∀ v, ¬ Meant v body) →
        interpret status body = .error (.malformedResponse "response body is not valid JSON")) ∧
      (∀ v, Meant v body → (∀ output, ¬ HasMember body "output" (.str output)) →
        interpret status body
          = .error (.malformedResponse "response has no string 'output' field")) ∧
      ∀ output, HasMember body "output" (.str output) → interpret status body = .ok output)) ∧
  ∀ output, interpret status body = .ok output
    ↔ (200 ≤ status ∧ status ≤ 299) ∧ HasMember body "output" (.str output) ∧
        ∀ name ∈ ["error", "detail"], ∀ v, HasMember body name v → TellsNothing v
  := by
  refine ⟨interpret_of_failure,
    fun h => ⟨fun _ => interpret_of_tellsError h, interpret_of_silent h⟩, ?_⟩
  intro output
  rw [← forall_not_tellsError_iff]
  apply interpret_eq_ok_iff

/-- A body with a text as its output whose member `detail` is no text. -/
def refusal : String :=
  "\x7b\"output\":\"x\",\"error\":\"\",\"detail\":0\x7d"

/-- A body with an output whose member `error` is a text at first and is null at last. -/
def acceptance : String :=
  "\x7b\"error\":\"no\",\"output\":\" x\",\"error\":null\x7d"

/-- A body that tells of an error is an error even if its status is a success and it has an output.
The error can be a number that is read in steps.  A failure whose body is no JSON text has this body
as its cause, without the white space at its ends.  A member that is null at last tells nothing. -/
theorem interpret_classified_replies :
  interpret 200 refusal = .error (.remote "0") ∧
  interpret 503 refusal = .error (.status 503 "0") ∧
  interpret 200 "\x7b\"error\":3e23\x7d" = .error (.remote "2.9999999999999997e+23") ∧
  interpret 503 " down\n" = .error (.status 503 "down") ∧
  interpret 299 acceptance = .ok " x"
  := by
  have hrefusal : TellsError refusal "0" := by
    apply bind_errorOf_eq_some_iff.1
    decide +kernel
  have hnumber : TellsError "\x7b\"error\":3e23\x7d" "2.9999999999999997e+23" := by
    apply bind_errorOf_eq_some_iff.1
    decide +kernel
  have hdown : ∀ cause, ¬ TellsError " down\n" cause := by
    apply bind_errorOf_eq_none_iff.1
    decide +kernel
  have hacceptance : ∀ cause, ¬ TellsError acceptance cause := by
    apply bind_errorOf_eq_none_iff.1
    decide +kernel
  have houtput : HasMember acceptance "output" (.str " x") := by
    apply Json.hasMember_iff.2
    use [("error", .null), ("output", .str " x")]
    decide +kernel
  refine ⟨?_, ?_, ?_, ?_, ?_⟩
  · apply ((interpret_classified 200 refusal).2.1 (by decide)).1 _ hrefusal
  · apply ((interpret_classified 503 refusal).1 (by decide)).1 _ hrefusal
  · apply ((interpret_classified 200 _).2.1 (by decide)).1 _ hnumber
  · obtain ⟨cause, htrimmed, hinterpret⟩ :=
      ((interpret_classified 503 " down\n").1 (by decide)).2 hdown
    have hcause : cause = "down" := htrimmed.eq_trimBlank.trans (by decide)
    rw [hinterpret, hcause]
  · rw [(interpret_classified 299 acceptance).2.2, ← forall_not_tellsError_iff]
    exact ⟨by decide, houtput, hacceptance⟩

end Execution

end TextPipeline
