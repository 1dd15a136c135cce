import Eligibility.Proofs.Evaluation.Steps
import Eligibility.Proofs.Operator.Result
import Eligibility.Proofs.Rule.Nesting
/-!
# What an evaluation comes to

A value of a rule is one of the operation of its outermost operator, run on arguments of its types
(`body_of_evaluate_ok`).  A failure is one that evaluation itself has, or that of such an operation somewhere in the
rule (`error_of_resolve`).  Of the standard operators this leaves little: a boolean or a finite number, and of the
failures of operations only those of the sum (`evaluate_standard`).
-/
namespace Eligibility

/-- Whether evaluation itself fails like this, apart from what operations do and from the registration of operators. -/
def RuleError.ofEvaluation : RuleError → Bool
  | .unknownType _ | .registrationArity .. | .operationFailed .. => false
  | _ => true

/-- Whether an operation of the table fails like this on arguments of its types. -/
def OperatorTable.FailsWith (t : OperatorTable) (failure : RuleError) : Prop :=
  ∃ name o args, t.get? name = some o ∧ List.Forall₂ Validator.Accepts o.params args ∧
    o.operation.body args = .error failure

namespace Evaluator

variable {e : Evaluator}

theorem ofEvaluation_of_operatorAt {depth : Nat} {name : String} {failure : RuleError}
    (h : e.operatorAt depth name = .error failure) : failure.ofEvaluation = true := by
  rw [operatorAt] at h
  split at h
  · cases h
    rfl
  · split at h <;> cases h
    rfl

theorem ofEvaluation_of_failAt {depth : Nat} {failure other : RuleError} (hf : failure.ofEvaluation = true)
    (h : (e.failAt depth failure).outcome = .error other) : other.ofEvaluation = true := by
  rw [failAt] at h
  split at h <;> cases h
  · rfl
  · exact hf

theorem error_of_invoke_known {name : String} {o : Operator} (ho : e.operators.get? name = some o)
    {operands : List (Outcome Json)} {failure : RuleError} (h : o.invoke operands = .error failure) :
    failure.ofEvaluation = true ∨ .error failure ∈ operands ∨ e.operators.FailsWith failure := by
  rcases Operator.error_of_invoke h with rfl | hoperand | ⟨type, -, a, ha⟩ | ⟨args, hargs, hbody⟩
  · exact .inl rfl
  · exact .inr (.inl hoperand)
  · obtain ⟨failed, rfl⟩ := Validator.error_of_validate ha
    exact .inl rfl
  · exact .inr (.inr ⟨name, o, args, ho, hargs, hbody⟩)

/-- **A failure is one of evaluation itself, or of an operation** somewhere in the rule. -/
theorem error_of_resolve (context : Json) {failure : RuleError} (r : Rule) :
    ∀ depth, (e.resolve context depth r).outcome = .error failure →
      failure.ofEvaluation = true ∨ e.operators.FailsWith failure := by
  induction r using Rule.induct with
  | call name operands ih =>
    intro depth h
    cases ho : e.operatorAt (depth + 1) name with
    | error other =>
      rw [resolve_call_error ho] at h
      cases h
      exact .inl (ofEvaluation_of_operatorAt ho)
    | ok o =>
      rw [outcome_resolve_call ho] at h
      rcases error_of_invoke_known (operatorAt_eq_ok_iff.1 ho).2 h with h | h | h
      · exact .inl h
      · obtain ⟨operand, hoperand, hfails⟩ := List.mem_map.1 h
        exact ih operand hoperand (depth + 1) hfails
      · exact .inr h
  | uncallable name operands =>
    intro depth h
    rw [resolve] at h
    cases ho : e.operatorAt (depth + 1) name with
    | error other =>
      rw [ho] at h
      cases h
      exact .inl (ofEvaluation_of_operatorAt ho)
    | ok o =>
      rw [ho] at h
      dsimp only [Run.fail] at h
      unfold operandsError at h
      split at h <;> cases h <;> exact .inl rfl
  | malformed members =>
    intro depth h
    rw [resolve] at h
    refine .inl (ofEvaluation_of_failAt ?_ h)
    unfold malformedError
    split <;> rfl
  | reference path =>
    intro depth h
    rw [resolve, Json.Path.resolve] at h
    split at h <;> cases h <;> exact .inl rfl
  | null =>
    intro depth h
    rw [resolve] at h
    cases h
    exact .inl rfl
  | literal v =>
    intro depth h
    rw [resolve] at h
    cases h

theorem error_of_evaluate {rule context : Json} {failure : RuleError}
    (h : e.evaluate rule context = .error failure) :
    failure.ofEvaluation = true ∨ e.operators.FailsWith failure := by
  unfold evaluate at h
  cases hm : (Rule.ofJson rule).isMapping with
  | true =>
    rw [run_of_isMapping e context hm] at h
    exact error_of_resolve context _ 0 h
  | false =>
    rw [run_of_not_isMapping e context hm] at h
    exact .inl (ofEvaluation_of_failAt rfl h)

/-- **A rule that has a value calls a known operator**, and the value is that of its operation. -/
theorem body_of_evaluate_ok {rule context v : Json} (h : e.evaluate rule context = .ok v) :
    ∃ name operands o args, rule = .call name operands ∧ e.operators.get? name = some o ∧
      List.Forall₂ Validator.Accepts o.params args ∧ o.operation.body args = .ok v := by
  unfold evaluate at h
  have hrule := Rule.toJson_ofJson rule
  cases hr : Rule.ofJson rule with
  | call name operands =>
    rw [hr] at h hrule
    rw [run_of_isMapping e context rfl] at h
    cases ho : e.operatorAt 1 name with
    | error failure =>
      rw [resolve_call_error ho] at h
      cases h
    | ok o =>
      rw [outcome_resolve_call ho] at h
      obtain ⟨args, hargs, hbody⟩ := Operator.body_of_invoke_ok h
      exact ⟨name, Rule.toJsons operands, o, args, hrule.symm.trans (by rw [Rule.toJson, Json.call]),
        (operatorAt_eq_ok_iff.1 ho).2, hargs, hbody⟩
  | uncallable name operands =>
    rw [hr, run_of_isMapping e context rfl, resolve] at h
    cases ho : e.operatorAt 1 name <;> rw [ho] at h <;> cases h
  | malformed members =>
    rw [hr, run_of_isMapping e context rfl, resolve] at h
    cases h
  | reference path | null | literal w =>
    rw [hr, outcome_run_of_not_mapping e context rfl] at h
    split at h <;> cases h

/-- **What the standard operators come to.**  A value is a boolean, or a finite number if the rule is a sum; no failure
is one of a registration, and the only operation that fails is the sum, as all others give a boolean once their
operands are validated.  No running total of a sum is what is not a number. -/
theorem evaluate_standard (maxDepth : Nat) (sinks : List Sink) (rule context : Json) :
    (∀ v, evaluate ⟨.standard, maxDepth, sinks⟩ rule context = .ok v → ∃ name operands, rule = .call name operands ∧
        (name ∈ ["and", "or", "gt", "lt", "gte", "lte", "inrange"] ∧ (∃ b, v = .bool b) ∨
          name = "sum" ∧ ∃ x : Binary64.Finite, v.asReal = some x)) ∧
      (∀ failure, evaluate ⟨.standard, maxDepth, sinks⟩ rule context = .error failure →
        (∀ typeName, failure ≠ .unknownType typeName) ∧
        (∀ name declared arity, failure ≠ .registrationArity name declared arity) ∧
        ∀ name message, failure = .operationFailed name message → name = "sum") ∧
      (∀ o ∈ Operator.standard, o.name ≠ "sum" → ∀ operands args, operands.length = o.arity →
        Outcome.sequence (Operator.validated o.params operands) = .ok args →
        ∃ b, o.operation.body args = .ok (.bool b)) ∧
      ∀ vs total, Operator.addAll (.finite (.zero false)) vs = .ok total → total ≠ .nan := by
  refine ⟨?_, ?_, ?_, ?_⟩
  · intro v hv
    obtain ⟨name, operands, o, args, hrule, ho, hargs, hbody⟩ := body_of_evaluate_ok hv
    obtain ⟨hmem, rfl⟩ := OperatorTable.mem_standard_of_get? ho
    exact ⟨o.name, operands, hrule, Operator.value_of_mem_standard hmem hargs hbody⟩
  · intro failure hfailure
    rcases error_of_evaluate hfailure with hown | ⟨name, o, args, ho, hargs, hbody⟩
    · refine ⟨?_, ?_, ?_⟩
      · rintro typeName rfl
        cases hown
      · rintro name declared arity rfl
        cases hown
      · rintro name message rfl
        cases hown
    · obtain ⟨message, rfl⟩ :=
        Operator.error_of_mem_standard (OperatorTable.mem_standard_of_get? ho).1 hargs hbody
      refine ⟨nofun, nofun, ?_⟩
      intro name message hname
      cases hname
      rfl
  · intro o ho hname operands args hlen hargs
    exact Operator.bool_of_mem_standard ho hname (Operator.accepts_of_sequence hlen hargs)
  · intro vs total htotal
    refine Operator.addAll_ne_nan ?_ htotal
    exact nofun

/-- A sum of numbers is a number, what is told to add up a text fails as a sum, and a comparison is not run on one. -/
theorem evaluate_standard_of_amounts :
    let e : Evaluator := ⟨.standard, 2, []⟩
    let number (n : Json.Integer) : Json := .number (.integer n)
    let sum : Json := .object [("sum", .array [.string "!amounts"])]
    let above : Json := .object [("gt", .array [.string "!amounts", number ⟨1, by decide⟩])]
    let numbers : Json := .object [("amounts", .array [number ⟨1, by decide⟩, number ⟨2, by decide⟩])]
    let text : Json := .object [("amounts", .string "none")]
    (∃ (v : Json) (x : Binary64.Finite), e.evaluate sum numbers = .ok v ∧ v.asReal = some x) ∧
      e.evaluate sum text = .error (.operationFailed "sum" "Not a valid Mapping: none") ∧
      ∃ failure, e.evaluate above text = .error failure ∧ ∀ message, failure ≠ .operationFailed "gt" message := by
  intro e number sum above numbers text
  refine ⟨?_, rfl, ?_⟩
  · have hok : (e.evaluate sum numbers).isOk = true := by decide +kernel +revert
    cases hv : e.evaluate sum numbers with
    | error failure =>
      rw [hv] at hok
      cases hok
    | ok v =>
      obtain ⟨name, operands, hrule, ⟨hname, -⟩ | ⟨-, x, hx⟩⟩ := (evaluate_standard 2 [] sum numbers).1 v hv
      · obtain rfl : "sum" = name := (Prod.mk.inj (List.cons.inj (Json.object.inj hrule)).1).1
        exact absurd hname (by decide)
      · exact ⟨v, x, rfl, hx⟩
  · have hfails : (e.evaluate above text).isOk = false := by decide +kernel +revert
    cases hf : e.evaluate above text with
    | ok v =>
      rw [hf] at hfails
      cases hfails
    | error failure =>
      refine ⟨failure, rfl, fun message hmessage => ?_⟩
      have hsum := ((evaluate_standard 2 [] above text).2.1 failure hf).2.2 "gt" message hmessage
      exact absurd hsum (by decide)

end Evaluator
end Eligibility
