import Eligibility.Evaluator
/-!
# What the evaluator does with one mapping

A mapping of an operator to a list is refused as it stands (`resolve_call_error`), or its operands are resolved and
the operator is applied to them (`outcome_resolve_call`, `records_resolve_call`); `operatorAt_eq_ok_iff` says which.
-/
namespace Eligibility
namespace Evaluator

/-- **An operator is found** within the limit of depth and under its name, and only there. -/
theorem operatorAt_eq_ok_iff {e : Evaluator} {depth : Nat} {name : String} {o : Operator} :
    e.operatorAt depth name = .ok o ↔ depth ≤ e.maxDepth ∧ e.operators.get? name = some o := by
  unfold operatorAt
  by_cases hd : e.maxDepth < depth
  · rw [if_pos hd]
    constructor
    · intro h
      cases h
    · rintro ⟨hle, -⟩
      omega
  · rw [if_neg hd]
    have hle : depth ≤ e.maxDepth := by omega
    cases ho : e.operators.get? name with
    | none => simp
    | some p => simp [hle]

theorem operatorAt_of_lt {e : Evaluator} {depth : Nat} (h : e.maxDepth < depth) (name : String) :
    e.operatorAt depth name = .error (.depthExceeded e.maxDepth) := by
  rw [operatorAt, if_pos h]

theorem operatorAt_of_get? {e : Evaluator} {depth : Nat} (h : ¬ e.maxDepth < depth) {name : String} {o : Operator}
    (ho : e.operators.get? name = some o) : e.operatorAt depth name = .ok o :=
  operatorAt_eq_ok_iff.2 ⟨by omega, ho⟩

theorem operatorAt_of_unknown {e : Evaluator} {depth : Nat} (h : ¬ e.maxDepth < depth) {name : String}
    (ho : e.operators.get? name = none) : e.operatorAt depth name = .error (.unknownOperator name) := by
  rw [operatorAt, if_neg h, ho]

theorem resolveAll_eq_map (e : Evaluator) (context : Json) (depth : Nat) : ∀ rules : List Rule,
    e.resolveAll context depth rules = rules.map (e.resolve context depth)
  | [] => by rw [resolveAll, List.map_nil]
  | r :: rest => by rw [resolveAll, List.map_cons, resolveAll_eq_map e context depth rest]

theorem resolve_call_error {e : Evaluator} {depth : Nat} {name : String} {failure : RuleError}
    (h : e.operatorAt (depth + 1) name = .error failure) (context : Json) (operands : List Rule) :
    e.resolve context depth (.call name operands) = .fail failure := by
  rw [resolve, h]

/-- **An operator that is found is applied to its operands**, which are one deeper than the mapping they stand in. -/
theorem resolve_call_ok {e : Evaluator} {depth : Nat} {name : String} {o : Operator}
    (h : e.operatorAt (depth + 1) name = .ok o) (context : Json) (operands : List Rule) :
    e.resolve context depth (.call name operands) =
      e.apply (depth + 1) o name (operands.map (e.resolve context (depth + 1))) := by
  rw [resolve, h, ← resolveAll_eq_map]

theorem outcome_resolve_call {e : Evaluator} {depth : Nat} {name : String} {o : Operator}
    (h : e.operatorAt (depth + 1) name = .ok o) (context : Json) (operands : List Rule) :
    (e.resolve context depth (.call name operands)).outcome =
      o.invoke (operands.map fun r => (e.resolve context (depth + 1) r).outcome) := by
  rw [resolve_call_ok h, apply, List.map_map]
  rfl

/-- **The records of the operands come first**, and then the record of the mapping, if one is kept. -/
theorem records_resolve_call {e : Evaluator} {depth : Nat} {name : String} {o : Operator}
    (h : e.operatorAt (depth + 1) name = .ok o) (context : Json) (operands : List Rule) :
    (e.resolve context depth (.call name operands)).records =
      (operands.map (e.resolve context (depth + 1))).flatMap Run.records ++
        e.detail.record name (operands.map fun r => (e.resolve context (depth + 1) r).outcome)
          (e.resolve context depth (.call name operands)).outcome (depth + 1) := by
  rw [outcome_resolve_call h, resolve_call_ok h, apply, List.map_map]
  rfl

theorem records_resolve_uncallable (e : Evaluator) (context : Json) (depth : Nat) (name : String) (operands : Json) :
    (e.resolve context depth (.uncallable name operands)).records = [] := by
  rw [resolve]
  cases e.operatorAt (depth + 1) name <;> rfl

theorem run_of_isMapping (e : Evaluator) (context : Json) {r : Rule} (h : r.isMapping = true) :
    e.run context r = e.resolve context 0 r := by
  rw [run, if_pos h]

theorem run_of_not_isMapping (e : Evaluator) (context : Json) {r : Rule} (h : r.isMapping = false) :
    e.run context r = e.failAt 1 .notARule := by
  rw [run, h, if_neg (by simp)]

theorem outcome_run_of_not_mapping (e : Evaluator) (context : Json) {r : Rule} (h : r.isMapping = false) :
    (e.run context r).outcome =
      if e.maxDepth < 1 then .error (.depthExceeded e.maxDepth) else .error .notARule := by
  rw [run_of_not_isMapping e context h, failAt]
  split <;> rfl

end Evaluator
end Eligibility
