import Eligibility.Proofs.Evaluation.Steps
import Eligibility.Proofs.Operator.Arguments
import Eligibility.Proofs.Rule.Nodes
/-!
# Evaluation that stops at the first failure

`failFast` makes one check after another: the depth, the shape of the mapping, the operator, the list of operands,
their number, and then one operand after another, each resolved and checked before the next is looked at.  The
evaluator resolves all operands first; `evaluate_eq_failFast` says that the outcome is the same, and that a rule with
a value has no mapping in which anything failed (`Settled`).
-/
namespace Eligibility
namespace Evaluator

mutual

/-- What a mapping comes to at a depth, by the first check that fails. -/
def failFastMapping (e : Evaluator) (context : Json) (depth : Nat) : List (String × Json) → Outcome Json
  | [] => if e.maxDepth < depth then .error (.depthExceeded e.maxDepth) else .error .notARule
  | [(name, operands)] =>
    if e.maxDepth < depth then .error (.depthExceeded e.maxDepth)
    else match e.operators.get? name with
      | none => .error (.unknownOperator name)
      | some o => failFastCall e context depth o operands
  | m :: n :: rest =>
    if e.maxDepth < depth then .error (.depthExceeded e.maxDepth)
    else .error (.ambiguousRule ((m :: n :: rest).map Prod.fst))

/-- An operator applied to what stands as its operands; their number is looked at before any of them. -/
def failFastCall (e : Evaluator) (context : Json) (depth : Nat) (o : Operator) : Json → Outcome Json
  | .array operands =>
    if operands.length = o.arity then (failFastArguments e context depth o.params operands).chain o.operation.body
    else .error (.callArity o.name o.arity operands.length)
  | .null => .error .missingOperands
  | .bool _ | .number _ | .string _ | .object _ => .error .operandsNotAList

/-- The arguments from left to right, up to the first that has no value or not its type. -/
def failFastArguments (e : Evaluator) (context : Json) (depth : Nat) :
    List Validator → List Json → Outcome (List Json)
  | type :: types, v :: rest =>
    ((failFastOperand e context depth v).chain type.validate).chain fun a =>
      (failFastArguments e context depth types rest).chain fun as => .ok (a :: as)
  | [], _ | _ :: _, [] => .ok []

/-- The value of an operand of a mapping at a depth. -/
def failFastOperand (e : Evaluator) (context : Json) (depth : Nat) : Json → Outcome Json
  | .object members => failFastMapping e context (depth + 1) members
  | .string s =>
    match Rule.reference? s with
    | some path => Json.Path.resolve path context
    | none => .ok (.string s)
  | .null => .error .nullOperand
  | .bool b => .ok (.bool b)
  | .number n => .ok (.number n)
  | .array items => .ok (.array items)

end

/-- **The outcome of a rule by the first check that fails.** -/
def failFast (e : Evaluator) (rule context : Json) : Outcome Json :=
  match rule with
  | .object members => e.failFastMapping context 1 members
  | _ => if e.maxDepth < 1 then .error (.depthExceeded e.maxDepth) else .error .notARule

theorem resolve_ofOperands_error {e : Evaluator} {depth : Nat} {name : String} {failure : RuleError}
    (h : e.operatorAt (depth + 1) name = .error failure) (context operands : Json) :
    e.resolve context depth (.ofOperands name operands) = .fail failure := by
  cases operands with
  | array operands => rw [Rule.ofOperands, resolve_call_error h]
  | null | bool _ | number _ | string _ | object _ => rw [Rule.ofOperands, resolve, h]

mutual

/-- **An operand comes to what it comes to by the first check that fails.** -/
theorem outcome_resolve_ofJson (e : Evaluator) (context : Json) (depth : Nat) : (v : Json) →
    (e.resolve context depth (.ofJson v)).outcome = e.failFastOperand context depth v
  | .object members => by rw [Rule.ofJson, failFastOperand, outcome_resolve_ofMembers e context depth members]
  | .string s => by
    rw [Rule.ofJson, failFastOperand, Rule.ofString]
    cases Rule.reference? s with
    | none => rw [resolve]
    | some path => rw [resolve]
  | .null => by rw [Rule.ofJson, failFastOperand, resolve]; rfl
  | .bool _ | .number _ | .array _ => by rw [Rule.ofJson, failFastOperand, resolve]

theorem outcome_resolve_ofMembers (e : Evaluator) (context : Json) (depth : Nat) :
    (members : List (String × Json)) →
    (e.resolve context depth (.ofMembers members)).outcome = e.failFastMapping context (depth + 1) members
  | [] => by
    rw [Rule.ofMembers, failFastMapping, resolve, failAt]
    split <;> rfl
  | [(name, operands)] => by
    rw [Rule.ofMembers, failFastMapping]
    by_cases hd : e.maxDepth < depth + 1
    · rw [if_pos hd, resolve_ofOperands_error (operatorAt_of_lt hd name)]
      rfl
    · rw [if_neg hd]
      cases ho : e.operators.get? name with
      | none =>
        rw [resolve_ofOperands_error (operatorAt_of_unknown hd ho)]
        rfl
      | some o => exact outcome_resolve_ofOperands e context depth (operatorAt_of_get? hd ho) operands
  | m :: n :: rest => by
    rw [Rule.ofMembers, failFastMapping, resolve, failAt]
    split <;> rfl

theorem outcome_resolve_ofOperands (e : Evaluator) (context : Json) (depth : Nat) {name : String} {o : Operator}
    (h : e.operatorAt (depth + 1) name = .ok o) : (operands : Json) →
    (e.resolve context depth (.ofOperands name operands)).outcome = e.failFastCall context (depth + 1) o operands
  | .array operands => by
    rw [Rule.ofOperands, failFastCall, outcome_resolve_call h, Operator.invoke, List.length_map, Rule.length_ofJsons,
      sequence_validated e context (depth + 1) o.params operands]
  | .null | .bool _ | .number _ | .string _ | .object _ => by
    rw [Rule.ofOperands, failFastCall, resolve, h]
    rfl

theorem sequence_validated (e : Evaluator) (context : Json) (depth : Nat) :
    (types : List Validator) → (vs : List Json) →
    Outcome.sequence (Operator.validated types ((Rule.ofJsons vs).map fun r => (e.resolve context depth r).outcome)) =
      e.failFastArguments context depth types vs
  | type :: types, v :: rest => by
    rw [Rule.ofJsons, List.map_cons, Operator.sequence_validated_cons, failFastArguments,
      outcome_resolve_ofJson e context depth v, sequence_validated e context depth types rest]
  | [], vs => by
    rw [failFastArguments, Operator.validated, List.zipWith_nil_left]
    rfl
  | _ :: _, [] => by
    rw [failFastArguments, Rule.ofJsons]
    rfl

end

/-- **A mapping in which nothing failed**: it calls a known operator within the limit of depth, and each of its
operands has a value of the type of its place. -/
structure Settled (e : Evaluator) (context : Json) (n : Rule.Node) (o : Operator) : Prop where
  shape : n.rule = .call n.rule.operator n.rule.operands
  within : n.depth ≤ e.maxDepth
  known : e.operators.get? n.rule.operator = some o
  count : n.rule.operands.length = o.arity
  valid : ∀ (i : Nat) (type : Validator) (r : Rule), o.params[i]? = some type → n.rule.operands[i]? = some r →
    ∃ a, (e.resolve context n.depth r).outcome = .ok a ∧ type.validate a = .ok a
  value : ∃ v, (e.resolve context n.above.length n.rule).outcome = .ok v

theorem settled_of_ok {e : Evaluator} {context v : Json} {name : String} {operands above : List Rule}
    (h : (e.resolve context above.length (.call name operands)).outcome = .ok v) :
    ∃ o, e.Settled context ⟨.call name operands, above⟩ o := by
  cases ho : e.operatorAt (above.length + 1) name with
  | error failure =>
    rw [resolve_call_error ho] at h
    cases h
  | ok o =>
    have hvalue := h
    rw [outcome_resolve_call ho] at h
    obtain ⟨hlen, hvalid⟩ := Operator.valid_of_invoke_ok h
    obtain ⟨hle, hget⟩ := operatorAt_eq_ok_iff.1 ho
    refine ⟨o, rfl, hle, hget, ?_, ?_, v, hvalue⟩
    · rw [List.length_map] at hlen
      exact hlen
    · intro i type r ht hr
      refine hvalid i type _ ht ?_
      have hi : operands[i]? = some r := hr
      rw [List.getElem?_map, hi]
      rfl

theorem Settled.ok_of_mem {e : Evaluator} {context : Json} {n : Rule.Node} {o : Operator}
    (h : e.Settled context n o) {r : Rule} (hr : r ∈ n.rule.operands) :
    ∃ a, (e.resolve context n.depth r).outcome = .ok a := by
  obtain ⟨i, hi, hir⟩ := List.mem_iff_getElem.1 hr
  have hcount : i < o.params.length := by
    rw [show o.params.length = n.rule.operands.length from h.count.symm]
    exact hi
  have hoperand : n.rule.operands[i]? = some r := by rw [List.getElem?_eq_getElem hi, hir]
  obtain ⟨a, ha, -⟩ := h.valid i o.params[i] r (List.getElem?_eq_getElem hcount) hoperand
  exact ⟨a, ha⟩

mutual

/-- **Nothing failed in any mapping of an operand that has a value.** -/
theorem settled_nodes (e : Evaluator) (context : Json) (above : List Rule) : (r : Rule) → {v : Json} →
    (e.resolve context above.length r).outcome = .ok v → ∀ n ∈ r.nodes above, ∃ o, e.Settled context n o
  | .call name operands, v, h, n, hn => by
    obtain ⟨o, ho⟩ := settled_of_ok h
    rw [Rule.nodes, List.mem_append] at hn
    rcases hn with hn | hn
    · exact settled_nodesAll e context (.call name operands :: above) operands (fun r hr => ho.ok_of_mem hr) n hn
    · rw [List.mem_singleton.1 hn]
      exact ⟨o, ho⟩
  | .uncallable name operands, v, h, n, _ => by
    rw [resolve] at h
    cases ho : e.operatorAt (above.length + 1) name <;> rw [ho] at h <;> cases h
  | .malformed members, v, h, n, _ => by
    rw [resolve] at h
    cases h
  | .reference _, _, _, _, hn | .null, _, _, _, hn | .literal _, _, _, _, hn => by
    rw [Rule.nodes] at hn
    cases hn

theorem settled_nodesAll (e : Evaluator) (context : Json) (above : List Rule) : (rules : List Rule) →
    (∀ r ∈ rules, ∃ a, (e.resolve context above.length r).outcome = .ok a) →
    ∀ n ∈ Rule.nodesAll above rules, ∃ o, e.Settled context n o
  | [], _, n, hn => by
    rw [Rule.nodesAll] at hn
    cases hn
  | r :: rest, h, n, hn => by
    rw [Rule.nodesAll, List.mem_append] at hn
    rcases hn with hn | hn
    · obtain ⟨a, ha⟩ := h r List.mem_cons_self
      exact settled_nodes e context above r ha n hn
    · exact settled_nodesAll e context above rest (fun r hr => h r (List.mem_cons_of_mem _ hr)) n hn

end

/-- **Resolving all operands first and stopping at the first failure give one outcome**, and where there is a value,
nothing failed in any mapping of the rule. -/
theorem evaluate_eq_failFast (e : Evaluator) (rule context : Json) :
    e.evaluate rule context = e.failFast rule context ∧
      ∀ v, e.evaluate rule context = .ok v →
        ∀ n ∈ (Rule.ofJson rule).nodes [], ∃ o, e.Settled context n o := by
  constructor
  · cases rule with
    | object members =>
      rw [evaluate, Rule.ofJson, run_of_isMapping e context (Rule.isMapping_ofMembers members),
        outcome_resolve_ofMembers]
      rfl
    | string s => exact outcome_run_of_not_mapping e context (Rule.isMapping_ofString s)
    | null | bool _ | number _ | array _ => exact outcome_run_of_not_mapping e context rfl
  · intro v hv
    cases hm : (Rule.ofJson rule).isMapping with
    | true =>
      rw [evaluate, run_of_isMapping e context hm] at hv
      exact settled_nodes e context [] (Rule.ofJson rule) hv
    | false =>
      rw [evaluate, outcome_run_of_not_mapping e context hm] at hv
      split at hv <;> cases hv

/-- A rule of two mappings and a reference, with a value. -/
theorem evaluate_eq_failFast_nested :
    let e : Evaluator := ⟨.standard, 2, []⟩
    let inner : Json := .object [("or", .array [.bool false, .string "!member"])]
    let rule : Json := .object [("and", .array [.bool true, inner])]
    let context : Json := .object [("member", .bool true)]
    e.evaluate rule context = .ok (.bool true) ∧ e.failFast rule context = .ok (.bool true) ∧
      ∀ n ∈ (Rule.ofJson rule).nodes [], ∃ o, e.Settled context n o := by
  intro e inner rule context
  obtain ⟨hoc, hsettled⟩ := evaluate_eq_failFast e rule context
  have hvalue : e.evaluate rule context = .ok (.bool true) := by rfl
  exact ⟨hvalue, hoc ▸ hvalue, hsettled _ hvalue⟩

end Evaluator
end Eligibility
