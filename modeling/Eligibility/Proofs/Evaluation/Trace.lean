import Eligibility.Proofs.Evaluation.Steps
import Eligibility.Proofs.Rule.Nodes
/-!
# The records of a run

The records of a run are those of the mappings that are reached, in their order (`records_resolve`), whatever comes of
any of them.  Which mappings these are is a matter of the rule, the operators and the limit of depth; a context has no
part in it (`trace_eq_of_contexts`).
-/
namespace Eligibility
namespace Evaluator

open Rule (Node passes)

/-- What the operands of a mapping come to, in order. -/
def operandOutcomes (e : Evaluator) (context : Json) (n : Node) : List (Outcome Json) :=
  n.rule.operands.map fun r => (e.resolve context n.depth r).outcome

/-- What a mapping comes to on its own, where it stands. -/
def outcomeAt (e : Evaluator) (context : Json) (n : Node) : Outcome Json :=
  (e.resolve context n.above.length n.rule).outcome

/-- What is recorded of a mapping that is reached. -/
def recordsAt (e : Evaluator) (context : Json) (n : Node) : List AuditRecord :=
  e.detail.record n.rule.operator (e.operandOutcomes context n) (e.outcomeAt context n) n.depth

/-- The record of a mapping that is reached, if any is kept. -/
def recordAt (e : Evaluator) (context : Json) (n : Node) : AuditRecord where
  operator := n.rule.operator
  operands := if e.sinks.any Sink.wantsOperands then e.operandOutcomes context n else []
  result := e.outcomeAt context n
  depth := n.depth

/-- The operators that a run applied, and how deep. -/
def trace (e : Evaluator) (rule context : Json) : List (String × Nat) :=
  (e.run context (.ofJson rule)).records.map fun r => (r.operator, r.depth)

theorem reached_call_iff {e : Evaluator} {above : List Rule} (h : passes e.operators e.maxDepth above = true)
    (name : String) (operands : List Rule) :
    Node.reached e.operators e.maxDepth ⟨.call name operands, above⟩ = true ↔
      ∃ o, e.operatorAt (above.length + 1) name = .ok o := by
  rw [Node.reached, passes, h, Rule.callable, Bool.and_true, Bool.and_eq_true, decide_eq_true_eq,
    Option.isSome_iff_exists]
  constructor
  · rintro ⟨hle, o, ho⟩
    exact ⟨o, operatorAt_eq_ok_iff.2 ⟨hle, ho⟩⟩
  · rintro ⟨o, ho⟩
    obtain ⟨hle, hget⟩ := operatorAt_eq_ok_iff.1 ho
    exact ⟨hle, o, hget⟩

mutual

/-- **The records of an operand** that stands in mappings that pass are those of the mappings reached in it. -/
theorem records_resolve (e : Evaluator) (context : Json) (above : List Rule)
    (h : passes e.operators e.maxDepth above = true) : (r : Rule) →
    (e.resolve context above.length r).records =
      ((r.nodes above).filter (Node.reached e.operators e.maxDepth)).flatMap (e.recordsAt context)
  | .call name operands => by
    have hiff := reached_call_iff h name operands
    rw [Rule.nodes, List.filter_append, List.flatMap_append]
    cases ho : e.operatorAt (above.length + 1) name with
    | error failure =>
      have hnot : ¬ Node.reached e.operators e.maxDepth ⟨.call name operands, above⟩ = true := by
        intro hp
        obtain ⟨o, hok⟩ := hiff.1 hp
        rw [ho] at hok
        cases hok
      rw [resolve_call_error ho, Rule.filter_nodesAll_of_not_passes (Bool.eq_false_iff.2 hnot),
        List.filter_cons_of_neg hnot]
      rfl
    | ok o =>
      have hp : Node.reached e.operators e.maxDepth ⟨.call name operands, above⟩ = true := hiff.2 ⟨o, ho⟩
      rw [records_resolve_call ho, ← records_resolveAll e context (.call name operands :: above) hp operands,
        List.filter_cons_of_pos hp, List.filter_nil, List.flatMap_singleton]
      rfl
  | .uncallable name operands => by
    rw [records_resolve_uncallable, Rule.nodes, List.filter_cons_of_neg (Rule.not_reached_of_not_callable rfl)]
    rfl
  | .malformed members => by
    rw [resolve, Rule.nodes, List.filter_cons_of_neg (Rule.not_reached_of_not_callable rfl)]
    rfl
  | .reference path => by rw [resolve, Rule.nodes]; rfl
  | .null => by rw [resolve, Rule.nodes]; rfl
  | .literal v => by rw [resolve, Rule.nodes]; rfl

theorem records_resolveAll (e : Evaluator) (context : Json) (above : List Rule)
    (h : passes e.operators e.maxDepth above = true) : (rules : List Rule) →
    (rules.map (e.resolve context above.length)).flatMap Run.records =
      ((Rule.nodesAll above rules).filter (Node.reached e.operators e.maxDepth)).flatMap (e.recordsAt context)
  | [] => by rw [Rule.nodesAll]; rfl
  | r :: rest => by
    rw [Rule.nodesAll, List.filter_append, List.flatMap_append, ← records_resolve e context above h r,
      ← records_resolveAll e context above h rest, List.map_cons, List.flatMap_cons]

end

theorem records_run (e : Evaluator) (context : Json) (r : Rule) :
    (e.run context r).records = (r.reached e.operators e.maxDepth).flatMap (e.recordsAt context) := by
  cases hm : r.isMapping with
  | true => rw [run_of_isMapping e context hm, Rule.reached, ← records_resolve e context [] rfl r]; rfl
  | false =>
    rw [run_of_not_isMapping e context hm, Rule.reached, Rule.nodes_of_not_isMapping [] r hm]
    rfl

theorem recordsAt_of_sinks {e : Evaluator} (h : e.sinks ≠ []) (context : Json) (n : Node) :
    e.recordsAt context n = [e.recordAt context n] := by
  have hempty : e.sinks.isEmpty = false := List.isEmpty_eq_false_iff.2 h
  cases hany : e.sinks.any Sink.wantsOperands with
  | true =>
    rw [recordsAt, recordAt, detail, Detail.ofSinks, hempty, hany]
    rfl
  | false =>
    rw [recordsAt, recordAt, detail, Detail.ofSinks, hempty, hany]
    rfl

theorem recordsAt_of_no_sinks {e : Evaluator} (h : e.sinks = []) (context : Json) (n : Node) :
    e.recordsAt context n = [] := by
  rw [recordsAt, detail, h]
  rfl

theorem records_run_of_sinks {e : Evaluator} (h : e.sinks ≠ []) (context : Json) (r : Rule) :
    (e.run context r).records = (r.reached e.operators e.maxDepth).map (e.recordAt context) := by
  rw [records_run, List.map_eq_flatMap]
  congr 1
  funext n
  exact recordsAt_of_sinks h context n

theorem evaluate_eq_outcomeAt (e : Evaluator) {rule : Json} (h : (Rule.ofJson rule).isMapping = true)
    (context : Json) : e.evaluate rule context = e.outcomeAt context ⟨.ofJson rule, []⟩ := by
  rw [evaluate, run_of_isMapping e context h]
  rfl

/-- **Sinks are told of each mapping that is reached, in order, and then of the outcome.**  The records tell what each
mapping comes to on its own.  A record of depth one is the last, and tells the outcome of the whole. -/
theorem notices_eq_reached (e : Evaluator) (h : e.sinks ≠ []) (rule context : Json) :
    e.notices rule context =
        (((Rule.ofJson rule).reached e.operators e.maxDepth).map fun n => .record (e.recordAt context n)) ++
          [.evaluated (e.evaluate rule context)] ∧
      (∀ n ∈ (Rule.ofJson rule).reached e.operators e.maxDepth, 1 ≤ n.depth ∧ n.depth ≤ e.maxDepth) ∧
      ∀ before r after, ((Rule.ofJson rule).reached e.operators e.maxDepth).map (e.recordAt context) =
          before ++ r :: after → r.depth = 1 → after = [] ∧ r.result = e.evaluate rule context := by
  refine ⟨?_, ?_, ?_⟩
  · have hempty : e.sinks.isEmpty = false := List.isEmpty_eq_false_iff.2 h
    rw [notices, records_run_of_sinks h, hempty, List.map_map]
    rfl
  · intro n hn
    exact ⟨Nat.le_add_left _ _, Rule.depth_le_of_reached (List.mem_filter.1 hn).2⟩
  · intro before r after hsplit hdepth
    obtain ⟨first, rest, hreached, -, hrest⟩ := List.map_eq_append_iff.1 hsplit
    obtain ⟨n, last, rfl, rfl, hlast⟩ := List.map_eq_cons_iff.1 hrest
    obtain ⟨rfl, rfl, hm⟩ := Rule.reached_split hreached hdepth
    exact ⟨hlast.symm, (evaluate_eq_outcomeAt e hm context).symm⟩

/-- An operand that fails for the number of its own operands leaves a record, and so does the one beside it. -/
theorem notices_of_failing_operand :
    let e : Evaluator := ⟨.standard, 2, [⟨1, true⟩]⟩
    let short : Json := .object [("and", .array [.null])]
    let fitting : Json := .object [("or", .array [.bool false, .string "!member"])]
    let failure : Outcome Json := .error (.callArity "and" 2 1)
    e.notices (.object [("or", .array [short, fitting])]) (.object [("member", .bool true)]) =
      [.record ⟨"and", [.error .nullOperand], failure, 2⟩,
        .record ⟨"or", [.ok (.bool false), .ok (.bool true)], .ok (.bool true), 2⟩,
        .record ⟨"or", [failure, .ok (.bool true)], failure, 1⟩, .evaluated failure] := by
  intro e short fitting failure
  exact (notices_eq_reached e (by decide) _ _).1.trans rfl

/-- **The context has no part in which operators are applied**, how often, in what order and how deep. -/
theorem trace_eq_of_contexts (e : Evaluator) (rule c₁ c₂ : Json) :
    e.trace rule c₁ = e.trace rule c₂ ∧
      e.trace rule c₁ =
        if e.sinks.isEmpty then [] else ((Rule.ofJson rule).reached e.operators e.maxDepth).map Node.place := by
  have htrace : ∀ context, e.trace rule context =
      if e.sinks.isEmpty then [] else ((Rule.ofJson rule).reached e.operators e.maxDepth).map Node.place := by
    intro context
    by_cases hs : e.sinks = []
    · rw [trace, records_run, if_pos (List.isEmpty_iff.2 hs),
        List.flatMap_eq_nil_iff.2 (fun n _ => recordsAt_of_no_sinks hs context n)]
      rfl
    · rw [trace, records_run_of_sinks hs, if_neg (by rw [List.isEmpty_iff]; exact hs), List.map_map]
      rfl
  exact ⟨(htrace c₁).trans (htrace c₂).symm, htrace c₁⟩

end Evaluator
end Eligibility
