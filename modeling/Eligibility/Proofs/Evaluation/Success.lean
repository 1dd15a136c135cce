import Eligibility.Proofs.Evaluation.Dependence
import Eligibility.Proofs.Evaluation.FailFast
/-!
# What an evaluation with a value has done

Nothing failed in a rule that has a value, so that all of its mappings were reached (`reached_of_ok`), and each of them
left a record of a value (`records_run_of_ok`).
-/
namespace Eligibility
namespace Evaluator

open Rule (Node passes)

/-- **All the mappings of a rule with a value are reached.** -/
theorem reached_of_ok {e : Evaluator} {context : Json} (r : Rule) : ∀ (above : List Rule) (v : Json),
    passes e.operators e.maxDepth above = true → (e.resolve context above.length r).outcome = .ok v →
    ∀ n ∈ r.nodes above, n.reached e.operators e.maxDepth = true := by
  induction r using Rule.induct with
  | call name operands ih =>
    intro above v hpasses hv n hn
    -- the operator is known, so its mapping lets the operands be reached, and they have values again
    obtain ⟨o, hsettled⟩ := settled_of_ok hv
    have hself : Node.reached e.operators e.maxDepth ⟨.call name operands, above⟩ = true :=
      (reached_call_iff hpasses name operands).2 ⟨o, operatorAt_eq_ok_iff.2 ⟨hsettled.within, hsettled.known⟩⟩
    rw [Rule.nodes, List.mem_append] at hn
    rcases hn with hn | hn
    · obtain ⟨operand, hoperand, hn⟩ := Rule.mem_nodesAll.1 hn
      obtain ⟨a, ha⟩ := hsettled.ok_of_mem hoperand
      exact ih operand hoperand (.call name operands :: above) a hself ha n hn
    · rw [List.mem_singleton.1 hn]
      exact hself
  | uncallable name operands =>
    intro above v _ hv
    obtain ⟨o, ho⟩ := settled_nodes e context above _ hv _ (Rule.self_mem_nodes above rfl)
    cases ho.shape
  | malformed members =>
    intro above v _ hv
    rw [resolve] at hv
    cases hv
  | reference path | null | literal w =>
    intro above v _ _ n hn
    rw [Rule.nodes] at hn
    cases hn

/-- **The records of an evaluation with a value** are those of all the mappings of the rule, each with a value. -/
theorem records_run_of_ok {e : Evaluator} (hsinks : e.sinks ≠ []) {rule context v : Json}
    (hv : e.evaluate rule context = .ok v) :
    (e.run context (.ofJson rule)).records = ((Rule.ofJson rule).nodes []).map (e.recordAt context) ∧
      ∀ r ∈ (e.run context (.ofJson rule)).records, ∃ w, r.result = .ok w := by
  cases hm : (Rule.ofJson rule).isMapping with
  | true =>
    rw [evaluate, run_of_isMapping e context hm] at hv
    have hreached : (Rule.ofJson rule).reached e.operators e.maxDepth = (Rule.ofJson rule).nodes [] := by
      rw [Rule.reached, List.filter_eq_self]
      exact reached_of_ok _ [] v rfl hv
    have hrecords := records_run_of_sinks hsinks context (.ofJson rule)
    rw [hreached] at hrecords
    refine ⟨hrecords, ?_⟩
    rw [hrecords]
    intro r hr
    obtain ⟨n, hn, rfl⟩ := List.mem_map.1 hr
    obtain ⟨o, ho⟩ := settled_nodes e context [] _ hv n hn
    exact ho.value
  | false =>
    rw [evaluate, outcome_run_of_not_mapping e context hm] at hv
    split at hv <;> cases hv

end Evaluator
end Eligibility
