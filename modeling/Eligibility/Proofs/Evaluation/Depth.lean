import Eligibility.Proofs.Evaluation.Steps
import Eligibility.Proofs.Operator.Failure
import Eligibility.Proofs.Rule.Nesting
/-!
# The limit of depth

A larger limit changes an outcome only if the smaller one was exceeded: mapping by mapping, what comes of the smaller
limit is the failure of that limit or what comes of the larger one (`outcome_resolve_cutAt`).  The operators of the
two runs may differ as long as they answer alike, so that this also says what an outcome does not depend on
(`evaluate_congr`).  A rule that nests no deeper than the limit never exceeds it, and a failure that says so names the
limit (`outcome_resolve_depthExceeded`).
-/
namespace Eligibility

/-- What comes of a limit, beside what comes of a larger one: the failure of that limit, or the same. -/
def Outcome.CutAt {α : Type} (limit : Nat) (o larger : Outcome α) : Prop :=
  o = .error (.depthExceeded limit) ∨ larger = o

/-- Tables that name the same operators, up to how these come to their answers. -/
def OperatorTable.Alike (t u : OperatorTable) : Prop :=
  ∀ name, (u.get? name).map Operator.invoke = (t.get? name).map Operator.invoke

namespace Outcome

variable {α β : Type} {limit : Nat}

theorem CutAt.refl (o : Outcome α) : CutAt limit o o := .inr rfl

/-- **A first step that is cut decides**, and otherwise the second step does. -/
theorem CutAt.chain {o larger : Outcome α} (h : CutAt limit o larger) {f g : α → Outcome β}
    (hf : ∀ a, CutAt limit (f a) (g a)) : CutAt limit (o.chain f) (larger.chain g) := by
  rcases h with rfl | rfl
  · exact .inl rfl
  · cases larger with
    | error failure => exact .refl _
    | ok a => exact hf a

theorem CutAt.antisymm {o p : Outcome α} (h : CutAt limit o p) (h' : CutAt limit p o) : o = p := by
  rcases h with h | h
  · rcases h' with h' | h'
    · rw [h, h']
    · exact h'
  · exact h.symm

end Outcome

namespace Operator

open Outcome (CutAt)

theorem sequence_validated_cutAt {α : Type} {limit : Nat} (f g : α → Outcome Json) : ∀ (types : List Validator)
    (xs : List α), (∀ x ∈ xs, CutAt limit (f x) (g x)) →
    CutAt limit (Outcome.sequence (validated types (xs.map f))) (Outcome.sequence (validated types (xs.map g)))
  | [], _, _ | _ :: _, [], _ => .refl _
  | type :: types, x :: xs, h => by
    -- what an operand before the cut one comes to is the same on both sides, and it is looked at first
    rw [List.map_cons, List.map_cons, sequence_validated_cons, sequence_validated_cons]
    have hx : CutAt limit (f x) (g x) := h x List.mem_cons_self
    have hxs := sequence_validated_cutAt f g types xs fun y hy => h y (List.mem_cons_of_mem _ hy)
    refine (hx.chain fun a => .refl _).chain fun a => ?_
    exact hxs.chain fun as => .refl _

/-- **An operator passes a cut on.**  If operands are cut, the call is, or something before them decides it. -/
theorem invoke_cutAt {α : Type} {limit : Nat} (o : Operator) {f g : α → Outcome Json} {xs : List α}
    (h : ∀ x ∈ xs, CutAt limit (f x) (g x)) : CutAt limit (o.invoke (xs.map f)) (o.invoke (xs.map g)) := by
  rw [invoke, invoke, List.length_map, List.length_map]
  split
  · exact (sequence_validated_cutAt f g o.params xs h).chain fun args => .refl _
  · exact .refl _

end Operator

namespace OperatorTable

theorem Alike.refl (t : OperatorTable) : t.Alike t := fun _ => rfl

theorem Alike.symm {t u : OperatorTable} (h : t.Alike u) : u.Alike t := fun name => (h name).symm

theorem Alike.exists_get? {t u : OperatorTable} (h : t.Alike u) {name : String} {o : Operator}
    (ho : t.get? name = some o) : ∃ p, u.get? name = some p ∧ p.invoke = o.invoke := by
  have hname := h name
  rw [ho, Option.map_some, Option.map_eq_some_iff] at hname
  exact hname

theorem Alike.get?_eq_none {t u : OperatorTable} (h : t.Alike u) {name : String} (ho : t.get? name = none) :
    u.get? name = none := by
  have hname := h name
  rw [ho, Option.map_none, Option.map_eq_none_iff] at hname
  exact hname

end OperatorTable

namespace Evaluator

open Outcome (CutAt)

variable {e larger : Evaluator}

theorem outcome_failAt_cutAt (hm : e.maxDepth ≤ larger.maxDepth) (depth : Nat) (failure : RuleError) :
    CutAt e.maxDepth (e.failAt depth failure).outcome (larger.failAt depth failure).outcome := by
  unfold failAt
  by_cases hd : e.maxDepth < depth
  · rw [if_pos hd]
    exact .inl rfl
  · rw [if_neg hd, if_neg (by omega)]
    exact .refl _

/-- **A larger limit shows only where the smaller one was exceeded**, in every operand of every mapping. -/
theorem outcome_resolve_cutAt (ht : e.operators.Alike larger.operators) (hm : e.maxDepth ≤ larger.maxDepth)
    (context : Json) (r : Rule) : ∀ depth,
    CutAt e.maxDepth (e.resolve context depth r).outcome (larger.resolve context depth r).outcome := by
  induction r using Rule.induct with
  | call name operands ih =>
    intro depth
    by_cases hd : e.maxDepth < depth + 1
    · rw [resolve_call_error (operatorAt_of_lt hd name)]
      exact .inl rfl
    · -- within the smaller limit both runs find the operator or both miss it
      have hd' : ¬ larger.maxDepth < depth + 1 := by omega
      cases ho : e.operators.get? name with
      | none =>
        rw [resolve_call_error (operatorAt_of_unknown hd ho),
          resolve_call_error (operatorAt_of_unknown hd' (ht.get?_eq_none ho))]
        exact .refl _
      | some o =>
        obtain ⟨p, hp, hinvoke⟩ := ht.exists_get? ho
        rw [outcome_resolve_call (operatorAt_of_get? hd ho), outcome_resolve_call (operatorAt_of_get? hd' hp), hinvoke]
        exact o.invoke_cutAt fun operand hoperand => ih operand hoperand (depth + 1)
  | uncallable name operands =>
    intro depth
    rw [resolve, resolve]
    by_cases hd : e.maxDepth < depth + 1
    · rw [operatorAt_of_lt hd]
      exact .inl rfl
    · have hd' : ¬ larger.maxDepth < depth + 1 := by omega
      cases ho : e.operators.get? name with
      | none =>
        rw [operatorAt_of_unknown hd ho, operatorAt_of_unknown hd' (ht.get?_eq_none ho)]
        exact .refl _
      | some o =>
        obtain ⟨p, hp, -⟩ := ht.exists_get? ho
        rw [operatorAt_of_get? hd ho, operatorAt_of_get? hd' hp]
        exact .refl _
  | malformed members =>
    intro depth
    rw [resolve, resolve]
    exact outcome_failAt_cutAt hm (depth + 1) _
  | reference path | null | literal v =>
    intro depth
    rw [resolve, resolve]
    exact .refl _

theorem evaluate_cutAt (e larger : Evaluator) (ht : e.operators.Alike larger.operators)
    (hm : e.maxDepth ≤ larger.maxDepth) (rule context : Json) :
    CutAt e.maxDepth (e.evaluate rule context) (larger.evaluate rule context) := by
  unfold evaluate
  cases h : (Rule.ofJson rule).isMapping with
  | true =>
    rw [run_of_isMapping e context h, run_of_isMapping larger context h]
    exact outcome_resolve_cutAt ht hm context _ 0
  | false =>
    rw [run_of_not_isMapping e context h, run_of_not_isMapping larger context h]
    exact outcome_failAt_cutAt hm 1 _

/-- **Runs with one limit and operators that answer alike come to the same**, whatever their sinks are. -/
theorem outcome_resolve_congr (e e' : Evaluator) (ht : e.operators.Alike e'.operators)
    (hm : e.maxDepth = e'.maxDepth) (context : Json) (r : Rule) (depth : Nat) :
    (e.resolve context depth r).outcome = (e'.resolve context depth r).outcome := by
  have h := outcome_resolve_cutAt ht (Nat.le_of_eq hm) context r depth
  have h' := outcome_resolve_cutAt ht.symm (Nat.le_of_eq hm.symm) context r depth
  rw [← hm] at h'
  exact h.antisymm h'

theorem evaluate_congr (e e' : Evaluator) (ht : e.operators.Alike e'.operators) (hm : e.maxDepth = e'.maxDepth)
    (rule context : Json) : e.evaluate rule context = e'.evaluate rule context := by
  have h := evaluate_cutAt e e' ht (Nat.le_of_eq hm) rule context
  have h' := evaluate_cutAt e' e ht.symm (Nat.le_of_eq hm.symm) rule context
  rw [← hm] at h'
  exact h.antisymm h'

end Evaluator

/-- No operation of the table says that a limit of depth is exceeded. -/
def OperatorTable.Shallow (t : OperatorTable) : Prop :=
  ∀ name o, t.get? name = some o → ∀ args limit, o.operation.body args ≠ .error (.depthExceeded limit)

theorem OperatorTable.shallow_standard : OperatorTable.standard.Shallow := by
  intro name o ho args limit h
  have hkind := Operator.failsAsItself_of_mem_standard (mem_standard_of_get? ho).1 args _ h
  cases hkind

/-- If operations do not speak of depth, an operator that does has an operand that did. -/
theorem Operator.mem_of_invoke_depthExceeded {o : Operator} {operands : List (Outcome Json)} {limit : Nat}
    (hbody : ∀ args, o.operation.body args ≠ .error (.depthExceeded limit))
    (h : o.invoke operands = .error (.depthExceeded limit)) : .error (.depthExceeded limit) ∈ operands := by
  rcases error_of_invoke h with h | h | ⟨type, -, a, h⟩ | ⟨args, -, h⟩
  · cases h
  · exact h
  · obtain ⟨failed, hfailed⟩ := Validator.error_of_validate h
    cases hfailed
  · exact absurd h (hbody args)

namespace Evaluator

variable {e : Evaluator}

theorem outcome_failAt_depthExceeded {depth limit : Nat} {failure : RuleError} (hf : failure.kind ≠ .depthExceeded)
    (h : (e.failAt depth failure).outcome = .error (.depthExceeded limit)) :
    limit = e.maxDepth ∧ e.maxDepth < depth := by
  rw [failAt] at h
  split at h
  · rename_i hd
    cases h
    exact ⟨rfl, hd⟩
  · cases h
    exact absurd rfl hf

theorem operatorAt_depthExceeded {depth limit : Nat} {name : String}
    (h : e.operatorAt depth name = .error (.depthExceeded limit)) : limit = e.maxDepth ∧ e.maxDepth < depth := by
  rw [operatorAt] at h
  split at h
  · rename_i hd
    cases h
    exact ⟨rfl, hd⟩
  · split at h <;> cases h

/-- **The failure of a limit names the limit, and a rule that fails so nests deeper than it.** -/
theorem outcome_resolve_depthExceeded (ht : e.operators.Shallow) (context : Json) {limit : Nat} (r : Rule) :
    ∀ depth, (e.resolve context depth r).outcome = .error (.depthExceeded limit) →
      limit = e.maxDepth ∧ e.maxDepth < depth + r.nesting := by
  induction r using Rule.induct with
  | call name operands ih =>
    intro depth h
    have hnest : 1 ≤ (Rule.call name operands).nesting := Nat.le_add_left 1 _
    cases ho : e.operatorAt (depth + 1) name with
    | error failure =>
      rw [resolve_call_error ho] at h
      cases h
      obtain ⟨hlimit, hdepth⟩ := operatorAt_depthExceeded ho
      exact ⟨hlimit, by omega⟩
    | ok o =>
      rw [outcome_resolve_call ho] at h
      obtain ⟨-, hget⟩ := operatorAt_eq_ok_iff.1 ho
      have hmem := Operator.mem_of_invoke_depthExceeded (fun args => ht name o hget args limit) h
      obtain ⟨operand, hoperand, hfails⟩ := List.mem_map.1 hmem
      obtain ⟨hlimit, hdepth⟩ := ih operand hoperand (depth + 1) hfails
      -- the operand is one deeper and nests one less, so the bound carries over to the mapping
      have hle := Rule.nesting_of_mem name hoperand
      exact ⟨hlimit, by omega⟩
  | uncallable name operands =>
    intro depth h
    rw [resolve] at h
    cases ho : e.operatorAt (depth + 1) name with
    | error failure =>
      rw [ho] at h
      cases h
      exact operatorAt_depthExceeded ho
    | ok o =>
      rw [ho] at h
      dsimp only [Run.fail] at h
      unfold operandsError at h
      split at h <;> cases h
  | malformed members =>
    intro depth h
    rw [resolve] at h
    refine outcome_failAt_depthExceeded ?_ h
    unfold malformedError
    split <;> exact RuleError.Kind.noConfusion
  | reference path =>
    intro depth h
    rw [resolve, Json.Path.resolve] at h
    split at h <;> cases h
  | null | literal v =>
    intro depth h
    rw [resolve] at h
    cases h

theorem evaluate_depthExceeded (e : Evaluator) (ht : e.operators.Shallow) {rule context : Json} {limit : Nat}
    (h : e.evaluate rule context = .error (.depthExceeded limit)) :
    limit = e.maxDepth ∧ e.maxDepth < Rule.nestingOf rule := by
  unfold evaluate at h
  unfold Rule.nestingOf
  cases hm : (Rule.ofJson rule).isMapping with
  | true =>
    rw [run_of_isMapping e context hm] at h
    obtain ⟨hlimit, hdepth⟩ := outcome_resolve_depthExceeded ht context _ 0 h
    exact ⟨hlimit, by omega⟩
  | false =>
    rw [run_of_not_isMapping e context hm] at h
    obtain ⟨hlimit, hdepth⟩ := outcome_failAt_depthExceeded RuleError.Kind.noConfusion h
    exact ⟨hlimit, by omega⟩

/-- **The limit of depth is exact and stable.**  An outcome that is not the failure of the limit is the outcome under
every larger one; of the standard operators, no rule that nests within the limit exceeds it, and the failure names the
limit. -/
theorem evaluate_maxDepth (t : OperatorTable) (sinks : List Sink) (rule context : Json) :
    (∀ m n, m ≤ n →
        evaluate ⟨t, m, sinks⟩ rule context ≠ .error (.depthExceeded m) →
        evaluate ⟨t, n, sinks⟩ rule context = evaluate ⟨t, m, sinks⟩ rule context) ∧
      (∀ m limit, Rule.nestingOf rule ≤ m →
        evaluate ⟨.standard, m, sinks⟩ rule context ≠ .error (.depthExceeded limit)) ∧
      ∀ m limit, evaluate ⟨.standard, m, sinks⟩ rule context = .error (.depthExceeded limit) → limit = m := by
  refine ⟨?_, ?_, ?_⟩
  · intro m n hle hne
    exact (evaluate_cutAt ⟨t, m, sinks⟩ ⟨t, n, sinks⟩ (.refl t) hle rule context).resolve_left hne
  · intro m limit hnest h
    have hexceeds : m < Rule.nestingOf rule :=
      (evaluate_depthExceeded ⟨.standard, m, sinks⟩ OperatorTable.shallow_standard h).2
    omega
  · intro m limit h
    exact (evaluate_depthExceeded ⟨.standard, m, sinks⟩ OperatorTable.shallow_standard h).1

/-- A rule of two mappings exceeds the limit one; at two it has the value that it has at any larger limit. -/
theorem evaluate_maxDepth_two :
    let inner : Json := .object [("or", .array [.bool false, .bool true])]
    let rule : Json := .object [("and", .array [.bool true, inner])]
    evaluate ⟨.standard, 1, []⟩ rule .null = .error (.depthExceeded 1) ∧ Rule.nestingOf rule = 2 ∧
      evaluate ⟨.standard, 2, []⟩ rule .null = .ok (.bool true) ∧
      evaluate ⟨.standard, 9, []⟩ rule .null = .ok (.bool true) := by
  intro inner rule
  have hvalue : evaluate ⟨.standard, 2, []⟩ rule .null = .ok (.bool true) := by rfl
  have hwithin : evaluate ⟨.standard, 2, []⟩ rule .null ≠ .error (.depthExceeded 2) := by
    rw [hvalue]
    exact nofun
  have hsame := (evaluate_maxDepth .standard [] rule .null).1 2 9 (by decide) hwithin
  exact ⟨rfl, rfl, hvalue, hsame.trans hvalue⟩

end Evaluator
end Eligibility
