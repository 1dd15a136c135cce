import Eligibility.Proofs.Evaluation.Steps
import Eligibility.Proofs.Operator.Agree
import Eligibility.Proofs.Rule.Agree
import Eligibility.Proofs.Rule.Nesting
import Eligibility.Proofs.Rule.Nodes
/-!
# How numbers are written has no part in an evaluation

Operands that agree are resolved to outcomes that agree, in contexts that do, if all operators are uniform
(`outcome_resolve_agree`).  What a mapping comes to is the same even in how it is written, as operators write their
results anew (`outcome_resolve_mapping_agree`).  So the standard operators give rules that agree one value, or fail of
one cause (`evaluate_of_agree`).
-/
namespace Eligibility
namespace Evaluator

variable {e : Evaluator} {c₁ c₂ : Json}

theorem malformedError_eq {ms ns : Table Json} (hkeys : ms.keys = ns.keys) : malformedError ms = malformedError ns := by
  have hempty : ms.isEmpty = ns.isEmpty := by
    have hmap : ∀ t : Table Json, t.isEmpty = t.keys.isEmpty := fun t => List.isEmpty_map.symm
    rw [hmap, hmap, hkeys]
  unfold malformedError
  rw [hempty, show ms.map Prod.fst = ns.map Prod.fst from hkeys]

/-- **A mapping comes to one result if its operands come to outcomes that agree.** -/
theorem outcome_resolve_mapping_agree (ht : e.operators.Uniform) {r s : Rule} (h : r.Agree s)
    (hr : r.isMapping = true) (depth : Nat)
    (hoperands : ∀ x ∈ r.operands, ∀ y : Rule, x.Agree y →
      Outcome.Agree Json.Agree (e.resolve c₁ (depth + 1) x).outcome (e.resolve c₂ (depth + 1) y).outcome) :
    Outcome.Agree Eq (e.resolve c₁ depth r).outcome (e.resolve c₂ depth s).outcome := by
  cases h with
  | call name h =>
    cases ho : e.operatorAt (depth + 1) name with
    | error failure =>
      rw [resolve_call_error ho, resolve_call_error ho]
      exact .refl_error failure
    | ok o =>
      rw [outcome_resolve_call ho, outcome_resolve_call ho]
      refine Operator.invoke_agree (ht name o (operatorAt_eq_ok_iff.1 ho).2) ?_
      rw [List.forall₂_map_left_iff, List.forall₂_map_right_iff]
      exact ((List.forall₂_and_left _ _).2 ⟨hoperands, h⟩).imp fun x y hxy => hxy.1 y hxy.2
  | uncallable name h =>
    rw [resolve, resolve]
    cases e.operatorAt (depth + 1) name with
    | error failure => exact .refl_error failure
    | ok o =>
      dsimp only [Run.fail]
      rw [operandsError, operandsError, h.isNull_eq]
      exact .refl_error _
  | malformed hkeys =>
    rw [resolve, resolve, malformedError_eq hkeys]
    exact .refl_error _
  | reference path => cases hr
  | null => cases hr
  | literal h => cases hr

/-- **Operands that agree are resolved to outcomes that agree.** -/
theorem outcome_resolve_agree (ht : e.operators.Uniform) (hc : c₁.Agree c₂) (r : Rule) : ∀ {s : Rule}, r.Agree s →
    ∀ depth, Outcome.Agree Json.Agree (e.resolve c₁ depth r).outcome (e.resolve c₂ depth s).outcome := by
  -- a mapping has equal values, but a literal or what a path leads to has values that agree
  have hsame : ∀ v w : Json, v = w → v.Agree w := fun v _ hvw => hvw ▸ .refl v
  induction r using Rule.induct with
  | call name operands ih =>
    intro s h depth
    exact (outcome_resolve_mapping_agree ht h rfl depth fun x hx y hxy => ih x hx hxy (depth + 1)).imp hsame
  | uncallable name operands =>
    intro s h depth
    exact (outcome_resolve_mapping_agree ht h rfl depth fun x hx => by cases hx).imp hsame
  | malformed members =>
    intro s h depth
    exact (outcome_resolve_mapping_agree ht h rfl depth fun x hx => by cases hx).imp hsame
  | reference path =>
    intro s h depth
    cases h with
    | reference _ =>
      rw [resolve, resolve]
      exact Json.Path.resolve_agree hc path
  | null =>
    intro s h depth
    cases h with
    | null =>
      rw [resolve, resolve]
      exact .refl_error _
  | literal v =>
    intro s h depth
    cases h with
    | literal h =>
      rw [resolve, resolve]
      exact .ok h

theorem evaluate_agree (ht : e.operators.Uniform) {rule₁ rule₂ : Json} (hr : rule₁.Agree rule₂) (hc : c₁.Agree c₂) :
    Outcome.Agree Eq (e.evaluate rule₁ c₁) (e.evaluate rule₂ c₂) := by
  have hrule := Rule.agree_ofJson rule₁ hr
  have hmapping := hrule.isMapping_eq
  unfold evaluate
  cases hm : (Rule.ofJson rule₁).isMapping with
  | true =>
    rw [run_of_isMapping e c₁ hm, run_of_isMapping e c₂ (hmapping ▸ hm)]
    exact outcome_resolve_mapping_agree ht hrule hm 0 fun x _ _ hxy => outcome_resolve_agree ht hc x hxy 1
  | false =>
    rw [run_of_not_isMapping e c₁ hm, run_of_not_isMapping e c₂ (hmapping ▸ hm)]
    exact .refl_error _

/-- **How numbers are written has no part in an evaluation.**  Of the standard operators, rules that agree have one and
the same value in contexts that agree, or they fail of one cause, and so with one kind of failure. -/
theorem evaluate_of_agree (maxDepth : Nat) (sinks : List Sink) {rule₁ rule₂ c₁ c₂ : Json} (hr : rule₁.Agree rule₂)
    (hc : c₁.Agree c₂) :
    let e : Evaluator := ⟨.standard, maxDepth, sinks⟩
    (∃ v, e.evaluate rule₁ c₁ = .ok v ∧ e.evaluate rule₂ c₂ = .ok v) ∨
      ∃ f₁ f₂, e.evaluate rule₁ c₁ = .error f₁ ∧ e.evaluate rule₂ c₂ = .error f₂ ∧ f₁.Agree f₂ ∧
        f₁.ctorIdx = f₂.ctorIdx ∧ f₁.kind = f₂.kind := by
  intro e
  have hagree : Outcome.Agree Eq (e.evaluate rule₁ c₁) (e.evaluate rule₂ c₂) :=
    evaluate_agree OperatorTable.uniform_standard hr hc
  generalize e.evaluate rule₁ c₁ = o at hagree ⊢
  generalize e.evaluate rule₂ c₂ = p at hagree ⊢
  cases hagree with
  | @ok v w h =>
    cases h
    exact .inl ⟨v, rfl, rfl⟩
  | @error f₁ f₂ h => exact .inr ⟨f₁, f₂, rfl, rfl, h, h.ctorIdx_eq⟩

/-- Four with a point and without, the two zeros, and two integers with one nearest binary64.  As operands of a sum
they give one value; as operands of a conjunction they are refused, in texts that differ. -/
theorem evaluate_of_agree_of_mixed_numbers :
    let e : Evaluator := ⟨.standard, 2, []⟩
    let number (n : Json.Integer) : Json := .number (.integer n)
    let pointed (x : Binary64.Finite) : Json := .number (.real x)
    let rule (four : Json) : Json := .object [("gt", .array [.object [("sum", .array [.string "!amounts"])], four])]
    let refused : Json := .object [("and", .array [.string "!amounts.0", .bool true])]
    let context (big zero : Json) : Json := .object [("amounts", .array [big, zero])]
    let rule₁ := rule (number ⟨4, by decide⟩)
    let rule₂ := rule (pointed (Json.Number.integer ⟨4, by decide⟩).toFinite)
    let c₁ := context (number ⟨9007199254740993, by decide⟩) (number ⟨0, by decide⟩)
    let c₂ := context (number ⟨9007199254740992, by decide⟩) (pointed (.zero true))
    rule₁.Agree rule₂ ∧ c₁.Agree c₂ ∧ (∃ v, e.evaluate rule₁ c₁ = .ok v ∧ e.evaluate rule₂ c₂ = .ok v) ∧
      e.evaluate refused c₁ = .error (.typeMismatch "Boolean" "Boolean" "9007199254740993" none) ∧
      e.evaluate refused c₂ = .error (.typeMismatch "Boolean" "Boolean" "9007199254740992" none) := by
  intro e number pointed rule refused context rule₁ rule₂ c₁ c₂
  have hok : (e.evaluate rule₁ c₁).isOk = true := by decide +kernel +revert
  have hbig : (number ⟨9007199254740993, by decide⟩).Agree (number ⟨9007199254740992, by decide⟩) :=
    .number (by decide +kernel)
  have hzero : (number ⟨0, by decide⟩).Agree (pointed (.zero true)) := .number (by decide +kernel)
  have hrule : rule₁.Agree rule₂ :=
    .object rfl (.cons (.array (.cons (.refl _) (.cons (.number rfl) .nil))) .nil)
  have hcontext : c₁.Agree c₂ := .object rfl (.cons (.array (.cons hbig (.cons hzero .nil))) .nil)
  refine ⟨hrule, hcontext, ?_, rfl, rfl⟩
  rcases evaluate_of_agree 2 [] hrule hcontext with h | ⟨f₁, -, hf₁, -⟩
  · exact h
  · rw [hf₁] at hok
    cases hok

end Evaluator
end Eligibility
