import Eligibility.Proofs.Basket.Addressing
import Eligibility.Proofs.Basket.Reduction
import Eligibility.Proofs.Evaluation.Steps
import Eligibility.Proofs.Operator.Sum
import Eligibility.Proofs.Rule.Reading
/-!
# Rules on the quantity of an offer

A rule may ask whether the quantities of a partner's offer sum up to a number in a range.  Quantities saturate and the
sum rounds, but both happen above 2⁵³, so with bounds below that the rule decides what it would of the exact quantity
of the lines tracked (`evaluate_rangeRule`).
-/
namespace Eligibility

open Quantity (saturate)

/-- **The rule that the quantity of a partner's offer is in a range.** -/
def rangeRule (partner : String) (lo hi : Json.Integer) : Json :=
  .object [("inrange", .array [.number (.integer lo), .number (.integer hi),
    .object [("sum", .array [.string ("!" ++ Offer.partnerPath partner "products")])]])]

/-- What a range with bounds below 2⁵³ says of a number it says of what that number saturates to. -/
theorem decide_range_congr {lo hi : Int} (hlo : lo < twoTo 53) (hhi : hi < twoTo 53) {m n : Nat}
    (h : saturate m = saturate n) :
    decide (lo ≤ (m : Int) ∧ (m : Int) ≤ hi) = decide (lo ≤ (n : Int) ∧ (n : Int) ≤ hi) := by
  have hvalue := congrArg Quantity.value h
  have h53 : twoTo 53 = 9_007_199_254_740_992 := by decide
  rw [Quantity.value_saturate, Quantity.value_saturate] at hvalue
  rw [decide_eq_decide]
  omega

namespace Evaluator

variable {e : Evaluator}

/-- The sum of a partner's offer, as an operand, counts the quantities. -/
theorem outcome_resolve_sum (he : e.operators = .standard) (hdepth : 2 ≤ e.maxDepth) {partner : String}
    (hp : '.' ∉ partner.toList) (o : Offer) (context : Json) :
    ∃ v x, (e.resolve (o.mergeInto partner context) 1
        (.call "sum" [.ofString ("!" ++ Offer.partnerPath partner "products")])).outcome = .ok v ∧
      v.asReal = some x ∧ Binary64.Counts x (o.products.values.map Quantity.value).sum := by
  have hsum : e.operatorAt 2 "sum" = .ok Operator.sum :=
    operatorAt_eq_ok_iff.2 ⟨hdepth, by rw [he]; rfl⟩
  have hpath : Json.Path.resolve (Offer.partnerPath partner "products") (o.mergeInto partner context) =
      .ok o.productsJson := Offer.resolve_partnerPath_of_lookup? o context hp rfl rfl
  obtain ⟨v, x, hv, hx, hcounts⟩ := Operator.invoke_sum_quantities o.products
  refine ⟨v, x, ?_, hx, hcounts⟩
  rw [outcome_resolve_call hsum, List.map_singleton, Rule.ofString, Rule.reference?_mark]
  dsimp only
  rw [resolve, hpath]
  exact hv

/-- **The rule decides whether the quantity of the lines tracked is in the range**, exactly, and whether the total of
the offer is. -/
theorem evaluate_rangeRule (he : e.operators = .standard) (hdepth : 2 ≤ e.maxDepth) {b : Basket} {o : Offer}
    (hb : b.offer? = some o) (context : Json) {partner : String} (hp : '.' ∉ partner.toList) {lo hi : Json.Integer}
    (hlo : 0 ≤ lo.value ∧ lo.value < twoTo 53) (hhi : 0 ≤ hi.value ∧ hi.value < twoTo 53) :
    e.evaluate (rangeRule partner lo hi) (o.mergeInto partner context) =
        .ok (.bool (decide (lo.value ≤ b.trackedQuantity ∧ (b.trackedQuantity : Int) ≤ hi.value))) ∧
      e.evaluate (rangeRule partner lo hi) (o.mergeInto partner context) =
        .ok (.bool (decide (lo.value ≤ o.totalQuantity.value ∧ (o.totalQuantity.value : Int) ≤ hi.value))) := by
  have hrange : e.operatorAt 1 "inrange" = .ok Operator.inRange :=
    operatorAt_eq_ok_iff.2 ⟨by omega, by rw [he]; rfl⟩
  obtain ⟨v, x, hv, hx, hcounts⟩ := outcome_resolve_sum he hdepth hp o context
  have houtcome : e.evaluate (rangeRule partner lo hi) (o.mergeInto partner context) =
      Operator.inRange.invoke [.ok (.number (.integer lo)), .ok (.number (.integer hi)), .ok v] := by
    rw [evaluate, rangeRule, Rule.ofJson, Rule.ofMembers, Rule.ofOperands, run_of_isMapping e _ rfl,
      outcome_resolve_call hrange]
    simp only [Rule.ofJsons, Rule.ofJson, Rule.ofMembers, Rule.ofOperands, List.map_cons, List.map_nil]
    rw [hv, resolve, resolve]
  rw [houtcome, Operator.invoke_inRange_of_counts hlo hhi hx hcounts]
  have htracked := Basket.saturate_sum_products hb
  constructor
  · rw [decide_range_congr hlo.2 hhi.2 htracked]
  · have htotal := htracked.trans (Quantity.saturate_value _).symm
    rw [Basket.totalQuantity_of_offer? hb, decide_range_congr hlo.2 hhi.2 htotal]

/-- Two articles are tracked, one of them named twice; the third is not counted. -/
theorem evaluate_rangeRule_of_untracked_line :
    let e : Evaluator := ⟨.standard, 2, []⟩
    let line (n : Nat) (sku : String) : BasketLine := ⟨saturate n, sku, .zero, .zero⟩
    let lines := [line 2 "apple", line 7 "plum", line 4 "pear", line 3 "apple"]
    let b : Basket := ⟨none, ["apple", "pear", "apple"], lines⟩
    let nine : Json.Integer := ⟨9, by decide⟩
    ∃ o, b.offer? = some o ∧
      e.evaluate (rangeRule "acme" nine nine) (o.mergeInto "acme" .null) = .ok (.bool true) := by
  intro e line lines b nine
  obtain ⟨o, ho⟩ : ∃ o, b.offer? = some o := ⟨_, rfl⟩
  refine ⟨o, ho, ?_⟩
  rw [(evaluate_rangeRule rfl (by decide) ho .null (by decide) (by decide) (by decide)).1]
  rfl

end Evaluator
end Eligibility
