import Eligibility.Proofs.Condition.Basic
import Eligibility.Proofs.Evaluation.Steps
import Eligibility.Proofs.Json.Path
import Eligibility.Proofs.Operator.Sum
import Eligibility.Proofs.Rule.Nesting
/-!
# Conditions are evaluated as what they say

A number that is an operand has the value of the amount it is written for, whether or not it is a sum that was written
anew (`outcome_resolve_amount`).  So each operator is applied to operands of its types, and by induction on a condition
its outcome is what it says of the context (`outcome_resolve_condition`).  Nothing fails, and `evaluate_condition`
needs no more room than the nesting of the rule.
-/
namespace Eligibility

open Binary64 (Finite unitsPerOne)

namespace Json

/-- Whether a value is a number with so many units. -/
def Measures (v : Json) (n : Int) : Prop := ∃ x, v.asReal = some x ∧ x.toInt = n

theorem isNull_of_numbers? {v : Json} {xs : List Finite} (h : v.numbers? = some xs) : v.isNull = false := by
  cases v with
  | null => cases h
  | bool _ | number _ | string _ | array _ | object _ => rfl

theorem eq_bool_of_asBool {v : Json} {b : Bool} (h : v.asBool = some b) : v = .bool b := by
  cases v with
  | bool a =>
    cases h
    rfl
  | null | number _ | string _ | array _ | object _ => cases h

theorem mapM_asReal_number : ∀ ns : List Number, (ns.map number).mapM asReal = some (ns.map Number.toFinite)
  | [] => rfl
  | n :: rest => by
    rw [List.map_cons, List.mapM_cons, mapM_asReal_number rest]
    rfl

end Json

theorem Binary64.eq_finite_of_finite? {x : Binary64} {z : Finite} (h : x.finite? = some z) : x = .finite z := by
  cases x with
  | finite y =>
    cases h
    rfl
  | infinite _ | nan => cases h

namespace Operator

def ofConnective : Connective → Operator
  | .both => conjunction
  | .either => disjunction

theorem invoke_ofConnective (c : Connective) (a b : Bool) :
    (ofConnective c).invoke [.ok (.bool a), .ok (.bool b)] = .ok (.bool (c.holds a b)) := by
  cases c <;> rfl

def ofComparison : Comparison → Operator
  | .greater => greater
  | .less => less
  | .atLeast => atLeast
  | .atMost => atMost

/-- **A comparison of numbers holds of their values.** -/
theorem invoke_ofComparison (c : Comparison) {v w : Json} {m n : Int} (hv : v.Measures m) (hw : w.Measures n) :
    (ofComparison c).invoke [.ok v, .ok w] = .ok (.bool (c.holds m n)) := by
  obtain ⟨x, hx, rfl⟩ := hv
  obtain ⟨y, hy, rfl⟩ := hw
  cases v with
  | number k =>
    cases w with
    | number l =>
      cases hx
      cases hy
      cases c <;> rfl
    | null | bool _ | string _ | array _ | object _ => cases hy
  | null | bool _ | string _ | array _ | object _ => cases hx

theorem invoke_inRange_of_measures {a b v : Json} {x y z : Finite} (ha : a.Measures x.toInt) (hb : b.Measures y.toInt)
    (hv : v.Measures z.toInt) (hx : (unitsPerOne : Int) ∣ x.toInt ∧ 0 ≤ x.toInt)
    (hy : (unitsPerOne : Int) ∣ y.toInt ∧ 0 ≤ y.toInt) (hz : (unitsPerOne : Int) ∣ z.toInt ∧ 0 ≤ z.toInt) :
    inRange.invoke [.ok a, .ok b, .ok v] = .ok (.bool (decide (x.toInt ≤ z.toInt ∧ z.toInt ≤ y.toInt))) := by
  obtain ⟨p, hp, hpx⟩ := ha
  obtain ⟨q, hq, hqy⟩ := hb
  obtain ⟨r, hr, hrz⟩ := hv
  -- the operands are as whole as the amounts, having their values
  rw [← hpx] at hx ⊢
  rw [← hqy] at hy ⊢
  rw [← hrz] at hz ⊢
  rw [invoke_inRange (Validator.validate_whole hp hx.1 hx.2) (Validator.validate_whole hq hy.1 hy.2)
    (Validator.validate_whole hr hz.1 hz.2) hp hq hr, Bool.decide_and]
  rfl

theorem addAll_of_mapM : ∀ {items : List Json} {xs : List Finite}, items.mapM Json.asReal = some xs →
    ∀ total, addAll total items = .ok (xs.foldl (fun total x => total.add (.finite x)) total)
  | [], xs, h, total => by
    cases h
    rfl
  | v :: rest, xs, h, total => by
    rw [List.mapM_cons] at h
    obtain ⟨x, hx, h⟩ := Option.bind_eq_some_iff.1 h
    obtain ⟨ys, hys, h⟩ := Option.bind_eq_some_iff.1 h
    cases h
    rw [addAll, real_of_asReal "sum" hx, List.foldl_cons]
    exact addAll_of_mapM hys _

/-- **The sum of a collection of numbers has the value of their total.** -/
theorem invoke_sum_of_numbers? {v : Json} {xs : List Finite} (hv : v.numbers? = some xs) {z : Finite}
    (hz : Binary64.total? xs = some z) : ∃ w, sum.invoke [.ok v] = .ok w ∧ w.Measures z.toInt := by
  obtain ⟨items, hitems, hxs⟩ : ∃ items, collection v = .ok items ∧ items.mapM Json.asReal = some xs := by
    cases v with
    | array items => exact ⟨items, rfl, hv⟩
    | object members => exact ⟨members.map Prod.snd, rfl, hv⟩
    | null | bool _ | number _ | string _ => cases hv
  have htotal : addAll (.finite (.zero false)) items = .ok (.finite z) := by
    rw [addAll_of_mapM hxs, Binary64.eq_finite_of_finite? hz]
  obtain ⟨w, x, hw, hx, hxz⟩ := invoke_sum_of_addAll hitems htotal
  exact ⟨w, hw, x, hx, hxz⟩

end Operator

theorem Amount.of_whole? {context : Json} {x : Amount} {z : Finite} (h : x.whole? context = some z) :
    x.value? context = some z ∧ (unitsPerOne : Int) ∣ z.toInt ∧ 0 ≤ z.toInt := by
  obtain ⟨hvalue, hwhole⟩ := Option.filter_eq_some_iff.1 h
  rw [Bool.and_eq_true, Binary64.isWhole_iff, decide_eq_true_iff] at hwhole
  exact ⟨hvalue, hwhole⟩

namespace Evaluator

variable {e : Evaluator} {context : Json} {depth : Nat}

theorem outcome_resolve_template {path : String} {v : Json} (h : Json.Path.lookup? path context = some v)
    (hv : v.isNull = false) : (e.resolve context depth (.ofJson (.template path))).outcome = .ok v := by
  rw [Rule.ofJson_template, resolve]
  exact Json.Path.resolve_of_lookup? h hv

/-- **An operator is applied to what its operands are**, if there is room for the mapping. -/
theorem outcome_resolve_callJson {name : String} {o : Operator} (ho : e.operators.get? name = some o)
    {operands : List Json} (hd : depth + (Rule.ofJson (.call name operands)).nesting ≤ e.maxDepth) :
    (e.resolve context depth (.ofJson (.call name operands))).outcome =
      o.invoke (operands.map fun v => (e.resolve context (depth + 1) (.ofJson v)).outcome) := by
  rw [Rule.ofJson_call, Rule.nesting] at hd
  rw [Rule.ofJson_call, outcome_resolve_call (operatorAt_of_get? (by omega) ho), List.map_map]
  rfl

theorem outcome_resolve_collection (e : Evaluator) (depth : Nat) {c : Collection} {xs : List Finite}
    (h : c.numbers? context = some xs) :
    ∃ v, (e.resolve context depth (.ofJson c.toJson)).outcome = .ok v ∧ v.numbers? = some xs := by
  cases c with
  | items ns =>
    cases h
    refine ⟨.array (ns.map .number), ?_, Json.mapM_asReal_number ns⟩
    rw [Collection.toJson, Rule.ofJson, resolve]
  | path p =>
    obtain ⟨v, hv, hxs⟩ := Option.bind_eq_some_iff.1 h
    exact ⟨v, outcome_resolve_template hv (Json.isNull_of_numbers? hxs), hxs⟩

/-- **An amount is resolved to a number of its value.** -/
theorem outcome_resolve_amount (he : e.operators = .standard) {x : Amount} {z : Finite}
    (h : x.value? context = some z) (hd : depth + (Rule.ofJson x.toJson).nesting ≤ e.maxDepth) :
    ∃ v, (e.resolve context depth (.ofJson x.toJson)).outcome = .ok v ∧ v.Measures z.toInt := by
  cases x with
  | number n =>
    cases h
    refine ⟨.number n, ?_, _, rfl, rfl⟩
    rw [Amount.toJson, Rule.ofJson, resolve]
  | path p =>
    obtain ⟨v, hv, hz⟩ := Option.bind_eq_some_iff.1 h
    exact ⟨v, outcome_resolve_template hv (Json.isNull_of_asReal hz), z, hz, rfl⟩
  | sum c =>
    obtain ⟨xs, hxs, hz⟩ := Option.bind_eq_some_iff.1 h
    obtain ⟨v, hv, hnumbers⟩ := outcome_resolve_collection e (depth + 1) hxs
    obtain ⟨w, hw, hmeasures⟩ := Operator.invoke_sum_of_numbers? hnumbers hz
    have hsum : e.operators.get? "sum" = some .sum := by rw [he]; rfl
    refine ⟨w, ?_, hmeasures⟩
    rw [Amount.toJson, outcome_resolve_callJson hsum hd, List.map_singleton, hv, hw]

/-- **A condition is resolved to what it says.** -/
theorem outcome_resolve_condition (he : e.operators = .standard) {c : Condition} {b : Bool}
    (h : c.truth? context = some b) (hd : depth + (Rule.ofJson c.toJson).nesting ≤ e.maxDepth) :
    (e.resolve context depth (.ofJson c.toJson)).outcome = .ok (.bool b) := by
  -- every operand nests one level less than the condition that it stands in, at a depth that is one greater
  induction c generalizing depth b with
  | constant a =>
    cases h
    rw [Condition.toJson, Rule.ofJson, resolve]
  | path p =>
    obtain ⟨v, hv, hb⟩ := Option.bind_eq_some_iff.1 h
    obtain rfl := Json.eq_bool_of_asBool hb
    exact outcome_resolve_template hv rfl
  | join c l r ihl ihr =>
    obtain ⟨p, hp, h⟩ := Option.bind_eq_some_iff.1 h
    obtain ⟨q, hq, h⟩ := Option.bind_eq_some_iff.1 h
    cases h
    have hconnect : e.operators.get? c.name = some (.ofConnective c) := by
      rw [he]
      cases c <;> rfl
    have hl := ihl hp (Rule.nesting_operand_le hd (by simp))
    have hr := ihr hq (Rule.nesting_operand_le hd (by simp))
    rw [Condition.toJson, outcome_resolve_callJson hconnect hd, List.map_cons, List.map_singleton, hl, hr]
    exact Operator.invoke_ofConnective c p q
  | compare c x y =>
    obtain ⟨p, hp, h⟩ := Option.bind_eq_some_iff.1 h
    obtain ⟨q, hq, h⟩ := Option.bind_eq_some_iff.1 h
    cases h
    have hcompare : e.operators.get? c.name = some (.ofComparison c) := by
      rw [he]
      cases c <;> rfl
    obtain ⟨v, hv, hvp⟩ := outcome_resolve_amount he hp (Rule.nesting_operand_le hd (by simp))
    obtain ⟨w, hw, hwq⟩ := outcome_resolve_amount he hq (Rule.nesting_operand_le hd (by simp))
    rw [Condition.toJson, outcome_resolve_callJson hcompare hd, List.map_cons, List.map_singleton, hv, hw]
    exact Operator.invoke_ofComparison c hvp hwq
  | within low high x =>
    obtain ⟨p, hp, h⟩ := Option.bind_eq_some_iff.1 h
    obtain ⟨q, hq, h⟩ := Option.bind_eq_some_iff.1 h
    obtain ⟨r, hr, h⟩ := Option.bind_eq_some_iff.1 h
    cases h
    have hrange : e.operators.get? "inrange" = some .inRange := by rw [he]; rfl
    obtain ⟨hp, hpw⟩ := Amount.of_whole? hp
    obtain ⟨hq, hqw⟩ := Amount.of_whole? hq
    obtain ⟨hr, hrw⟩ := Amount.of_whole? hr
    obtain ⟨u, hu, hup⟩ := outcome_resolve_amount he hp (Rule.nesting_operand_le hd (by simp))
    obtain ⟨v, hv, hvq⟩ := outcome_resolve_amount he hq (Rule.nesting_operand_le hd (by simp))
    obtain ⟨w, hw, hwr⟩ := outcome_resolve_amount he hr (Rule.nesting_operand_le hd (by simp))
    rw [Condition.toJson, outcome_resolve_callJson hrange hd, List.map_cons, List.map_cons, List.map_singleton, hu,
      hv, hw]
    exact Operator.invoke_inRange_of_measures hup hvq hwr hpw hqw hrw

/-- **A mapping that is a condition evaluates to what it says**, if its nesting is within the limit. -/
theorem evaluate_condition (he : e.operators = .standard) {c : Condition} {b : Bool} (hb : c.truth? context = some b)
    (hc : c.toJson.isObject = true) (hd : Rule.nestingOf c.toJson ≤ e.maxDepth) :
    e.evaluate c.toJson context = .ok (.bool b) := by
  have hmapping : (Rule.ofJson c.toJson).isMapping = true := by rw [Rule.isMapping_ofJson, hc]
  have hroom : 0 + (Rule.ofJson c.toJson).nesting ≤ e.maxDepth := by
    rw [Nat.zero_add]
    exact Nat.le_trans (Nat.le_max_right _ _) hd
  rw [evaluate, run_of_isMapping e context hmapping]
  exact outcome_resolve_condition he hb hroom

/-- The lines of a basket are summed up twice on one side of a disjunction; the other side is a flag that is not set. -/
theorem evaluate_condition_of_basket :
    let number (n : Int) (h : -9_223_372_036_854_775_808 ≤ n ∧ n < 18_446_744_073_709_551_616) : Json.Number :=
      .integer ⟨n, h⟩
    let one := number 1 (by decide)
    let five := number 5 (by decide)
    let e : Evaluator := ⟨.standard, 4, []⟩
    let context : Json := .object [("basket", .object [("apple", .number one), ("pear", .number five)]),
      ("member", .bool false), ("total", .number five)]
    let sum : Amount := .sum (.path "basket")
    let c : Condition := .join .either (.path "member")
      (.join .both (.compare .greater sum (.path "total")) (.within (.number one) (.sum (.items [one, five])) sum))
    e.evaluate c.toJson context = .ok (.bool true) := by
  intro number one five e context sum c
  exact evaluate_condition rfl (by decide +kernel) rfl (by decide)

end Evaluator
end Eligibility
