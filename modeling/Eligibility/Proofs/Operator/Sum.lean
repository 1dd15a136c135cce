import Eligibility.Basket.Quantity
import Eligibility.Operator.Standard
import Eligibility.Proofs.Binary64.Counting
import Eligibility.Proofs.Json.Number
import Eligibility.Proofs.Validator.Levels
import Mathlib.Algebra.Ring.Nat
/-!
# Sums of quantities in a range

The sum of quantities counts what they are together (`invoke_sum_quantities`), whatever it is rounded to and however
it is written, so `inrange` tells it from bounds below 2⁵³ as it would tell the exact sum
(`invoke_inRange_of_counts`).
-/
namespace Eligibility

open Binary64 (Finite Counts nearest unitsPerOne)

theorem Quantity.counts_toJson (q : Quantity) :
    ∃ x, q.toJson.asReal = some x ∧ Counts x q.value ∧ x.toInt ≤ twoTo 64 * unitsPerOne := by
  have hpos : (0 : Int) ≤ unitsPerOne := Int.natCast_nonneg _
  have h0 : 0 ≤ (q.value : Int) * unitsPerOne := Int.mul_nonneg (Int.natCast_nonneg _) hpos
  have hlt := q.value_lt
  have hword : (q.value : Int) * unitsPerOne ≤ twoTo 64 * unitsPerOne := by
    refine Int.mul_le_mul_of_nonneg_right ?_ hpos
    have h64 : twoTo 64 = 18_446_744_073_709_551_616 := by decide
    omega
  refine ⟨_, rfl, ?_, ?_⟩
  · refine Binary64.counts_of_toInt h0 (Int.dvd_mul_left _ _) ?_ rfl (Json.toInt_toFinite _)
    have hlim : (0 : Int) ≤ Binary64.countLimit := by decide +kernel
    omega
  · have htop : nearest (twoTo 64 * unitsPerOne) = twoTo 64 * unitsPerOne := by decide +kernel
    rw [Json.toInt_toFinite, ← htop]
    exact Binary64.nearest_mono hword

/-- **A number that is whole and not negative is a whole number.** -/
theorem Validator.validate_whole {v : Json} {x : Finite} (hv : v.asReal = some x)
    (hd : (unitsPerOne : Int) ∣ x.toInt) (h0 : 0 ≤ x.toInt) : Validator.whole.validate v = .ok v := by
  have holds : ∀ p : Finite → Bool, p x = true → holdsOfReal p v = true := by
    intro p hp
    rw [holdsOfReal, hv]
    exact hp
  have hinteger : integer.Accepts v :=
    accepts_refine.2 ⟨accepts_root.2 (holds _ rfl), holds _ ((Binary64.isWhole_iff x).2 hd)⟩
  exact accepts_refine.2 ⟨hinteger, holds _ (decide_eq_true h0)⟩

theorem Json.validate_whole_integer {n : Integer} (h : 0 ≤ n.value ∧ n.value < twoTo 53) :
    Validator.whole.validate (.number (.integer n)) = .ok (.number (.integer n)) := by
  have hpos : (0 : Int) ≤ unitsPerOne := Int.natCast_nonneg _
  refine Validator.validate_whole rfl ?_ ?_
  · rw [toInt_toFinite_of_lt h]
    exact Int.dvd_mul_left _ _
  · rw [toInt_toFinite_of_lt h]
    exact Int.mul_nonneg h.1 hpos

namespace Operator

theorem real_of_asReal (name : String) {v : Json} {x : Finite} (h : v.asReal = some x) : real name v = .ok x := by
  rw [real, h]

/-- **A running total that counts `n` counts the quantities added to it.** -/
theorem addAll_quantities : ∀ (qs : List Quantity) {x : Finite} {n : Nat}, Counts x n →
    ∃ z, addAll (.finite x) (qs.map Quantity.toJson) = .ok (.finite z) ∧ Counts z (n + (qs.map Quantity.value).sum)
  | [], x, n, h => ⟨x, rfl, h⟩
  | q :: rest, x, n, h => by
    obtain ⟨y, hy, hq, hword⟩ := q.counts_toJson
    obtain ⟨t, ht, hsum⟩ := h.add hq hword
    obtain ⟨z, hz, hrest⟩ := addAll_quantities rest hsum
    refine ⟨z, ?_, ?_⟩
    · rw [List.map_cons, addAll, real_of_asReal "sum" hy]
      dsimp only [Outcome.chain, Binary64.add]
      rw [ht, hz]
    · rw [List.map_cons, List.sum_cons, ← Nat.add_assoc]
      exact hrest

/-- **A sum that is finite has the value of the running total**, however it is written. -/
theorem invoke_sum_of_addAll {v : Json} {items : List Json} {z : Finite} (hv : collection v = .ok items)
    (hz : addAll (.finite (.zero false)) items = .ok (.finite z)) :
    ∃ w x, sum.invoke [.ok v] = .ok w ∧ w.asReal = some x ∧ x.toInt = z.toInt := by
  obtain ⟨w, hw⟩ : ∃ w, Json.ofBinary64? (.finite z) = some w := ⟨_, rfl⟩
  obtain ⟨x, hx, hxz⟩ := Json.asReal_of_ofBinary64? hw
  refine ⟨w, x, ?_, hx, hxz⟩
  have hargs : Outcome.sequence (validated sum.params [.ok v]) = .ok [v] := rfl
  rw [invoke_of_sequence rfl hargs]
  dsimp only [sum, total, Operation.unary, bind, Except.bind]
  rw [hv]
  dsimp only
  rw [hz]
  dsimp only
  rw [hw]
  rfl

/-- **The sum of a mapping of quantities counts what they are together.** -/
theorem invoke_sum_quantities (t : Table Quantity) :
    ∃ v x, sum.invoke [.ok (.object (t.mapValues fun _ q => q.toJson))] = .ok v ∧ v.asReal = some x ∧
      Counts x (t.values.map Quantity.value).sum := by
  obtain ⟨z, hz, hcounts⟩ := addAll_quantities t.values Binary64.counts_zero
  have hmembers : collection (.object (t.mapValues fun _ q => q.toJson)) = .ok (t.values.map Quantity.toJson) := by
    rw [collection, Table.mapValues, Table.values, List.map_map, List.map_map]
    rfl
  obtain ⟨v, x, hv, hx, hxz⟩ := invoke_sum_of_addAll hmembers hz
  rw [Nat.zero_add] at hcounts
  exact ⟨v, x, hv, hx, hcounts.congr hxz⟩

theorem invoke_inRange {a b v : Json} {x y z : Finite} (ha : Validator.whole.validate a = .ok a)
    (hb : Validator.whole.validate b = .ok b) (hv : Validator.whole.validate v = .ok v) (hx : a.asReal = some x)
    (hy : b.asReal = some y) (hz : v.asReal = some z) :
    inRange.invoke [.ok a, .ok b, .ok v] = .ok (.bool (x.le z && z.le y)) := by
  have hargs : Outcome.sequence (validated inRange.params [.ok a, .ok b, .ok v]) = .ok [a, b, v] := by
    simp [validated, inRange, Outcome.chain, Except.map, ha, hb, hv]
  rw [invoke_of_sequence rfl hargs]
  dsimp only [inRange, range, Operation.ternary]
  rw [real_of_asReal "inrange" hx, real_of_asReal "inrange" hy, real_of_asReal "inrange" hz]
  rfl

/-- **A range with bounds below 2⁵³ has what counts `n` exactly if it has `n`.** -/
theorem invoke_inRange_of_counts {lo hi : Json.Integer} (hlo : 0 ≤ lo.value ∧ lo.value < twoTo 53)
    (hhi : 0 ≤ hi.value ∧ hi.value < twoTo 53) {v : Json} {x : Finite} {n : Nat} (hv : v.asReal = some x)
    (hx : Counts x n) :
    inRange.invoke [.ok (.number (.integer lo)), .ok (.number (.integer hi)), .ok v] =
      .ok (.bool (decide (lo.value ≤ n ∧ (n : Int) ≤ hi.value))) := by
  have hlow := Json.toInt_toFinite_of_lt hlo
  have hhigh := Json.toInt_toFinite_of_lt hhi
  rw [invoke_inRange (Json.validate_whole_integer hlo) (Json.validate_whole_integer hhi)
    (Validator.validate_whole hv hx.whole hx.nonneg) rfl rfl hv]
  rw [Finite.le, Finite.le, hlow, hhigh, ← Bool.decide_and]
  simp only [hx.ge_iff hlo.2, hx.le_iff hhi.2]

end Operator
end Eligibility
