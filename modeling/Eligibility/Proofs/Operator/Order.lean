import Eligibility.Proofs.Condition.Evaluation
import Eligibility.Proofs.Operator.Result
/-!
# The order of numbers under the standard operators

The comparisons compare the binary64 numbers nearest to their operands (`applied_comparison`).  Rounding is monotone, so
integers are never found in the opposite order, and below 2⁵³ it is exact, so from there no two integers are taken for
equal.  A range is two comparisons (`applied_inRange`).
-/
namespace Eligibility

open Binary64 (Finite nearest nearest_le_nearest_iff nearest_mono nearest_nonneg mul_unitsPerOne_le_iff unitsPerOne)
open Json (Integer Number)

/-- The standard operator of a name applied to values. -/
def OperatorTable.applied (name : String) (values : List Json) : Outcome Json :=
  standard.invoke name (values.map .ok)

theorem Comparison.holds_congr {m n m' n' : Int} (hle : m ≤ n ↔ m' ≤ n') (hge : n ≤ m ↔ n' ≤ m') (c : Comparison) :
    c.holds m n = c.holds m' n' := by
  cases c <;> simp only [holds, decide_eq_decide] <;> omega

theorem Validator.accepts_whole_integer {n : Integer} (h : 0 ≤ n.value) :
    whole.Accepts (.number (.integer n)) := by
  refine validate_whole rfl ?_ ?_ <;> rw [Json.toInt_toFinite]
  · exact Binary64.dvd_nearest (Int.dvd_mul_left _ _)
  · exact nearest_nonneg (Int.mul_nonneg h (Int.natCast_nonneg _))

namespace OperatorTable

theorem applied_eq_invoke_ofComparison (c : Comparison) (values : List Json) :
    applied c.name values = (Operator.ofComparison c).invoke (values.map .ok) := by
  cases c <;> rfl

theorem applied_of_asReal (c : Comparison) {v w : Json} {x y : Finite} (hx : v.asReal = some x)
    (hy : w.asReal = some y) : applied c.name [v, w] = .ok (.bool (c.holds x.toInt y.toInt)) := by
  rw [applied_eq_invoke_ofComparison]
  exact Operator.invoke_ofComparison c ⟨x, hx, rfl⟩ ⟨y, hy, rfl⟩

theorem applied_comparison (c : Comparison) (m n : Number) :
    applied c.name [.number m, .number n] = .ok (.bool (c.holds m.toFinite.toInt n.toFinite.toInt)) :=
  applied_of_asReal c rfl rfl

theorem applied_comparison_integers (c : Comparison) (a b : Integer) :
    applied c.name [.number (.integer a), .number (.integer b)] =
      .ok (.bool (c.holds (nearest (a.value * unitsPerOne)) (nearest (b.value * unitsPerOne)))) := by
  rw [applied_comparison, Json.toInt_toFinite, Json.toInt_toFinite]

/-- **A range is two comparisons**, of values that are whole and not negative. -/
theorem applied_inRange {lo hi v : Json} (hlo : Validator.whole.Accepts lo) (hhi : Validator.whole.Accepts hi)
    (hv : Validator.whole.Accepts v) :
    applied "inrange" [lo, hi, v] = standard.invoke "and" [applied "lte" [lo, v], applied "lte" [v, hi]] := by
  obtain ⟨x, hx⟩ := hlo.exists_real_of_whole
  obtain ⟨y, hy⟩ := hhi.exists_real_of_whole
  obtain ⟨z, hz⟩ := hv.exists_real_of_whole
  have hrange : applied "inrange" [lo, hi, v] = .ok (.bool (x.le z && z.le y)) :=
    Operator.invoke_inRange hlo hhi hv hx hy hz
  have hlow : applied "lte" [lo, v] = .ok (.bool (x.le z)) := applied_of_asReal .atMost hx hz
  have hhigh : applied "lte" [v, hi] = .ok (.bool (z.le y)) := applied_of_asReal .atMost hz hy
  rw [hrange, hlow, hhigh]
  exact (Operator.invoke_ofConnective .both (x.le z) (z.le y)).symm

theorem applied_inRange_integers {lo hi n : Integer} (hlo : 0 ≤ lo.value) (hhi : 0 ≤ hi.value) (hn : 0 ≤ n.value) :
    applied "inrange" [.number (.integer lo), .number (.integer hi), .number (.integer n)] =
      .ok (.bool (decide (nearest (lo.value * unitsPerOne) ≤ nearest (n.value * unitsPerOne)) &&
        decide (nearest (n.value * unitsPerOne) ≤ nearest (hi.value * unitsPerOne)))) := by
  rw [← Json.toInt_toFinite, ← Json.toInt_toFinite, ← Json.toInt_toFinite]
  exact Operator.invoke_inRange (Validator.accepts_whole_integer hlo) (Validator.accepts_whole_integer hhi)
    (Validator.accepts_whole_integer hn) rfl rfl rfl

/-- **The order of numbers under the comparisons.**  Integers are never found in the opposite order, and in their own if
one of them is below 2⁵³ in magnitude.  A range has every integer between its bounds, and no other if its bounds are
below 2⁵³.  Of all numbers a comparison denies the opposite one, and a range is two comparisons. -/
theorem order_of_numbers :
    (∀ a b : Integer, a.value ≤ b.value →
      applied "lte" [.number (.integer a), .number (.integer b)] = .ok (.bool true) ∧
      applied "gte" [.number (.integer b), .number (.integer a)] = .ok (.bool true) ∧
      applied "gt" [.number (.integer a), .number (.integer b)] = .ok (.bool false) ∧
      applied "lt" [.number (.integer b), .number (.integer a)] = .ok (.bool false)) ∧
    (∀ a b : Integer, a.value.natAbs < twoTo 53 ∨ b.value.natAbs < twoTo 53 → ∀ c : Comparison,
      applied c.name [.number (.integer a), .number (.integer b)] = .ok (.bool (c.holds a.value b.value))) ∧
    (∀ lo hi n : Integer, 0 ≤ lo.value → 0 ≤ hi.value → 0 ≤ n.value →
      ∃ within, applied "inrange" [.number (.integer lo), .number (.integer hi), .number (.integer n)] =
          .ok (.bool within) ∧
        (lo.value ≤ n.value ∧ n.value ≤ hi.value → within = true) ∧
        (lo.value < twoTo 53 → hi.value < twoTo 53 → within = true → lo.value ≤ n.value ∧ n.value ≤ hi.value)) ∧
    (∀ m n : Number, ∃ atMost atLeast,
      applied "lte" [.number m, .number n] = .ok (.bool atMost) ∧
      applied "gt" [.number m, .number n] = .ok (.bool !atMost) ∧
      applied "gte" [.number m, .number n] = .ok (.bool atLeast) ∧
      applied "lt" [.number m, .number n] = .ok (.bool !atLeast) ∧
      applied "gt" [.number m, .number n] = applied "lt" [.number n, .number m]) ∧
    (∀ lo hi v : Json, Validator.whole.Accepts lo → Validator.whole.Accepts hi → Validator.whole.Accepts v →
      applied "inrange" [lo, hi, v] = standard.invoke "and" [applied "lte" [lo, v], applied "lte" [v, hi]]) := by
  refine ⟨?_, ?_, ?_, ?_, fun lo hi v => applied_inRange⟩
  · intro a b hab
    have hround := nearest_mono ((mul_unitsPerOne_le_iff a.value b.value).2 hab)
    refine ⟨(applied_comparison_integers .atMost a b).trans ?_, (applied_comparison_integers .atLeast b a).trans ?_,
      (applied_comparison_integers .greater a b).trans ?_, (applied_comparison_integers .less b a).trans ?_⟩ <;>
      simp [Comparison.holds, hround]
  · intro a b hsmall c
    rw [applied_comparison_integers]
    rw [Comparison.holds_congr (nearest_le_nearest_iff hsmall) (nearest_le_nearest_iff hsmall.symm)]
  · intro lo hi n hlo hhi hn
    refine ⟨_, applied_inRange_integers hlo hhi hn, ?_, ?_⟩
    · rintro ⟨hlow, hhigh⟩
      simp [nearest_mono ((mul_unitsPerOne_le_iff _ _).2 hlow), nearest_mono ((mul_unitsPerOne_le_iff _ _).2 hhigh)]
    · intro hlo' hhi' hwithin
      rw [Bool.and_eq_true, decide_eq_true_iff, decide_eq_true_iff,
        nearest_le_nearest_iff (Or.inl (by omega)), nearest_le_nearest_iff (Or.inr (by omega))] at hwithin
      exact hwithin
  · intro m n
    refine ⟨_, _, applied_comparison .atMost m n, (applied_comparison .greater m n).trans ?_,
      applied_comparison .atLeast m n, (applied_comparison .less m n).trans ?_,
      (applied_comparison .greater m n).trans (applied_comparison .less n m).symm⟩ <;>
      simp [Comparison.holds, ← decide_not]

/-- 2⁵³ + 1 rounds to 2⁵³ and is then taken for it, but not for 2⁵³ - 1. -/
theorem order_of_numbers_of_greatest :
    let one : Integer := ⟨1, by decide⟩
    let below : Integer := ⟨9_007_199_254_740_991, by decide⟩
    let even : Integer := ⟨9_007_199_254_740_992, by decide⟩
    let odd : Integer := ⟨9_007_199_254_740_993, by decide⟩
    let greatest : Integer := ⟨18_446_744_073_709_551_615, by decide⟩
    even.value ≤ odd.value ∧
    applied "gt" [.number (.integer even), .number (.integer odd)] = .ok (.bool false) ∧
    applied "gt" [.number (.integer odd), .number (.integer even)] = .ok (.bool false) ∧
    below.value.natAbs < twoTo 53 ∧
    applied "gt" [.number (.integer odd), .number (.integer below)] = .ok (.bool true) ∧
    applied "inrange" [.number (.integer one), .number (.integer below), .number (.integer greatest)] =
      .ok (.bool false) ∧
    applied "inrange" [.number (.integer one), .number (.integer even), .number (.integer odd)] = .ok (.bool true) ∧
    applied "inrange" [.number (.integer one), .number (.integer even), .number (.integer odd)] =
      standard.invoke "and" [applied "lte" [.number (.integer one), .number (.integer odd)],
        applied "lte" [.number (.integer odd), .number (.integer even)]] := by
  intro one below even odd greatest
  obtain ⟨horder, hexact, hrange, -, hboth⟩ := order_of_numbers
  obtain ⟨-, -, heven, -⟩ := horder even odd (by decide)
  obtain ⟨within, hwithin, -, honly⟩ := hrange one below greatest (by decide) (by decide) (by decide)
  have hout : within = false := by
    by_contra h
    have := (honly (by decide) (by decide) (Bool.eq_true_of_not_eq_false h)).2
    exact absurd this (by decide)
  have hsplit := hboth _ _ _ (Validator.accepts_whole_integer (n := one) (by decide))
    (Validator.accepts_whole_integer (n := even) (by decide)) (Validator.accepts_whole_integer (n := odd) (by decide))
  have hround : nearest (odd.value * unitsPerOne) = nearest (even.value * unitsPerOne) := by decide +kernel
  have hcollide : applied "gt" [.number (.integer odd), .number (.integer even)] = .ok (.bool false) := by
    refine (applied_comparison_integers .greater odd even).trans ?_
    simp [Comparison.holds, hround]
  have hwide : applied "inrange" [.number (.integer one), .number (.integer even), .number (.integer odd)] =
      .ok (.bool true) := by
    have hle := nearest_mono ((mul_unitsPerOne_le_iff one.value even.value).2 (by decide))
    rw [applied_inRange_integers (by decide) (by decide) (by decide), hround]
    simp [hle]
  refine ⟨by decide, heven, hcollide, by decide, ?_, ?_, hwide, hsplit⟩
  · exact hexact odd below (.inr (by decide)) .greater
  · rw [hwithin, hout]

end OperatorTable
end Eligibility
