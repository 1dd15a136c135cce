import Eligibility.Json.Basic
import Eligibility.Proofs.Binary64.Order
import Mathlib.Algebra.Order.Field.Rat
import Mathlib.Algebra.Order.Ring.Cast
import Mathlib.Data.Int.Cast.Lemmas
/-!
# Numbers as binary64

An integer is seen as the binary64 nearest to it (`toInt_toFinite`), which is the integer itself up to 2⁵³.  Of any
number it shows the sign, and whether the number is whole (`nonneg_value_iff`, `exists_value_eq_iff`).  Below 10¹⁵ a
whole number is written as an integer and is that number when it is read again (`asReal_of_ofBinary64?`).
-/
namespace Eligibility
namespace Json

open Binary64 (Finite dvd_nearest isWhole_iff le_nearest_iff nearest nearest_le_iff nearest_mul_unitsPerOne toInt_ofWord
  unitsPerOne unitsPerOne_pos)

theorem toInt_toFinite (n : Integer) : (Number.integer n).toFinite.toInt = nearest (n.value * unitsPerOne) :=
  toInt_ofWord n.value n.natAbs_le

theorem toInt_toFinite_of_lt {n : Integer} (h : 0 ≤ n.value ∧ n.value < twoTo 53) :
    (Number.integer n).toFinite.toInt = n.value * unitsPerOne := by
  rw [toInt_toFinite, nearest_mul_unitsPerOne (by omega)]

/-- **The value of a number**; an integer is not rounded. -/
def Number.value : Number → ℚ
  | .integer n => n.value
  | .real x => x.toInt / unitsPerOne

theorem Number.value_real_eq_iff (x : Finite) (z : ℤ) : (real x).value = z ↔ x.toInt = z * unitsPerOne := by
  have hpos : (unitsPerOne : ℚ) ≠ 0 := Nat.cast_ne_zero.2 (Nat.ne_of_gt unitsPerOne_pos)
  rw [value, div_eq_iff hpos]
  exact_mod_cast Iff.rfl

theorem Number.value_real_inj {x y : Finite} : (real x).value = (real y).value ↔ x.toInt = y.toInt := by
  have hpos : (unitsPerOne : ℚ) ≠ 0 := Nat.cast_ne_zero.2 (Nat.ne_of_gt unitsPerOne_pos)
  rw [value, value, div_left_inj' hpos, Int.cast_inj]

theorem nonneg_value_iff (n : Number) : 0 ≤ n.value ↔ 0 ≤ n.toFinite.toInt := by
  cases n with
  | integer n =>
    have hsign := le_nearest_iff (show Int.natAbs 0 < twoTo 53 by decide) n.value
    rw [Int.zero_mul] at hsign
    rw [Number.value, toInt_toFinite, hsign, Int.cast_nonneg_iff]
  | real x =>
    have hpos : (0 : ℚ) < unitsPerOne := Nat.cast_pos.2 unitsPerOne_pos
    rw [Number.value, le_div_iff₀ hpos, zero_mul, Int.cast_nonneg_iff]
    rfl

theorem value_nonpos_iff (n : Number) : n.value ≤ 0 ↔ n.toFinite.toInt ≤ 0 := by
  cases n with
  | integer n =>
    have hsign := nearest_le_iff (show Int.natAbs 0 < twoTo 53 by decide) n.value
    rw [Int.zero_mul] at hsign
    rw [Number.value, toInt_toFinite, hsign, Int.cast_nonpos]
  | real x =>
    have hpos : (0 : ℚ) < unitsPerOne := Nat.cast_pos.2 unitsPerOne_pos
    rw [Number.value, div_le_iff₀ hpos, zero_mul, Int.cast_nonpos]
    rfl

/-- **A number is whole if the binary64 nearest to it is**, beyond 2⁵³ as well. -/
theorem exists_value_eq_iff (n : Number) : (∃ z : Int, n.value = z) ↔ n.toFinite.isWhole = true := by
  rw [isWhole_iff]
  cases n with
  | integer n =>
    rw [toInt_toFinite]
    exact iff_of_true ⟨n.value, rfl⟩ (dvd_nearest (Int.dvd_mul_left _ _))
  | real x =>
    constructor
    · rintro ⟨z, hz⟩
      exact ⟨z, ((Number.value_real_eq_iff x z).1 hz).trans (Int.mul_comm _ _)⟩
    · rintro ⟨z, hz⟩
      exact ⟨z, (Number.value_real_eq_iff x z).2 (hz.trans (Int.mul_comm _ _))⟩

theorem integral_mul {x : Finite} (h : isIntegral x = true) : (integral x h).value * unitsPerOne = x.toInt := by
  have hwhole : x.units % unitsPerOne = 0 := by
    rw [isIntegral, Bool.and_eq_true] at h
    exact of_decide_eq_true h.1
  have hunits : (x.wholePart : Int) * unitsPerOne = x.units := by
    rw [← Int.natCast_mul, Finite.wholePart, Nat.div_mul_cancel (Nat.dvd_of_mod_eq_zero hwhole)]
  rw [integral, Finite.toInt]
  dsimp only
  split
  · rw [Int.neg_mul, hunits]
  · exact hunits

theorem isNull_of_asReal {v : Json} {x : Finite} (h : v.asReal = some x) : v.isNull = false := by
  cases v with
  | null => cases h
  | bool _ | number _ | string _ | array _ | object _ => rfl

/-- **The normal form of a number has its value.** -/
theorem asReal_of_ofBinary64? {x : Finite} {v : Json} (h : ofBinary64? (.finite x) = some v) :
    ∃ y, v.asReal = some y ∧ y.toInt = x.toInt := by
  rw [ofBinary64?] at h
  split at h
  · rename_i hi
    cases h
    refine ⟨_, rfl, ?_⟩
    have hlt : (integral x hi).value.natAbs < 1_000_000_000_000_000 := by
      have hpart := wholePart_lt hi
      rw [integral]
      dsimp only
      split <;> omega
    -- the integer is a binary64 itself, so that nothing is rounded when it is read again
    have hsmall : (integral x hi).value.natAbs ≤ twoTo 53 :=
      Nat.le_of_lt (Nat.lt_of_lt_of_le hlt (by decide))
    rw [toInt_toFinite, nearest_mul_unitsPerOne hsmall, integral_mul hi]
  · cases h
    exact ⟨x, rfl, rfl⟩

end Json
end Eligibility
