import Eligibility.Proofs.Binary64.Order
/-!
# Counting with binary64 numbers

A sum of whole numbers may round from 2⁵³ on.  `Counts x n` says what stays true of such a sum: it is whole, and as far
as numbers below 2⁵³ can tell it is `n` (`Counts.le_iff`, `Counts.ge_iff`).  It never leaves the finite numbers:
once it is 2¹¹⁸, a further number of 64 bits rounds away.
-/
namespace Eligibility
namespace Binary64

/-- Up to this many units every whole number is a binary64: 2⁵³. -/
def exactLimit : Int := twoTo 53 * unitsPerOne

/-- A sum of numbers of 64 bits gets no larger than this many units: 2¹¹⁸. -/
def countLimit : Int := twoTo 118 * unitsPerOne

/-- **A number that is `n`** as far as numbers below 2⁵³ can tell. -/
structure Counts (x : Finite) (n : Nat) : Prop where
  whole : (unitsPerOne : Int) ∣ x.toInt
  agrees : min x.toInt exactLimit = min ((n : Int) * unitsPerOne) exactLimit
  le_limit : x.toInt ≤ countLimit

theorem nearest_exactLimit : nearest exactLimit = exactLimit := nearest_mul_unitsPerOne (by decide)

/-- **Rounding a whole number is not seen below 2⁵³.** -/
theorem min_nearest {t : Int} (h0 : 0 ≤ t) (hd : (unitsPerOne : Int) ∣ t) :
    min (nearest t) exactLimit = min t exactLimit := by
  by_cases ht : t ≤ exactLimit
  · obtain ⟨k, rfl⟩ := hd
    have hpos : (0 : Int) < unitsPerOne := Int.natCast_pos.2 unitsPerOne_pos
    have hk0 : 0 ≤ k := by
      rcases Int.lt_or_le k 0 with hk | hk
      · have := Int.mul_neg_of_pos_of_neg hpos hk
        omega
      · exact hk
    have hk : k ≤ twoTo 53 := by
      rw [exactLimit, Int.mul_comm] at ht
      exact Int.le_of_mul_le_mul_right ht hpos
    rw [Int.mul_comm, nearest_mul_unitsPerOne (by omega)]
  · have hle := nearest_mono (show exactLimit ≤ t by omega)
    rw [nearest_exactLimit] at hle
    omega

theorem nearest_le_countLimit {t : Int} (h : t ≤ countLimit + twoTo 64 * unitsPerOne) : nearest t ≤ countLimit := by
  have htop : nearest (countLimit + twoTo 64 * unitsPerOne) = countLimit := by decide +kernel
  rw [← htop]
  exact nearest_mono h

theorem countLimit_lt : countLimit < unitLimit := by
  have h := lt_unitLimit (show 118 < 1024 by decide)
  rw [countLimit]
  exact_mod_cast h

/-- What rounds to a number of the value nearest to a whole number counts that number. -/
theorem counts_of_toInt {x : Finite} {t : Int} {n : Nat} (h0 : 0 ≤ t) (hd : (unitsPerOne : Int) ∣ t)
    (ht : t ≤ countLimit + twoTo 64 * unitsPerOne) (hn : min t exactLimit = min ((n : Int) * unitsPerOne) exactLimit)
    (hx : x.toInt = nearest t) : Counts x n where
  whole := by
    rw [hx]
    exact dvd_nearest hd
  agrees := by
    rw [hx, min_nearest h0 hd, hn]
  le_limit := by
    rw [hx]
    exact nearest_le_countLimit ht

theorem Counts.congr {x y : Finite} {n : Nat} (h : Counts x n) (hxy : y.toInt = x.toInt) : Counts y n where
  whole := hxy ▸ h.whole
  agrees := hxy ▸ h.agrees
  le_limit := hxy ▸ h.le_limit

theorem Counts.nonneg {x : Finite} {n : Nat} (h : Counts x n) : 0 ≤ x.toInt := by
  have hagrees := h.agrees
  have hn : 0 ≤ (n : Int) * unitsPerOne := Int.mul_nonneg (Int.natCast_nonneg n) (Int.natCast_nonneg _)
  have hlim : (0 : Int) < exactLimit := by decide +kernel
  omega

theorem counts_zero : Counts (Finite.zero false) 0 where
  whole := by
    rw [Finite.toInt_zero]
    exact Int.dvd_zero _
  agrees := by rw [Finite.toInt_zero, Int.natCast_zero, Int.zero_mul]
  le_limit := by
    rw [Finite.toInt_zero]
    decide +kernel

theorem min_add_eq {a b c d limit : Int} (ha : 0 ≤ a) (hc : 0 ≤ c) (hd : 0 ≤ d)
    (hac : min a limit = min c limit) (hbd : min b limit = min d limit) :
    min (a + b) limit = min (c + d) limit := by omega

/-- **A sum of what counts `m` and a number of 64 bits that counts `n` counts `m + n`.** -/
theorem Counts.add {x y : Finite} {m n : Nat} (hx : Counts x m) (hy : Counts y n)
    (hword : y.toInt ≤ twoTo 64 * unitsPerOne) : ∃ z, x.add y = .finite z ∧ Counts z (m + n) := by
  have hx0 := hx.nonneg
  have hy0 := hy.nonneg
  have hxl := hx.le_limit
  have hsum : x.toInt + y.toInt ≤ countLimit + twoTo 64 * unitsPerOne := by omega
  -- at its limit a total takes no further number of 64 bits: the sum rounds back, and stays finite
  have hnear := nearest_le_countLimit hsum
  have hnear0 := nearest_nonneg (show 0 ≤ x.toInt + y.toInt by omega)
  obtain ⟨z, hz⟩ := exists_add_eq (x := x) (y := y) (by have := countLimit_lt; omega)
  refine ⟨z, hz, counts_of_toInt (by omega) (Int.dvd_add hx.whole hy.whole) hsum ?_ (toInt_add hz)⟩
  have hm : 0 ≤ (m : Int) * unitsPerOne := Int.mul_nonneg (Int.natCast_nonneg m) (Int.natCast_nonneg _)
  have hn : 0 ≤ (n : Int) * unitsPerOne := Int.mul_nonneg (Int.natCast_nonneg n) (Int.natCast_nonneg _)
  rw [Int.natCast_add, Int.add_mul]
  exact min_add_eq hx0 hm hn hx.agrees hy.agrees

/-- **Numbers below 2⁵³ compare with what counts `n` as they compare with `n`.** -/
theorem Counts.ge_iff {x : Finite} {n : Nat} (h : Counts x n) {c : Int} (hc : c < twoTo 53) :
    c * unitsPerOne ≤ x.toInt ↔ c ≤ n := by
  have hlim : ¬ exactLimit ≤ c * unitsPerOne := by
    rw [exactLimit, mul_unitsPerOne_le_iff]
    omega
  have hagrees := h.agrees
  rw [← mul_unitsPerOne_le_iff c n]
  omega

theorem Counts.le_iff {x : Finite} {n : Nat} (h : Counts x n) {c : Int} (hc : c < twoTo 53) :
    x.toInt ≤ c * unitsPerOne ↔ (n : Int) ≤ c := by
  have hlim : ¬ exactLimit ≤ c * unitsPerOne := by
    rw [exactLimit, mul_unitsPerOne_le_iff]
    omega
  have hagrees := h.agrees
  rw [← mul_unitsPerOne_le_iff n c]
  omega

end Binary64
end Eligibility
