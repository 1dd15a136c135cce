import Eligibility.Proofs.Binary64.Order
/-!
# Operations that stay finite

A power of two is a binary64 itself, so rounding does not pass it (`roundUnits_le_twoTo`).  Numbers that are at most a
power of two have sums, products and quotients that are at most another one, and finite as long as that is.
-/
namespace Eligibility
namespace Binary64

theorem roundUnits_twoTo_mul (k : Nat) {den : Nat} (h : 0 < den) : roundUnits (twoTo k * den) den = twoTo k := by
  have hsplit : twoTo k * den = twoTo (k - (k - 52)) * (den * twoTo (k - 52)) := by
    have hk : k - (k - 52) + (k - 52) = k := by omega
    conv => lhs; rw [← hk, twoTo_add]
    rw [Nat.mul_assoc, Nat.mul_comm den]
  have hpos : 0 < den * twoTo (k - 52) := Nat.mul_pos h (twoTo_pos _)
  unfold roundUnits
  dsimp only
  rw [Nat.mul_div_cancel _ h, log2_twoTo, hsplit, nearestEven_mul _ hpos, ← twoTo_add]
  congr 1
  omega

/-- **Rounding does not pass a power of two.** -/
theorem roundUnits_le_twoTo {num den k : Nat} (hden : 0 < den) (h : num ≤ twoTo k * den) :
    roundUnits num den ≤ twoTo k := by
  rw [← roundUnits_twoTo_mul k hden]
  exact roundUnits_mono h den

/-- Finite, and no more than two to a power in magnitude. -/
def AtMost (k : Nat) (t : Binary64) : Prop := ∃ x : Finite, t = .finite x ∧ x.units ≤ twoTo k * unitsPerOne

/-- Finite, and one or more in magnitude. -/
def AtLeastOne (t : Binary64) : Prop := ∃ x : Finite, t = .finite x ∧ unitsPerOne ≤ x.units

theorem atMost_ofRatio {num den k : Nat} (hk : k < 1024) (hden : 0 < den) (h : num ≤ twoTo k * unitsPerOne * den)
    (negative : Bool) : AtMost k (ofRatio negative num den) := by
  have hround : roundUnits num den ≤ twoTo k * unitsPerOne := by
    rw [unitsPerOne, ← twoTo_add] at h ⊢
    exact roundUnits_le_twoTo hden h
  exact ⟨_, ofRatio_of_lt negative (Nat.lt_of_le_of_lt hround (lt_unitLimit hk)), hround⟩

theorem atMost_ofNat {n k : Nat} (hk : k < 1024) (h : n ≤ twoTo k) : AtMost k (ofNat n) :=
  atMost_ofRatio hk Nat.one_pos (by rw [Nat.mul_one]; exact Nat.mul_le_mul_right _ h) false

theorem atLeastOne_ofNat {n k : Nat} (hk : k < 1024) (hpos : 0 < n) (h : n ≤ twoTo k) : AtLeastOne (ofNat n) := by
  obtain ⟨x, hx, -⟩ := atMost_ofNat hk h
  refine ⟨x, hx, ?_⟩
  have hone := roundUnits_mono (Nat.le_mul_of_pos_left unitsPerOne hpos) 1
  have hexact := roundUnits_twoTo_mul unitBits Nat.one_pos
  rw [Nat.mul_one] at hexact
  rw [ofNat, ofRatio] at hx
  split at hx
  · cases hx
    rw [unitsPerOne, hexact] at hone
    exact hone
  · cases hx

variable {j k : Nat} {t u : Binary64}

namespace AtMost

theorem mono (h : j ≤ k) (ht : AtMost j t) : AtMost k t := by
  obtain ⟨x, hx, hle⟩ := ht
  exact ⟨x, hx, Nat.le_trans hle (Nat.mul_le_mul_right _ (twoTo_le h))⟩

theorem add (hk : k + 1 < 1024) (ht : AtMost k t) (hu : AtMost k u) : AtMost (k + 1) (t.add u) := by
  obtain ⟨x, rfl, hx⟩ := ht
  obtain ⟨y, rfl, hy⟩ := hu
  rw [Binary64.add, Finite.add]
  split
  · exact ⟨_, rfl, Nat.zero_le _⟩
  · have htriangle := Int.natAbs_add_le x.toInt y.toInt
    rw [Finite.natAbs_toInt, Finite.natAbs_toInt] at htriangle
    refine atMost_ofRatio hk Nat.one_pos ?_ _
    rw [twoTo_succ, Nat.mul_one, Nat.mul_right_comm]
    omega

theorem mul (hk : j + k < 1024) (ht : AtMost j t) (hu : AtMost k u) : AtMost (j + k) (t.mul u) := by
  obtain ⟨x, rfl, hx⟩ := ht
  obtain ⟨y, rfl, hy⟩ := hu
  rw [Binary64.mul, Finite.mul]
  refine atMost_ofRatio hk unitsPerOne_pos ?_ _
  calc x.units * y.units ≤ twoTo j * unitsPerOne * (twoTo k * unitsPerOne) := Nat.mul_le_mul hx hy
    _ = twoTo (j + k) * unitsPerOne * unitsPerOne := by rw [twoTo_add]; simp only [Nat.mul_assoc, Nat.mul_left_comm]

theorem div (hk : k < 1024) (ht : AtMost k t) (hu : AtLeastOne u) : AtMost k (t.div u) := by
  obtain ⟨x, rfl, hx⟩ := ht
  obtain ⟨y, rfl, hy⟩ := hu
  have hpos : 0 < y.units := Nat.lt_of_lt_of_le unitsPerOne_pos hy
  rw [Binary64.div, Finite.div, if_neg (by omega)]
  exact atMost_ofRatio hk hpos (Nat.mul_le_mul hx hy) _

theorem roundWhole (hk : k + 1 < 1024) (ht : AtMost k t) : AtMost (k + 1) t.roundWhole := by
  obtain ⟨x, rfl, hx⟩ := ht
  rw [Binary64.roundWhole, Finite.roundWhole]
  refine atMost_ofRatio hk Nat.one_pos ?_ _
  have hone : unitsPerOne ≤ twoTo k * unitsPerOne := Nat.le_mul_of_pos_left _ (twoTo_pos k)
  have hround := Nat.div_mul_le_self (2 * x.units + unitsPerOne) (2 * unitsPerOne)
  rw [Nat.mul_left_comm] at hround
  rw [twoTo_succ, Nat.mul_one, Nat.mul_right_comm]
  omega

end AtMost

theorem AtLeastOne.mul (hk : j + k < 1024) (ht : AtLeastOne t) (hu : AtLeastOne u) (htj : AtMost j t)
    (huk : AtMost k u) : AtLeastOne (t.mul u) := by
  obtain ⟨x, rfl, hx⟩ := ht
  obtain ⟨y, rfl, hy⟩ := hu
  obtain ⟨z, hz, -⟩ := htj.mul hk huk
  refine ⟨z, hz, ?_⟩
  have hround := roundUnits_mono (Nat.mul_le_mul hx hy) unitsPerOne
  rw [unitsPerOne, roundUnits_twoTo_mul unitBits (twoTo_pos _), ← unitsPerOne] at hround
  rw [Binary64.mul, Finite.mul, ofRatio] at hz
  split at hz
  · cases hz
    exact hround
  · cases hz

end Binary64
end Eligibility
