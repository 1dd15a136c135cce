import Eligibility.Power
/-!
# Rounding to 53 significant bits

Magnitudes are counted in units of 2⁻¹⁰⁷⁴, the least positive binary64.  A count of units is the magnitude of a
finite binary64 exactly when it has at most 53 significant bits and is below 2¹⁰²⁴ (`Representable`).  `roundUnits`
takes a ratio to the nearest such count, a tie going to the even neighbour, as if the exponent had no upper bound;
`roundUnits_dvd` says that its result has at most 53 significant bits.
-/

namespace Eligibility.Binary64

/-- A unit is two to the power of minus this. -/
@[irreducible] def unitBits : Nat := 1074

/-- How many units make one. -/
def unitsPerOne : Nat := twoTo unitBits

/-- The first count of units that is too large, 2¹⁰²⁴. -/
def unitLimit : Nat := twoTo (unitBits + 1024)

theorem unitsPerOne_pos : 0 < unitsPerOne := twoTo_pos _

theorem lt_unitLimit {k : Nat} (h : k < 1024) : twoTo k * unitsPerOne < unitLimit := by
  unfold unitsPerOne unitLimit
  rw [← twoTo_add]
  exact twoTo_lt (by omega)

/-- **At most 53 significant bits, and below 2¹⁰²⁴.** -/
def Representable (units : Nat) : Prop := twoTo (units.log2 - 52) ∣ units ∧ units < unitLimit

instance (units : Nat) : Decidable (Representable units) := by unfold Representable; infer_instance

/-- The whole number nearest to `num / den`; a half goes to the even neighbour. -/
def nearestEven (num den : Nat) : Nat :=
  let q := num / den
  let r := num % den
  if 2 * r < den then q else if den < 2 * r then q + 1 else q + q % 2

/-- The count of at most 53 significant bits that is nearest to `num / den`. -/
def roundUnits (num den : Nat) : Nat :=
  let shift := (num / den).log2 - 52
  nearestEven num (den * twoTo shift) * twoTo shift

theorem le_nearestEven (num den : Nat) : num / den ≤ nearestEven num den := by
  unfold nearestEven
  dsimp only
  split
  · exact Nat.le_refl _
  · split <;> omega

theorem nearestEven_le (num den : Nat) : nearestEven num den ≤ num / den + 1 := by
  unfold nearestEven
  dsimp only
  split
  · omega
  · split <;> omega

/-- A multiple of the denominator is its own nearest whole number. -/
theorem nearestEven_mul (n : Nat) {den : Nat} (h : 0 < den) : nearestEven (n * den) den = n := by
  unfold nearestEven
  simp [Nat.mul_div_cancel _ h, h]

theorem quotient_lt (num den : Nat) :
    num / (den * twoTo ((num / den).log2 - 52)) < twoTo 53 := by
  rw [← Nat.div_div_eq_div_mul, Nat.div_lt_iff_lt_mul (twoTo_pos _), ← twoTo_add]
  exact Nat.lt_of_lt_of_le (lt_twoTo_log2 _) (twoTo_le (by omega))

/-- A multiple of 2ᵏ that is at most 2⁵³⁺ᵏ has at most 53 significant bits. -/
theorem dvd_of_le_twoTo {m k : Nat} (h : m ≤ twoTo 53) : twoTo ((m * twoTo k).log2 - 52) ∣ m * twoTo k := by
  by_cases hm : m = twoTo 53
  · subst hm
    rw [← twoTo_add, log2_twoTo]
    exact twoTo_dvd (by omega)
  · have hlt : m * twoTo k < twoTo (53 + k) := by
      rw [twoTo_add]
      exact Nat.mul_lt_mul_of_pos_right (by omega) (twoTo_pos k)
    by_cases h0 : m * twoTo k = 0
    · rw [h0]; exact Nat.dvd_zero _
    · have := log2_lt_of_lt_twoTo h0 hlt
      exact Nat.dvd_trans (twoTo_dvd (by omega)) (Nat.dvd_mul_left _ _)

/-- **The result of rounding has at most 53 significant bits.** -/
theorem roundUnits_dvd (num den : Nat) :
    twoTo ((roundUnits num den).log2 - 52) ∣ roundUnits num den := by
  unfold roundUnits
  dsimp only
  refine dvd_of_le_twoTo (Nat.le_trans (nearestEven_le _ _) ?_)
  exact quotient_lt num den

/-- Rounding at most doubles a whole number. -/
theorem roundUnits_one_le (n : Nat) : roundUnits n 1 ≤ 2 * n := by
  unfold roundUnits
  simp only [Nat.div_one, Nat.one_mul]
  have h1 := nearestEven_le n (twoTo (n.log2 - 52))
  by_cases hs : n.log2 - 52 = 0
  · rw [hs] at h1 ⊢
    simp only [twoTo_zero, Nat.div_one, Nat.mul_one] at h1 ⊢
    have h2 : nearestEven n 1 = n := by simpa using @nearestEven_mul n 1 (by omega)
    omega
  · have hn : n ≠ 0 := by
      intro h; rw [h] at hs; simp at hs
    have h2 : twoTo (n.log2 - 52) ≤ n := Nat.le_trans (twoTo_le (by omega)) (twoTo_log2_le hn)
    calc nearestEven n (twoTo (n.log2 - 52)) * twoTo (n.log2 - 52)
        ≤ (n / twoTo (n.log2 - 52) + 1) * twoTo (n.log2 - 52) := Nat.mul_le_mul_right _ h1
      _ = n / twoTo (n.log2 - 52) * twoTo (n.log2 - 52) + twoTo (n.log2 - 52) := by rw [Nat.add_mul, Nat.one_mul]
      _ ≤ n + n := Nat.add_le_add (Nat.div_mul_le_self _ _) h2
      _ = 2 * n := by omega

end Eligibility.Binary64
