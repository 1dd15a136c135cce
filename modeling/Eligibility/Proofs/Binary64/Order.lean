import Eligibility.Binary64.Basic
/-!
# Rounding keeps order

Rounding to 53 significant bits is monotone (`roundUnits_mono`), leaves a count that has no more as it is
(`roundUnits_of_dvd`) and keeps multiples of powers of two (`dvd_roundUnits`).  `nearest` is rounding on whole numbers
of units with their sign: the value of a sum is the nearest to the sum of the values (`toInt_add`), and a whole number
compares with numbers below 2⁵³ as what is nearest to it does (`le_nearest_iff`, `nearest_le_iff`).
-/
namespace Eligibility
namespace Binary64

theorem nearestEven_mono {a b : Nat} (h : a ≤ b) (den : Nat) : nearestEven a den ≤ nearestEven b den := by
  by_cases hq : a / den < b / den
  · exact Nat.le_trans (nearestEven_le a den) (Nat.le_trans hq (le_nearestEven b den))
  · have hle : a / den ≤ b / den := Nat.div_le_div_right h
    have heq : a / den = b / den := by omega
    have ha := Nat.div_add_mod a den
    have hb := Nat.div_add_mod b den
    have hr : a % den ≤ b % den := by
      rw [heq] at ha
      omega
    unfold nearestEven
    rw [heq]
    dsimp only
    split
    · split
      · exact Nat.le_refl _
      · split <;> omega
    · split
      · exact Nat.le_of_eq (by rw [if_neg (by omega), if_pos (by omega)])
      · rw [if_neg (by omega)]
        split <;> omega

theorem roundUnits_le (num den : Nat) : roundUnits num den ≤ twoTo (53 + ((num / den).log2 - 52)) := by
  unfold roundUnits
  rw [twoTo_add]
  exact Nat.mul_le_mul_right _ (Nat.le_trans (nearestEven_le _ _) (quotient_lt num den))

theorem le_roundUnits {num den : Nat} (h : 0 < (num / den).log2 - 52) :
    twoTo (52 + ((num / den).log2 - 52)) ≤ roundUnits num den := by
  have hlog : 52 + ((num / den).log2 - 52) = (num / den).log2 := by omega
  have hne : num / den ≠ 0 := by
    intro h0
    rw [h0] at h
    exact absurd h (by decide)
  have hquot : twoTo 52 ≤ num / (den * twoTo ((num / den).log2 - 52)) := by
    rw [← Nat.div_div_eq_div_mul, Nat.le_div_iff_mul_le (twoTo_pos _), ← twoTo_add, hlog]
    exact twoTo_log2_le hne
  unfold roundUnits
  rw [twoTo_add]
  exact Nat.mul_le_mul_right _ (Nat.le_trans hquot (le_nearestEven _ _))

theorem log2_mono {m n : Nat} (h : m ≤ n) : m.log2 ≤ n.log2 := by
  by_cases hm : m = 0
  · rw [hm, Nat.log2_zero]
    exact Nat.zero_le _
  · rw [Nat.le_log2 (by omega)]
    exact Nat.le_trans (Nat.log2_self_le hm) h

/-- **Rounding is monotone.** -/
theorem roundUnits_mono {a b : Nat} (h : a ≤ b) (den : Nat) : roundUnits a den ≤ roundUnits b den := by
  have hshift : (a / den).log2 - 52 ≤ (b / den).log2 - 52 :=
    Nat.sub_le_sub_right (log2_mono (Nat.div_le_div_right h)) 52
  by_cases heq : (a / den).log2 - 52 = (b / den).log2 - 52
  · unfold roundUnits
    rw [heq]
    exact Nat.mul_le_mul_right _ (nearestEven_mono h _)
  · -- one binade apart, the greatest count of the lower is the least of the next
    exact Nat.le_trans (roundUnits_le a den) (Nat.le_trans (twoTo_le (by omega)) (le_roundUnits (by omega)))

/-- **A count of at most 53 significant bits is not changed.** -/
theorem roundUnits_of_dvd {n : Nat} (h : twoTo (n.log2 - 52) ∣ n) : roundUnits n 1 = n := by
  obtain ⟨k, hk⟩ := h
  unfold roundUnits
  dsimp only
  rw [Nat.div_one, Nat.one_mul]
  generalize twoTo (n.log2 - 52) = t at hk ⊢
  by_cases ht : 0 < t
  · rw [hk, Nat.mul_comm t k, nearestEven_mul k ht]
  · have h0 : t = 0 := by omega
    rw [hk, h0, Nat.mul_zero, Nat.zero_mul]

theorem dvd_roundUnits {n k : Nat} (h : twoTo k ∣ n) : twoTo k ∣ roundUnits n 1 := by
  by_cases hk : n.log2 - 52 ≤ k
  · rw [roundUnits_of_dvd (Nat.dvd_trans (twoTo_dvd hk) h)]
    exact h
  · unfold roundUnits
    dsimp only
    rw [Nat.div_one]
    exact Nat.dvd_trans (twoTo_dvd (by omega)) (Nat.dvd_mul_left _ _)

theorem roundUnits_zero : roundUnits 0 1 = 0 := roundUnits_of_dvd (Nat.dvd_zero _)

/-- **The value of at most 53 significant bits that is nearest to a value**, both in units. -/
def nearest (n : Int) : Int := if n < 0 then -(roundUnits n.natAbs 1 : Int) else roundUnits n.natAbs 1

theorem nearest_of_nonneg {n : Int} (h : 0 ≤ n) : nearest n = roundUnits n.natAbs 1 := by
  rw [nearest, if_neg (by omega)]

theorem nearest_nonneg {n : Int} (h : 0 ≤ n) : 0 ≤ nearest n := by
  rw [nearest_of_nonneg h]
  exact Int.natCast_nonneg _

theorem nearest_mono {m n : Int} (h : m ≤ n) : nearest m ≤ nearest n := by
  unfold nearest
  by_cases hm : m < 0
  · rw [if_pos hm]
    by_cases hn : n < 0
    · rw [if_pos hn]
      have hround := roundUnits_mono (show n.natAbs ≤ m.natAbs by omega) 1
      omega
    · rw [if_neg hn]
      omega
  · rw [if_neg hm, if_neg (by omega)]
    have hround := roundUnits_mono (show m.natAbs ≤ n.natAbs by omega) 1
    omega

theorem nearest_of_dvd {n : Int} (h : twoTo (n.natAbs.log2 - 52) ∣ n.natAbs) : nearest n = n := by
  rw [nearest, roundUnits_of_dvd h]
  split <;> omega

theorem dvd_nearest {n : Int} {k : Nat} (h : (twoTo k : Int) ∣ n) : (twoTo k : Int) ∣ nearest n := by
  have habs : twoTo k ∣ n.natAbs := Int.natCast_dvd_natCast.1 (Int.dvd_natAbs.2 h)
  have hround : (twoTo k : Int) ∣ (roundUnits n.natAbs 1 : Int) := Int.natCast_dvd_natCast.2 (dvd_roundUnits habs)
  unfold nearest
  split
  · exact Int.dvd_neg.2 hround
  · exact hround

/-- **A whole number of up to 53 bits is not changed.** -/
theorem nearest_mul_unitsPerOne {n : Int} (h : n.natAbs ≤ twoTo 53) : nearest (n * unitsPerOne) = n * unitsPerOne := by
  apply nearest_of_dvd
  rw [Int.natAbs_mul, Int.natAbs_natCast]
  exact dvd_of_le_twoTo h

theorem mul_unitsPerOne_le_iff (a b : Int) : a * unitsPerOne ≤ b * unitsPerOne ↔ a ≤ b := by
  have hpos : (0 : Int) < unitsPerOne := Int.natCast_pos.2 unitsPerOne_pos
  exact ⟨fun h => Int.le_of_mul_le_mul_right h hpos, fun h => Int.mul_le_mul_of_nonneg_right h (by omega)⟩

/-- **A whole number that is rounded keeps its order** to whole numbers below 2⁵³. -/
theorem le_nearest_iff {c : Int} (hc : c.natAbs < twoTo 53) (n : Int) :
    c * unitsPerOne ≤ nearest (n * unitsPerOne) ↔ c ≤ n := by
  constructor
  · intro h
    refine Int.not_lt.1 fun hlt => ?_
    have hexact : nearest ((c - 1) * unitsPerOne) = (c - 1) * unitsPerOne := nearest_mul_unitsPerOne (by omega)
    have hle := nearest_mono ((mul_unitsPerOne_le_iff n (c - 1)).2 (by omega))
    rw [hexact] at hle
    have hprev := (mul_unitsPerOne_le_iff c (c - 1)).1 (Int.le_trans h hle)
    omega
  · intro h
    rw [← nearest_mul_unitsPerOne (Nat.le_of_lt hc)]
    exact nearest_mono ((mul_unitsPerOne_le_iff c n).2 h)

theorem nearest_le_iff {c : Int} (hc : c.natAbs < twoTo 53) (n : Int) :
    nearest (n * unitsPerOne) ≤ c * unitsPerOne ↔ n ≤ c := by
  constructor
  · intro h
    refine Int.not_lt.1 fun hlt => ?_
    have hexact : nearest ((c + 1) * unitsPerOne) = (c + 1) * unitsPerOne := nearest_mul_unitsPerOne (by omega)
    have hle := nearest_mono ((mul_unitsPerOne_le_iff (c + 1) n).2 (by omega))
    rw [hexact] at hle
    have hnext := (mul_unitsPerOne_le_iff (c + 1) c).1 (Int.le_trans hle h)
    omega
  · intro h
    rw [← nearest_mul_unitsPerOne (Nat.le_of_lt hc)]
    exact nearest_mono ((mul_unitsPerOne_le_iff n c).2 h)

/-- **Rounding keeps the order of whole numbers** if one of them is below 2⁵³ in magnitude. -/
theorem nearest_le_nearest_iff {m n : Int} (h : m.natAbs < twoTo 53 ∨ n.natAbs < twoTo 53) :
    nearest (m * unitsPerOne) ≤ nearest (n * unitsPerOne) ↔ m ≤ n := by
  rcases h with hm | hn
  · rw [nearest_mul_unitsPerOne (Nat.le_of_lt hm), le_nearest_iff hm]
  · rw [nearest_mul_unitsPerOne (Nat.le_of_lt hn), nearest_le_iff hn]

theorem ofRatio_of_lt (negative : Bool) {num den : Nat} (h : roundUnits num den < unitLimit) :
    ofRatio negative num den = .finite ⟨negative, roundUnits num den, roundUnits_dvd num den, h⟩ := dif_pos h

theorem toInt_of_ofRatio {n : Int} {x : Finite} (h : ofRatio (n < 0) n.natAbs 1 = .finite x) :
    x.toInt = nearest n := by
  unfold ofRatio at h
  split at h
  · cases h
    rw [Finite.toInt, nearest]
    by_cases hn : n < 0
    · rw [if_pos (decide_eq_true hn), if_pos hn]
    · rw [if_neg (by rw [decide_eq_true_iff]; exact hn), if_neg hn]
  · cases h

/-- **A sum that is finite has the value nearest to the sum of the values.** -/
theorem toInt_add {x y z : Finite} (h : x.add y = .finite z) : z.toInt = nearest (x.toInt + y.toInt) := by
  unfold Finite.add at h
  dsimp only at h
  split at h
  · rename_i h0
    cases h
    rw [h0, Finite.toInt_zero, nearest_of_nonneg (Int.le_refl 0), Int.natAbs_zero, roundUnits_zero]
    rfl
  · exact toInt_of_ofRatio h

/-- A sum is finite if the value nearest to it is below the limit. -/
theorem exists_add_eq {x y : Finite} (h : (nearest (x.toInt + y.toInt)).natAbs < unitLimit) :
    ∃ z, x.add y = .finite z := by
  have hround : (nearest (x.toInt + y.toInt)).natAbs = roundUnits (x.toInt + y.toInt).natAbs 1 := by
    unfold nearest
    split <;> omega
  rw [hround] at h
  unfold Finite.add
  dsimp only
  split
  · exact ⟨_, rfl⟩
  · exact ⟨_, ofRatio_of_lt (x.toInt + y.toInt < 0) h⟩

/-- **A whole number of 64 bits has the value nearest to it.** -/
theorem toInt_ofWord (n : Int) (h : n.natAbs ≤ 18_446_744_073_709_551_616) :
    (Finite.ofWord (n < 0) n.natAbs h).toInt = nearest (n * unitsPerOne) := by
  have habs : (n * (unitsPerOne : Int)).natAbs = n.natAbs * unitsPerOne := by rw [Int.natAbs_mul, Int.natAbs_natCast]
  have hpos : (0 : Int) < unitsPerOne := Int.natCast_pos.2 unitsPerOne_pos
  rw [Finite.ofWord, Finite.toInt, nearest, habs]
  by_cases hn : n < 0
  · rw [if_pos (decide_eq_true hn), if_pos (Int.mul_neg_of_neg_of_pos hn hpos)]
  · have hnonneg : 0 ≤ n * (unitsPerOne : Int) := Int.mul_nonneg (by omega) (by omega)
    rw [if_neg (by rw [decide_eq_true_iff]; exact hn), if_neg (by omega)]

theorem isWhole_iff (x : Finite) : x.isWhole = true ↔ (unitsPerOne : Int) ∣ x.toInt := by
  rw [Finite.isWhole, decide_eq_true_iff, ← Int.dvd_natAbs, Int.natCast_dvd_natCast, Finite.natAbs_toInt]
  exact ⟨Nat.dvd_of_mod_eq_zero, Nat.mod_eq_zero_of_dvd⟩

end Binary64
end Eligibility
