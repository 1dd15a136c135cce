import Eligibility.Decimal.Basic
import Eligibility.Proofs.Binary64.Bounded
/-!
# Decimals as binary64 numbers

A decimal is below 2⁹⁶ and its power of ten below 2⁹⁴, so nothing on the way to a binary64 is near an infinity
(`exists_toReal_eq`).
-/
namespace Eligibility.Decimal

open Binary64 (AtMost AtLeastOne atMost_ofNat atLeastOne_ofNat)

/-- **A power by squaring stays within that of its base.** -/
theorem bounded_power : ∀ (fuel : Nat) {r a : Binary64} {n i j : Nat}, i + 2 * (j * n) < 1024 → AtMost i r →
    AtLeastOne r → AtMost j a → AtLeastOne a →
      AtMost (i + j * n) (magnitudeReal.power fuel r a n) ∧ AtLeastOne (magnitudeReal.power fuel r a n)
  | 0, _, _, _, _, _, _, hr, hrone, _, _ => ⟨hr.mono (Nat.le_add_right _ _), hrone⟩
  | fuel + 1, r, a, n, i, j, hlt, hr, hrone, ha, haone => by
    rw [magnitudeReal.power]
    by_cases hn : n = 0
    · rw [if_pos hn]
      exact ⟨hr.mono (Nat.le_add_right _ _), hrone⟩
    · -- the exponent halves and the base is squared, so what is still to come keeps its bound
      have hj : j ≤ j * n := Nat.le_mul_of_pos_right j (by omega)
      have hhalf : j * n = (j + j) * (n / 2) + j * (n % 2) := by
        conv => lhs; rw [← Nat.div_add_mod n 2, Nat.mul_add, Nat.mul_left_comm]
        rw [← Nat.two_mul, Nat.mul_assoc]
      have hsquare := ha.mul (by omega) ha
      have hsquareone := haone.mul (by omega) haone ha ha
      rw [if_neg hn]
      rcases Nat.mod_two_eq_zero_or_one n with hmod | hmod
      · rw [if_neg (by omega), hhalf, hmod, Nat.mul_zero, Nat.add_zero]
        rw [hmod] at hhalf
        exact bounded_power fuel (by omega) hr hrone hsquare hsquareone
      · have hstep := hr.mul (by omega) ha
        have hstepone := hrone.mul (by omega) haone hr ha
        rw [if_pos hmod, hhalf, hmod, Nat.mul_one, Nat.add_comm _ j, ← Nat.add_assoc]
        rw [hmod] at hhalf
        exact bounded_power fuel (by omega) hstep hstepone hsquare hsquareone

theorem atMost_magnitudeReal (d : Decimal) : AtMost 210 d.magnitudeReal := by
  have hcoefficient : d.coefficient ≤ twoTo 96 := Nat.le_of_lt d.coefficient_lt
  have hplaces := d.places_le
  have hone : tenTo d.places ≤ twoTo 94 := Nat.le_trans (Nat.pow_le_pow_right (by decide) hplaces) (by decide)
  have hmod : d.coefficient % tenTo d.places ≤ twoTo 94 :=
    Nat.le_trans (Nat.le_of_lt (Nat.mod_lt _ (tenTo_pos _))) hone
  have hwhole := atMost_ofNat (by decide : 96 < 1024) (Nat.le_trans (Nat.div_le_self _ (tenTo d.places)) hcoefficient)
  have hfraction := (atMost_ofNat (by decide : 94 < 1024) hmod).div (by decide)
    (atLeastOne_ofNat (by decide) (tenTo_pos d.places) hone)
  obtain ⟨hscale, hscaleone⟩ := bounded_power 100 (r := .ofNat 1) (a := .ofNat 10) (n := d.places) (i := 0) (j := 4)
    (by omega) (atMost_ofNat (by decide) (by decide)) (atLeastOne_ofNat (k := 0) (by decide) (by decide) (by decide))
    (atMost_ofNat (by decide) (by decide)) (atLeastOne_ofNat (k := 4) (by decide) (by decide) (by decide))
  rw [magnitudeReal]
  dsimp only
  split
  · exact (atMost_ofNat (by decide : 96 < 1024) hcoefficient).mono (by decide)
  · split
    · exact hwhole.mono (by decide)
    · have hsum := hwhole.add (by decide) (hfraction.mono (by decide))
      have hscaled := hsum.mul (by decide) (hscale.mono (show 0 + 4 * d.places ≤ 112 by omega))
      exact (hscaled.roundWhole (by decide)).div (by decide) hscaleone

/-- **Every decimal has a finite binary64.** -/
theorem exists_toReal_eq (d : Decimal) : ∃ x, d.toReal = .finite x := by
  obtain ⟨x, hx, -⟩ := atMost_magnitudeReal d
  rw [toReal, hx]
  exact ⟨_, rfl⟩

end Eligibility.Decimal
