import Eligibility.Json.Printer
import Eligibility.Proofs.Binary64.Value
import Eligibility.Proofs.Json.Number
/-!
# Normal numbers

A number is `Normal` if it is an integer exactly where its value is a whole number below 10¹⁵.  Normal numbers of one
value are equal (`eq_of_normal`) and every binary64 has the value of one (`exists_normal`), so its normal form is the
one normal number of its value (`ofBinary64?_eq_some_iff`).  Reading it as a binary64 again or writing it into a message
shows nothing but that value (`normalForm_of_numbers`).
-/
namespace Eligibility
namespace Json

open Binary64 (Finite SameValue unitsPerOne_pos)

namespace Number

/-- Whether the value is a whole number below 10¹⁵ in magnitude. -/
def Integral (n : Number) : Prop := ∃ z : ℤ, n.value = z ∧ z.natAbs < 10 ^ 15

/-- **An integer exactly where the value is integral.** -/
def Normal (n : Number) : Prop := (∃ i, n = .integer i) ↔ n.Integral

theorem integral_congr {m n : Number} (h : m.value = n.value) : m.Integral ↔ n.Integral := by
  unfold Integral
  rw [h]

theorem integral_iff_of_value {n : Number} {z : ℤ} (h : n.value = z) : n.Integral ↔ z.natAbs < 10 ^ 15 := by
  constructor
  · rintro ⟨w, hw, hlt⟩
    obtain rfl : z = w := Int.cast_injective (h.symm.trans hw)
    exact hlt
  · exact fun hlt => ⟨z, h, hlt⟩

theorem integral_real_iff (x : Finite) : (real x).Integral ↔ isIntegral x = true := by
  have hwhole : (∃ z : ℤ, (real x).value = z) ↔ x.isWhole = true := exists_value_eq_iff (real x)
  have hlimit : ∀ z : ℤ, (real x).value = z → (z.natAbs < 10 ^ 15 ↔ x.units < integralLimit) := by
    intro z hz
    rw [← Finite.natAbs_toInt, (value_real_eq_iff x z).1 hz, Int.natAbs_mul, Int.natAbs_natCast, integralLimit,
      Nat.mul_lt_mul_right unitsPerOne_pos]
    exact Iff.rfl
  rw [isIntegral, Bool.and_eq_true, decide_eq_true_iff, ← hwhole]
  constructor
  · rintro ⟨z, hz, hlt⟩
    exact ⟨⟨z, hz⟩, (hlimit z hz).1 hlt⟩
  · rintro ⟨⟨z, hz⟩, hlt⟩
    exact ⟨z, hz, (hlimit z hz).2 hlt⟩

theorem integral_real_of_units_eq_zero {x : Finite} (h : x.units = 0) : (real x).Integral := by
  have hint : x.toInt = 0 := Int.natAbs_eq_zero.1 (by rw [Finite.natAbs_toInt, h])
  exact ⟨0, (value_real_eq_iff x 0).2 (by rw [hint, Int.zero_mul]), by decide⟩

end Number

theorem value_integral {x : Finite} (h : isIntegral x = true) :
    (Number.integer (integral x h)).value = (Number.real x).value :=
  ((Number.value_real_eq_iff x _).2 (integral_mul h).symm).symm

/-- **Every binary64 has a normal form**, and it is of its value. -/
theorem exists_normal (x : Finite) :
    ∃ n : Number, ofBinary64? (.finite x) = some (.number n) ∧ n.Normal ∧ n.value = (Number.real x).value := by
  by_cases h : isIntegral x = true
  · refine ⟨.integer (integral x h), by rw [ofBinary64?, dif_pos h], ?_, value_integral h⟩
    rw [Number.Normal, Number.integral_congr (value_integral h), Number.integral_real_iff]
    exact iff_of_true ⟨_, rfl⟩ h
  · refine ⟨.real x, by rw [ofBinary64?, dif_neg h], ?_, rfl⟩
    rw [Number.Normal, Number.integral_real_iff]
    exact iff_of_false (by simp) h

/-- **Normal numbers of one value are equal.** -/
theorem eq_of_normal {m n : Number} (hm : m.Normal) (hn : n.Normal) (h : m.value = n.value) : m = n := by
  have hkind : (∃ i, m = .integer i) ↔ ∃ i, n = .integer i := hm.trans ((Number.integral_congr h).trans hn.symm)
  cases m with
  | integer i =>
    obtain ⟨j, rfl⟩ := hkind.1 ⟨i, rfl⟩
    obtain ⟨i, hi⟩ := i
    obtain ⟨j, hj⟩ := j
    obtain rfl : i = j := Int.cast_injective h
    rfl
  | real x =>
    cases n with
    | integer j => simp at hkind
    | real y =>
      -- reals of one value are the same but for the two zeros, and these are integral, so not normal as reals
      rcases Finite.eq_or_units_eq_zero (Number.value_real_inj.1 h) with rfl | ⟨hx, -⟩
      · rfl
      · obtain ⟨i, hi⟩ := hm.2 (Number.integral_real_of_units_eq_zero hx)
        cases hi

/-- **The normal form of a binary64 is the one normal number of its value.** -/
theorem ofBinary64?_eq_some_iff (x : Finite) (n : Number) :
    ofBinary64? (.finite x) = some (.number n) ↔ n.Normal ∧ n.value = (Number.real x).value := by
  obtain ⟨m, hm, hnormal, hvalue⟩ := exists_normal x
  rw [hm]
  constructor
  · intro h
    cases h
    exact ⟨hnormal, hvalue⟩
  · rintro ⟨hn, hx⟩
    rw [eq_of_normal hnormal hn (hvalue.trans hx.symm)]

theorem ofBinary64?_eq_iff (x y : Finite) :
    ofBinary64? (.finite x) = ofBinary64? (.finite y) ↔ (Number.real x).value = (Number.real y).value := by
  obtain ⟨n, hn, hnormal, hvalue⟩ := exists_normal y
  rw [hn, ofBinary64?_eq_some_iff, hvalue]
  exact ⟨fun h => h.2.symm, fun h => ⟨hnormal, h.symm⟩⟩

/-- **Numbers of one value have one normal form.** -/
theorem ofBinary64?_of_sameValue {t u : Binary64} (h : SameValue t u) : ofBinary64? t = ofBinary64? u := by
  cases h with
  | finite hxy => exact (ofBinary64?_eq_iff _ _).2 (Number.value_real_inj.2 hxy)
  | infinite _ | nan => rfl

theorem ofBinary64?_eq_none_iff (t : Binary64) :
    ofBinary64? t = none ↔ t = .nan ∨ ∃ negative, t = .infinite negative := by
  cases t <;> simp [ofBinary64?]

/-- A message does not show whether a number was brought into normal form. -/
theorem display_of_ofBinary64? {x : Finite} {n : Number} (h : ofBinary64? (.finite x) = some (.number n)) :
    display (.number n) = display (.number (.real x)) := by
  rw [ofBinary64?] at h
  split at h
  · rename_i hi
    cases h
    rw [display, display, displayReal, dif_pos hi]
  · cases h
    rfl

/-- **The normal form of numbers.**  Every finite binary64 has one, the only normal number of exactly its value.  It is an
integer exactly if this value is whole and below 10¹⁵ in magnitude; it is read as a binary64 of this value, whose normal
form it is again; and a message shows it as it shows the binary64.  Two binary64 have one normal form exactly if they
have one value, as the two zeros do.  Infinities and what is not a number have none. -/
theorem normalForm_of_numbers :
    (∀ x : Finite, ∃ (n : Number) (y : Finite), ofBinary64? (.finite x) = some (.number n) ∧
      n.value = (Number.real x).value ∧
      asReal (.number n) = some y ∧ (Number.real y).value = (Number.real x).value ∧
      ofBinary64? (.finite y) = some (.number n) ∧
      ((∃ i, n = .integer i) ↔ ∃ z : ℤ, (Number.real x).value = z ∧ z.natAbs < 10 ^ 15) ∧
      display (.number n) = display (.number (.real x))) ∧
    (∀ (x : Finite) (n : Number),
      ofBinary64? (.finite x) = some (.number n) ↔ n.Normal ∧ n.value = (Number.real x).value) ∧
    (∀ x y : Finite,
      ofBinary64? (.finite x) = ofBinary64? (.finite y) ↔ (Number.real x).value = (Number.real y).value) ∧
    ∀ t : Binary64, ofBinary64? t = none ↔ t = .nan ∨ ∃ negative, t = .infinite negative := by
  refine ⟨fun x => ?_, ofBinary64?_eq_some_iff, ofBinary64?_eq_iff, ofBinary64?_eq_none_iff⟩
  obtain ⟨n, hn, hnormal, hvalue⟩ := exists_normal x
  obtain ⟨y, hy, hint⟩ := asReal_of_ofBinary64? hn
  have hxy : (Number.real y).value = (Number.real x).value := Number.value_real_inj.2 hint
  exact ⟨n, y, hn, hvalue, hy, hxy, ((ofBinary64?_eq_iff y x).2 hxy).trans hn,
    hnormal.trans (Number.integral_congr hvalue), display_of_ofBinary64? hn⟩

end Json
end Eligibility
