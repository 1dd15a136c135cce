import Eligibility.Proofs.Binary64.Order
/-!
# Numbers of one value

Two binary64 numbers have one value if they are the same or the two zeros.  Adding takes numbers of one value to numbers
of one value (`SameValue.add`).
-/
namespace Eligibility
namespace Binary64

/-- **Numbers of one value**: the same, or the two zeros. -/
inductive SameValue : Binary64 → Binary64 → Prop
  | finite {x y : Finite} (h : x.toInt = y.toInt) : SameValue (.finite x) (.finite y)
  | infinite (negative : Bool) : SameValue (.infinite negative) (.infinite negative)
  | nan : SameValue .nan .nan

theorem SameValue.refl (t : Binary64) : SameValue t t := by
  cases t with
  | finite x => exact .finite rfl
  | infinite negative => exact .infinite negative
  | nan => exact .nan

/-- **Numbers of one value are the same, or zeros.** -/
theorem Finite.eq_or_units_eq_zero {x y : Finite} (h : x.toInt = y.toInt) : x = y ∨ x.units = 0 ∧ y.units = 0 := by
  have hunits : x.units = y.units := by rw [← natAbs_toInt, h, natAbs_toInt]
  obtain ⟨s, m, hm⟩ := x
  obtain ⟨t, n, hn⟩ := y
  obtain rfl : m = n := hunits
  by_cases hzero : m = 0
  · exact .inr ⟨hzero, hzero⟩
  · have hsign : s = t := by
      unfold Finite.toInt at h
      cases s <;> cases t <;> simp at h ⊢ <;> omega
    subst hsign
    exact .inl rfl

variable {x x' y y' : Finite}

theorem Finite.lt_eq (hx : x.toInt = x'.toInt) (hy : y.toInt = y'.toInt) : x.lt y = x'.lt y' := by
  rw [lt, lt, hx, hy]

theorem Finite.le_eq (hx : x.toInt = x'.toInt) (hy : y.toInt = y'.toInt) : x.le y = x'.le y' := by
  rw [le, le, hx, hy]

theorem SameValue.add {t u : Binary64} (h : SameValue t u) (hxy : x.toInt = y.toInt) :
    SameValue (t.add (.finite x)) (u.add (.finite y)) := by
  cases h with
  | @finite z w hzw =>
    -- the sum is that of the values; only the sign of a zero is taken from the terms
    rw [Binary64.add, Binary64.add, Finite.add, Finite.add, hzw, hxy]
    split
    · exact .finite ((Finite.toInt_zero _).trans (Finite.toInt_zero _).symm)
    · exact .refl _
  | infinite negative => exact .infinite negative
  | nan => exact .nan

end Binary64
end Eligibility
