import Eligibility.Proofs.Json.Number
import Eligibility.Proofs.Validator.Levels
import Eligibility.TypeTable
import Mathlib.Data.Set.Image
/-!
# The standard types as sets

Each standard type of numbers accepts the numbers whose exact values have a property, however they are written
(`accepted_integer`, `accepted_positiveReal`); what a refinement accepts is the set of its parent, cut down
(`accepted_refine`).  `hierarchy_standard` relates the types of the standard table by the operations on sets.
-/
namespace Eligibility

/-- The values that the type of a name accepts. -/
def TypeTable.accepted (t : TypeTable) (name : String) : Set Json := { v | ∃ w, t.validate name v = .ok w }

namespace Validator

open Binary64 (Finite)
open Json (Number)

/-- The values that a type accepts. -/
def accepted (type : Validator) : Set Json := { v | type.Accepts v }

theorem accepted_refine (parent : Validator) (name label : String) (accepts : Json → Bool) :
    (parent.refine name label accepts).accepted = parent.accepted ∩ { v | accepts v = true } := by
  ext v
  exact accepts_refine

theorem setOf_holdsOfReal (p : Finite → Bool) :
    { v | holdsOfReal p v = true } = Json.number '' { n | p n.toFinite = true } := by
  ext v
  cases v <;> simp [holdsOfReal, Json.asReal]

theorem number_injective : Function.Injective Json.number := fun _ _ h => Json.number.inj h

/-- **A refinement of a set of numbers by a predicate of numbers** accepts those of the set of which it holds. -/
theorem accepted_refine_of_numbers {parent : Validator} {s : Set Number} (h : parent.accepted = Json.number '' s)
    (name label : String) (p : Finite → Bool) :
    (parent.refine name label (holdsOfReal p)).accepted = Json.number '' (s ∩ { n | p n.toFinite = true }) := by
  rw [accepted_refine, h, setOf_holdsOfReal, Set.image_inter number_injective]

theorem accepted_real : real.accepted = Json.number '' Set.univ := by
  have hreal : real.accepted = { v | holdsOfReal (fun _ => true) v = true } := by
    ext v
    exact accepts_root
  rw [hreal, setOf_holdsOfReal]
  simp

theorem accepted_positiveReal : positiveReal.accepted = Json.number '' { n | 0 ≤ n.value } := by
  rw [positiveReal, accepted_refine_of_numbers accepted_real]
  simp [Json.nonneg_value_iff]

theorem accepted_negativeReal : negativeReal.accepted = Json.number '' { n | n.value ≤ 0 } := by
  rw [negativeReal, accepted_refine_of_numbers accepted_real]
  simp [Json.value_nonpos_iff]

theorem accepted_integer : integer.accepted = Json.number '' { n | ∃ z : Int, n.value = z } := by
  rw [integer, accepted_refine_of_numbers accepted_real]
  simp [Json.exists_value_eq_iff]

theorem accepted_whole :
    whole.accepted = Json.number '' ({ n | ∃ z : Int, n.value = z } ∩ { n | 0 ≤ n.value }) := by
  rw [whole, accepted_refine_of_numbers accepted_integer]
  simp [Json.nonneg_value_iff]

theorem accepted_negativeWhole :
    negativeWhole.accepted = Json.number '' ({ n | ∃ z : Int, n.value = z } ∩ { n | n.value ≤ 0 }) := by
  rw [negativeWhole, accepted_refine_of_numbers accepted_integer]
  simp [Json.value_nonpos_iff]

/-- A strict sign is what the other sign leaves, so zero is in neither. -/
theorem accepted_natural : natural.accepted = whole.accepted \ negativeWhole.accepted := by
  have hsign : { n : Number | decide (0 < n.toFinite.toInt) = true } = { n | n.value ≤ 0 }ᶜ := by
    ext n
    simp [Json.value_nonpos_iff]
  rw [natural, accepted_refine_of_numbers accepted_whole, hsign, Set.inter_assoc, ← Set.sdiff_eq,
    Set.inter_sdiff_distrib_left, Set.image_sdiff number_injective, accepted_whole, accepted_negativeWhole]

theorem accepted_negativeNatural : negativeNatural.accepted = negativeWhole.accepted \ whole.accepted := by
  have hsign : { n : Number | decide (n.toFinite.toInt < 0) = true } = { n | 0 ≤ n.value }ᶜ := by
    ext n
    simp [Json.nonneg_value_iff]
  rw [negativeNatural, accepted_refine_of_numbers accepted_negativeWhole, hsign, Set.inter_assoc, ← Set.sdiff_eq,
    Set.inter_sdiff_distrib_left, Set.image_sdiff number_injective, accepted_whole, accepted_negativeWhole]

theorem accepted_boolean : boolean.accepted = Set.range Json.bool := by
  ext v
  refine accepts_root.trans ?_
  cases v <;> simp [Json.isBool]

theorem accepted_anything : anything.accepted = Set.univ := by
  ext v
  exact iff_of_true (accepts_root.2 rfl) trivial

end Validator

namespace TypeTable

open Validator

theorem accepted_of_get? {t : TypeTable} {name : String} {type : Validator} (h : t.get? name = some type) :
    t.accepted name = type.accepted := by
  ext v
  constructor
  · rintro ⟨w, hw⟩
    rw [validate, h] at hw
    obtain rfl := type.eq_of_validate_ok v w hw
    exact hw
  · intro hv
    exact ⟨v, by rw [validate, h]; exact hv⟩

/-- **The standard types as sets.**  The integers are the numbers with a whole value; those of a sign are the integers
among the reals of that sign, zero with both; and the natural numbers of a sign are the integers of that sign alone. -/
theorem hierarchy_standard :
    let A : String → Set Json := TypeTable.standard.accepted
    A "Real" = Set.range Json.number ∧ A "Integer" = Json.number '' { n | ∃ z : Int, n.value = z } ∧
      A "PosReal" = Json.number '' { n | 0 ≤ n.value } ∧ A "NegReal" = Json.number '' { n | n.value ≤ 0 } ∧
      A "Whole" = A "Integer" ∩ A "PosReal" ∧ A "NegWhole" = A "Integer" ∩ A "NegReal" ∧
      A "Natural" = A "Whole" \ A "NegWhole" ∧ A "NegNatural" = A "NegWhole" \ A "Whole" ∧
      A "PosReal" ∪ A "NegReal" = A "Real" ∧ A "PosReal" ∩ A "NegReal" = Json.number '' { n | n.value = 0 } ∧
      A "Boolean" = Set.range Json.bool ∧ A "Any" = Set.univ := by
  intro A
  have hreal : A "Real" = real.accepted := accepted_of_get? rfl
  have hinteger : A "Integer" = integer.accepted := accepted_of_get? rfl
  have hpositive : A "PosReal" = positiveReal.accepted := accepted_of_get? rfl
  have hnegative : A "NegReal" = negativeReal.accepted := accepted_of_get? rfl
  have hwhole : A "Whole" = whole.accepted := accepted_of_get? rfl
  have hnegativeWhole : A "NegWhole" = negativeWhole.accepted := accepted_of_get? rfl
  have hnatural : A "Natural" = natural.accepted := accepted_of_get? rfl
  have hnegativeNatural : A "NegNatural" = negativeNatural.accepted := accepted_of_get? rfl
  have hboolean : A "Boolean" = boolean.accepted := accepted_of_get? rfl
  have hany : A "Any" = anything.accepted := accepted_of_get? rfl
  have hsigns : { n : Json.Number | 0 ≤ n.value } ∪ { n | n.value ≤ 0 } = Set.univ := by
    ext n
    simp [le_total]
  have hzero : { n : Json.Number | 0 ≤ n.value } ∩ { n | n.value ≤ 0 } = { n | n.value = 0 } := by
    ext n
    simp [le_antisymm_iff, and_comm]
  rw [hreal, hinteger, hpositive, hnegative, hwhole, hnegativeWhole, hnatural, hnegativeNatural, hboolean, hany]
  refine ⟨accepted_real.trans Set.image_univ, accepted_integer, accepted_positiveReal, accepted_negativeReal, ?_, ?_,
    accepted_natural, accepted_negativeNatural, ?_, ?_, accepted_boolean, accepted_anything⟩
  · rw [accepted_whole, Set.image_inter number_injective, accepted_integer, accepted_positiveReal]
  · rw [accepted_negativeWhole, Set.image_inter number_injective, accepted_integer, accepted_negativeReal]
  · rw [accepted_positiveReal, accepted_negativeReal, ← Set.image_union, hsigns, accepted_real]
  · rw [accepted_positiveReal, accepted_negativeReal, ← Set.image_inter number_injective, hzero]

end TypeTable
end Eligibility
