import Eligibility.Json.Basic
/-!
# Quantities

Numbers of articles, of 64 bits.  A sum that does not fit is the greatest quantity.
-/

namespace Eligibility

/-- A number of articles. -/
structure Quantity where
  value : Nat
  value_lt : value < 18_446_744_073_709_551_616
  deriving DecidableEq

namespace Quantity

def zero : Quantity := ⟨0, by omega⟩

def ofNat? (n : Nat) : Option Quantity := if h : n < 18_446_744_073_709_551_616 then some ⟨n, h⟩ else none

/-- The number itself, or the greatest quantity if it does not fit. -/
def saturate (n : Nat) : Quantity := ⟨min n 18_446_744_073_709_551_615, by omega⟩

/-- **The sum, as far as quantities go.** -/
def add (a b : Quantity) : Quantity := saturate (a.value + b.value)

def total (qs : List Quantity) : Quantity := qs.foldl add zero

def toJson (q : Quantity) : Json :=
  .number (.integer ⟨q.value, by have := q.value_lt; omega⟩)

@[simp] theorem value_saturate (n : Nat) : (saturate n).value = min n 18_446_744_073_709_551_615 := rfl

@[simp] theorem value_add (a b : Quantity) : (a.add b).value =
    min (a.value + b.value) 18_446_744_073_709_551_615 := rfl

theorem ofNat?_value (q : Quantity) : ofNat? q.value = some q := by
  unfold ofNat?
  rw [dif_pos q.value_lt]

end Quantity
end Eligibility
