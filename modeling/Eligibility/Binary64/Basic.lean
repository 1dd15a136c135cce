import Eligibility.Binary64.Rounding
/-!
# Binary64 numbers

A finite number is a sign and a representable count of units, so its value is the whole number `toInt` of units and
comparison is comparison of whole numbers; the two zeros have one value.  Every operation computes its exact result as
a ratio of units and rounds it once (`ofRatio`).
-/

namespace Eligibility

/-- A finite number: `units` times 2⁻¹⁰⁷⁴, negated if `negative`. -/
structure Binary64.Finite where
  negative : Bool
  units : Nat
  representable : Binary64.Representable units
  deriving DecidableEq

/-- A finite number, an infinity, or not a number. -/
inductive Binary64 where
  | finite (x : Binary64.Finite)
  | infinite (negative : Bool)
  | nan
  deriving DecidableEq

namespace Binary64

theorem representable_zero : Representable 0 := ⟨Nat.dvd_zero _, twoTo_pos _⟩

def Finite.zero (negative : Bool) : Finite := ⟨negative, 0, representable_zero⟩

/-- The value, in units. -/
def Finite.toInt (x : Finite) : Int := if x.negative then -(x.units : Int) else x.units

/-- The number nearest to `num / den` units; past the largest finite number it is an infinity. -/
def ofRatio (negative : Bool) (num den : Nat) : Binary64 :=
  if h : roundUnits num den < unitLimit then .finite ⟨negative, roundUnits num den, roundUnits_dvd num den, h⟩
  else .infinite negative

def Finite.neg (x : Finite) : Finite := { x with negative := !x.negative }

theorem roundUnits_word_lt {n : Nat} (h : n ≤ 18_446_744_073_709_551_616) :
    roundUnits (n * unitsPerOne) 1 < unitLimit := by
  refine Nat.lt_of_le_of_lt (roundUnits_one_le _) ?_
  have hw : 2 * (n * unitsPerOne) ≤ twoTo 65 * unitsPerOne := by
    rw [← Nat.mul_assoc]
    exact Nat.mul_le_mul_right _ (Nat.le_trans (Nat.mul_le_mul_left 2 h) (by decide))
  refine Nat.lt_of_le_of_lt hw ?_
  exact lt_unitLimit (by omega)

/-- The number nearest to a whole number of 64 bits. -/
def Finite.ofWord (negative : Bool) (n : Nat) (h : n ≤ 18_446_744_073_709_551_616) : Finite :=
  ⟨negative, roundUnits (n * unitsPerOne) 1, roundUnits_dvd _ _, roundUnits_word_lt h⟩

def Finite.le (x y : Finite) : Bool := x.toInt ≤ y.toInt

def Finite.lt (x y : Finite) : Bool := x.toInt < y.toInt

def Finite.isWhole (x : Finite) : Bool := x.units % unitsPerOne = 0

def Finite.wholePart (x : Finite) : Nat := x.units / unitsPerOne

/-- The sum of finite numbers.  An exact zero is positive unless both terms are negative. -/
def Finite.add (x y : Finite) : Binary64 :=
  let sum := x.toInt + y.toInt
  if sum = 0 then .finite (Finite.zero (x.negative && y.negative)) else ofRatio (sum < 0) sum.natAbs 1

def Finite.mul (x y : Finite) : Binary64 := ofRatio (x.negative != y.negative) (x.units * y.units) unitsPerOne

def Finite.div (x y : Finite) : Binary64 :=
  if y.units = 0 then
    if x.units = 0 then .nan else .infinite (x.negative != y.negative)
  else ofRatio (x.negative != y.negative) (x.units * unitsPerOne) y.units

/-- The nearest whole number, a half going away from zero. -/
def Finite.roundWhole (x : Finite) : Binary64 :=
  ofRatio x.negative ((2 * x.units + unitsPerOne) / (2 * unitsPerOne) * unitsPerOne) 1

def add : Binary64 → Binary64 → Binary64
  | .finite x, .finite y => x.add y
  | .nan, _ => .nan
  | _, .nan => .nan
  | .infinite s, .infinite t => if s = t then .infinite s else .nan
  | .infinite s, .finite _ => .infinite s
  | .finite _, .infinite t => .infinite t

def mul : Binary64 → Binary64 → Binary64
  | .finite x, .finite y => x.mul y
  | .nan, _ => .nan
  | _, .nan => .nan
  | .infinite s, .infinite t => .infinite (s != t)
  | .infinite s, .finite y => if y.units = 0 then .nan else .infinite (s != y.negative)
  | .finite x, .infinite t => if x.units = 0 then .nan else .infinite (x.negative != t)

def div : Binary64 → Binary64 → Binary64
  | .finite x, .finite y => x.div y
  | .nan, _ => .nan
  | _, .nan => .nan
  | .infinite _, .infinite _ => .nan
  | .infinite s, .finite y => .infinite (s != y.negative)
  | .finite x, .infinite t => .finite (Finite.zero (x.negative != t))

def roundWhole : Binary64 → Binary64
  | .finite x => x.roundWhole
  | other => other

def finite? : Binary64 → Option Finite
  | .finite x => some x
  | _ => none

def ofNat (n : Nat) : Binary64 := ofRatio false (n * unitsPerOne) 1

@[simp] theorem Finite.toInt_zero (negative : Bool) : (Finite.zero negative).toInt = 0 := by
  cases negative <;> rfl

theorem Finite.natAbs_toInt (x : Finite) : x.toInt.natAbs = x.units := by
  unfold Finite.toInt
  split <;> simp

end Binary64
end Eligibility
