import Eligibility.Binary64.Basic
/-!
# Decimals

Amounts of money: a sign, a coefficient of at most 96 bits and up to 28 decimal places.  Decimals that differ in
trailing zeros, or in the sign of a zero, are of one value but not equal.  A sum has the places of the term with more
of them; if its coefficient does not fit, as few places as possible are given up, a half going to the even neighbour.
-/

namespace Eligibility

/-- The number `coefficient / 10^places`, or that below zero. -/
structure Decimal where
  negative : Bool
  coefficient : Nat
  places : Nat
  coefficient_lt : coefficient < 79_228_162_514_264_337_593_543_950_336
  places_le : places ≤ 28
  deriving DecidableEq

namespace Decimal

def coefficientLimit : Nat := 79_228_162_514_264_337_593_543_950_336

def maxPlaces : Nat := 28

def zero : Decimal := ⟨false, 0, 0, by decide, by decide⟩

/-- A sign, a coefficient and places, if they fit. -/
def ofParts? (negative : Bool) (coefficient places : Nat) : Option Decimal :=
  if h : coefficient < 79_228_162_514_264_337_593_543_950_336 ∧ places ≤ 28 then
    some ⟨negative, coefficient, places, h.1, h.2⟩
  else none

/-- A coefficient with its sign and places, if they fit; a zero made so is not negative. -/
def ofSigned? (coefficient : Int) (places : Nat) : Option Decimal :=
  ofParts? (coefficient < 0) coefficient.natAbs places

def ofInt? (n : Int) : Option Decimal := ofSigned? n 0

def signed (d : Decimal) : Int := if d.negative then -(d.coefficient : Int) else d.coefficient

/-- The signed coefficient for so many places. -/
def scaled (d : Decimal) (places : Nat) : Int := d.signed * tenTo (places - d.places)

/-- **Equality of value.** -/
def eqv (a b : Decimal) : Bool := a.scaled maxPlaces == b.scaled maxPlaces

/-- A coefficient with so many places fewer; a half goes to the even neighbour. -/
def withoutPlaces (coefficient : Int) (given : Nat) : Int :=
  let magnitude : Int := Binary64.nearestEven coefficient.natAbs (tenTo given)
  if coefficient < 0 then -magnitude else magnitude

/-- Gives up no place of `left` places, or as few as it takes for the coefficient to fit. -/
def fit? (coefficient : Int) (given : Nat) : Nat → Option Decimal
  | 0 => ofSigned? (withoutPlaces coefficient given) 0
  | left + 1 =>
    match ofSigned? (withoutPlaces coefficient given) (left + 1) with
    | some d => some d
    | none => fit? coefficient (given + 1) left

/-- **The sum**, if it fits.  A term that is zero leaves the other one as it is. -/
def add? (a b : Decimal) : Option Decimal :=
  if a.coefficient = 0 then some b
  else if b.coefficient = 0 then some a
  else
    let places := max a.places b.places
    fit? (a.scaled places + b.scaled places) 0 places

/-- A magnitude as a binary64: the whole part and the fraction are rounded on their own, and their sum is rounded to
the decimal places. -/
def magnitudeReal (d : Decimal) : Binary64 :=
  let m := d.coefficient
  let one := tenTo d.places
  if d.places = 0 then .ofNat m
  else
    let fraction := (Binary64.ofNat (m % one)).div (.ofNat one)
    if fraction = .finite (.zero false) then .ofNat (m / one)
    else
      let scale := power 100 (.ofNat 1) (.ofNat 10) d.places
      (((Binary64.ofNat (m / one)).add fraction).mul scale).roundWhole.div scale
where
  /-- Multiplies by a power, squaring again and again. -/
  power : Nat → Binary64 → Binary64 → Nat → Binary64
    | 0, r, _, _ => r
    | fuel + 1, r, a, n =>
      if n = 0 then r else power fuel (if n % 2 = 1 then r.mul a else r) (a.mul a) (n / 2)

/-- **The number as a binary64.** -/
def toReal (d : Decimal) : Binary64 :=
  match d.magnitudeReal with
  | .finite x => .finite (if d.negative then x.neg else x)
  | .infinite _ => .infinite d.negative
  | .nan => .nan

end Decimal
end Eligibility
