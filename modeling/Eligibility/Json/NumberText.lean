import Eligibility.Binary64.Reader
import Eligibility.Json.Basic
/-!
# Number texts

`NumberText.read?` accepts the number texts of the grammar.  `NumberText.toNumber?` is what they mean: digits alone
are an integer if it fits.  Everything else is a binary64, computed from as many leading digits as fit 64 bits and one
power of ten, each rounded on its own, so that the result may lie one place beside the nearest.
-/

namespace Eligibility.Json

structure NumberText where
  negative : Bool
  whole : List Char
  fraction : Option (List Char)
  exponent : Option Int

namespace NumberText

/-! ## Grammar -/

/-- One digit at least, and what follows the digits. -/
def digits? (text : List Char) : Option (List Char × List Char) :=
  match Numeral.splitDigits text with
  | ([], _) => none
  | found => some found

/-- The whole part: a zero alone, or digits that start with another one. -/
def whole? : List Char → Option (List Char × List Char)
  | '0' :: rest => some (['0'], rest)
  | text => digits? text

/-- A point and digits, if there is a point. -/
def fraction? : List Char → Option (Option (List Char) × List Char)
  | '.' :: rest => (digits? rest).map fun (ds, rest) => (some ds, rest)
  | text => some (none, text)

/-- The letter E, an optional sign and digits, if there is the letter. -/
def exponent? : List Char → Option (Option Int × List Char)
  | [] => some (none, [])
  | c :: rest =>
    if c = 'e' ∨ c = 'E' then
      let (negative, rest) := Binary64.splitSign rest
      (digits? rest).map fun (ds, rest) =>
        (some (if negative then -(Numeral.value ds : Int) else Numeral.value ds), rest)
    else some (none, c :: rest)

/-- **A number, and what follows it.** -/
def read? (text : List Char) : Option (NumberText × List Char) := do
  let (negative, text) := match text with
    | '-' :: rest => (true, rest)
    | text => (false, text)
  let (whole, text) ← whole? text
  let (fraction, text) ← fraction? text
  let (exponent, text) ← exponent? text
  return (⟨negative, whole, fraction, exponent⟩, text)

/-! ## Meaning -/

/-- Appends digits to a number as long as it fits 64 bits; the digits left over. -/
def append : Nat → List Char → Nat × List Char
  | n, [] => (n, [])
  | n, c :: rest =>
    let next := n * 10 + (c.toNat - '0'.toNat)
    if next < 18_446_744_073_709_551_616 then append next rest else (n, c :: rest)

/-- The greatest power of ten that is finite. -/
def maxPower : Nat := 308

def power (e : Nat) : Binary64 := .ofDecimal false 1 e

/-- A number times a power of ten, by one multiplication, or by divisions by the greatest power until the rest of the
exponent is in range. -/
def scale (x : Binary64) (e : Int) : Binary64 :=
  if x = .finite (.zero false) then x
  else if 0 ≤ e then if e ≤ maxPower then x.mul (power e.toNat) else .infinite false
  else if -maxPower ≤ e then x.div (power (-e).toNat)
  else scale (x.div (power maxPower)) (e + maxPower)
termination_by (-e).toNat
decreasing_by
  unfold maxPower at *
  omega

def toFinite? (t : NumberText) : Option Binary64.Finite :=
  let (n, beyond) := append 0 t.whole
  let fraction := t.fraction.getD []
  let (m, dropped) := append n fraction
  let exponent := beyond.length - (fraction.length - dropped.length) + t.exponent.getD 0
  ((scale (.ofNat m) exponent).finite?).map fun x => if t.negative then x.neg else x

/-- The number as an integer, if it is written as one and fits; minus zero is none. -/
def toInteger? (t : NumberText) : Option Integer :=
  match t.fraction, t.exponent with
  | none, none =>
    let n := Numeral.value t.whole
    if t.negative then if n = 0 then none else Integer.ofInt? (-n) else Integer.ofInt? n
  | _, _ => none

/-- **The number that a text writes**, if it is in range. -/
def toNumber? (t : NumberText) : Option Number :=
  match t.toInteger? with
  | some n => some (.integer n)
  | none => t.toFinite?.map .real

end NumberText
end Eligibility.Json
