import Eligibility.Binary64.Basic
import Eligibility.Numeral
/-!
# Reading decimal fractions

`ofDecimal` is the binary64 nearest to a whole number times a power of ten.  `read?` reads a text: an optional sign,
then digits with an optional point (one digit at least) and an optional exponent, or one of the words `inf`,
`infinity` and `nan` in any case.
-/

namespace Eligibility.Binary64

/-- The number nearest to `digits · 10^exponent`.  Past 10⁴⁰⁰ nothing is finite and below 10⁻³⁹⁸ nothing differs from
zero, so exponents out there are not raised to a power. -/
def ofDecimal (negative : Bool) (digits : Nat) (exponent : Int) : Binary64 :=
  if digits = 0 then .finite (Finite.zero negative)
  else if 400 < exponent then .infinite negative
  else if exponent < -(400 + (digits.log2 / 3 : Nat) : Int) then .finite (Finite.zero negative)
  else if 0 ≤ exponent then ofRatio negative (digits * tenTo exponent.toNat * unitsPerOne) 1
  else ofRatio negative (digits * unitsPerOne) (tenTo (-exponent).toNat)

def splitSign : List Char → Bool × List Char
  | '-' :: rest => (true, rest)
  | '+' :: rest => (false, rest)
  | rest => (false, rest)

/-- An exponent: nothing, or the letter E, an optional sign and one digit at least. -/
def exponent? : List Char → Option Int
  | [] => some 0
  | c :: rest =>
    if c = 'e' ∨ c = 'E' then
      let (negative, digits) := splitSign rest
      (Numeral.ofDigits? 10 digits).map fun n => if negative then -(n : Int) else n
    else none

/-- Digits with an optional point and an optional exponent. -/
def readUnsigned? (negative : Bool) (text : List Char) : Option Binary64 :=
  let (whole, rest) := Numeral.splitDigits text
  let (fraction, tail) := match rest with
    | '.' :: rest => Numeral.splitDigits rest
    | rest => ([], rest)
  if whole.isEmpty && fraction.isEmpty then none
  else (exponent? tail).map fun e => ofDecimal negative (Numeral.value (whole ++ fraction)) (e - fraction.length)

/-- **A number written as a decimal fraction or in words.** -/
def read? (text : String) : Option Binary64 :=
  let (negative, rest) := splitSign text.toList
  match readUnsigned? negative rest with
  | some x => some x
  | none =>
    let word := String.ofList (rest.map Char.toLower)
    if word = "inf" ∨ word = "infinity" then some (.infinite negative)
    else if word = "nan" then some .nan
    else none

end Eligibility.Binary64
