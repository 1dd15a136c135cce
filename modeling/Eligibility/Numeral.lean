/-!
# Numerals

Whole numbers written in digits.  `ofDigits?` reads digits of any radix up to 36, `word?` an unsigned 64-bit number in
decimal with an optional plus sign and any number of leading zeros.
-/

namespace Eligibility.Numeral

/-- The value of an ASCII digit or letter as a digit. -/
def digitValue? (c : Char) : Option Nat :=
  if '0' ≤ c ∧ c ≤ '9' then some (c.toNat - '0'.toNat)
  else if 'a' ≤ c ∧ c ≤ 'z' then some (c.toNat - 'a'.toNat + 10)
  else if 'A' ≤ c ∧ c ≤ 'Z' then some (c.toNat - 'A'.toNat + 10)
  else none

/-- The value of a digit of `radix`. -/
def digitOf? (radix : Nat) (c : Char) : Option Nat :=
  (digitValue? c).bind fun d => if d < radix then some d else none

/-- The number that digits write after a number already read. -/
def continue? (radix : Nat) : Nat → List Char → Option Nat
  | n, [] => some n
  | n, c :: rest => (digitOf? radix c).bind fun d => continue? radix (n * radix + d) rest

/-- The number written by one or more digits of `radix`. -/
def ofDigits? (radix : Nat) : List Char → Option Nat
  | [] => none
  | c :: rest => continue? radix 0 (c :: rest)

/-- The value of decimal digits; none at all is zero. -/
def value (digits : List Char) : Nat := digits.foldl (fun n c => n * 10 + (c.toNat - '0'.toNat)) 0

/-- A numeral with an optional plus sign. -/
def unsigned? (limit : Nat) (text : List Char) : Option Nat :=
  let digits := match text with
    | '+' :: rest => rest
    | other => other
  (ofDigits? 10 digits).bind fun n => if n < limit then some n else none

/-- An unsigned 64-bit number: an optional plus sign, then decimal digits. -/
def word? (text : List Char) : Option Nat := unsigned? 18_446_744_073_709_551_616 text

/-- The decimal digits in front, and what follows them. -/
def splitDigits (text : List Char) : List Char × List Char := text.span Char.isDigit

end Eligibility.Numeral
