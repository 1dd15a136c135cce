import Eligibility.Binary64.Shortest
import Eligibility.Decimal.Basic
import Eligibility.Numeral
/-!
# Decimal texts

A decimal is written with all its places.  `read?` reads a sign, digits with an optional point, and underscores
between them.  Where the places or the coefficient are full the next digit rounds, and only digits and underscores may
follow it.  A text that cannot be read so may have an exponent.
-/

namespace Eligibility.Decimal

/-- Digits with a point before the last `places` of them; at least one digit stands before the point. -/
def withPoint (digits : List Char) (places : Nat) : List Char :=
  if places = 0 then digits
  else
    let padded := List.replicate (places + 1 - digits.length) '0' ++ digits
    padded.take (padded.length - places) ++ '.' :: padded.drop (padded.length - places)

/-- **The text of a decimal.** -/
def text (d : Decimal) : String :=
  let magnitude := withPoint d.coefficient.repr.toList d.places
  String.ofList (if d.negative then '-' :: magnitude else magnitude)

/-- What has been read of a text: the coefficient, the places after the point if there was one, and whether there was
a digit. -/
structure Progress where
  coefficient : Nat
  point : Bool
  places : Nat
  digits : Bool

namespace Progress

def start : Progress := ⟨0, false, 0, false⟩

def digit (p : Progress) (d : Nat) : Progress :=
  ⟨p.coefficient * 10 + d, p.point, if p.point then p.places + 1 else 0, true⟩

/-- The number read, if there was a digit. -/
def done? (p : Progress) : Option (Nat × Nat) := if p.digits then some (p.coefficient, p.places) else none

/-- Rounds by a digit more; a half goes up.  If the coefficient is then too large its last place is given up. -/
def round? (p : Progress) (d : Nat) : Option (Nat × Nat) :=
  if d < 5 then some (p.coefficient, p.places)
  else if p.coefficient + 1 < coefficientLimit then some (p.coefficient + 1, p.places)
  else if p.places = 0 then none
  else some ((p.coefficient + 5) / 10, p.places - 1)

/-- Rounds by the digit that a text starts with; only digits and underscores may come after it. -/
def finish? (p : Progress) : List Char → Option (Nat × Nat)
  | [] => p.done?
  | c :: rest =>
    if rest.all fun c => c.isDigit || c = '_' then (Numeral.digitOf? 10 c).bind p.round? else none

/-- Whether the coefficient fits 64 bits and leaves room for some 2500 more. -/
def isSmall (p : Progress) : Bool := p.coefficient < 18_446_744_073_709_549_060

/-- Ends where all places are taken.  A first underscore counts as a zero as long as the coefficient is small; else
underscores are passed over. -/
def full? (p : Progress) (text : List Char) : Option (Nat × Nat) :=
  match text with
  | '_' :: rest => if p.isSmall then p.finish? ('0' :: rest) else p.finish? (rest.dropWhile (· = '_'))
  | text => p.finish? text

/-- Reads on to the end, or up to the first digit that can only round. -/
def read? (p : Progress) : List Char → Option (Nat × Nat)
  | [] => p.done?
  | c :: rest =>
    if p.point && maxPlaces ≤ p.places then p.full? (c :: rest)
    else if c = '.' then if p.point then none else { p with point := true }.read? rest
    else if c = '_' then if p.digits then p.read? rest else none
    else match Numeral.digitOf? 10 c with
      | none => none
      | some d =>
        if p.coefficient * 10 + d < coefficientLimit then (p.digit d).read? rest
        else if p.point then p.finish? (c :: rest)
        else none

end Progress

def readPlain? (text : List Char) : Option Decimal :=
  let (negative, rest) := match text with
    | '-' :: rest => (true, rest)
    | '+' :: rest => (false, rest)
    | rest => (false, rest)
  (Progress.start.read? rest).bind fun (n, places) => ofParts? (negative && n ≠ 0) n places

/-- A coefficient with so many places fewer; a half goes up. -/
def withoutPlacesUp (coefficient given : Nat) : Nat := (2 * coefficient + tenTo given) / (2 * tenTo given)

/-- Divides by a power of ten.  The sign stays, also where nothing else is left. -/
def shiftDown? (d : Decimal) (n : Nat) : Option Decimal :=
  if maxPlaces < n then none
  else if d.places + n ≤ maxPlaces then ofParts? d.negative d.coefficient (d.places + n)
  else ofParts? d.negative (withoutPlacesUp d.coefficient (d.places + n - maxPlaces)) maxPlaces

def shiftUp? (d : Decimal) (n : Nat) : Option Decimal :=
  if n ≤ d.places then ofParts? d.negative d.coefficient (d.places - n)
  else if maxPlaces < n then none
  else ofParts? d.negative (d.coefficient * tenTo (n - d.places)) 0

def readScientific? (text : List Char) : Option Decimal :=
  let isMark (c : Char) : Bool := c = 'e' || c = 'E'
  match text.dropWhile fun c => !isMark c with
  | [] => none
  | _ :: exponent => do
    let d ← readPlain? (text.takeWhile fun c => !isMark c)
    match exponent with
    | '-' :: digits => d.shiftDown? (← Numeral.unsigned? 4_294_967_296 digits)
    | digits => d.shiftUp? (← Numeral.unsigned? 4_294_967_296 digits)

/-- **The decimal that a text writes.** -/
def read? (text : String) : Option Decimal :=
  match readPlain? text.toList with
  | some d => some d
  | none => readScientific? text.toList

/-- The decimal with the shortest text of a binary64. -/
def ofReal? (x : Binary64.Finite) : Option Decimal := readPlain? (Binary64.Layout.plain.text x).toList

end Eligibility.Decimal
