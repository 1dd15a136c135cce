import Eligibility.Binary64.Basic
/-!
# Shortest decimal texts

The texts of a binary64 number that read back as it are the decimals of an interval around it: half-way to its two
neighbours, ends included exactly when its significand is even.  `shortest` tries 1, 2, … 17 significant digits and
takes the first decimal grid that has a point of the interval next to the number; of two such points the nearer.
A `Layout` holds what is a matter of the format: which exponents are written positionally, whether a whole number
keeps a fraction, and which of two equally near points is taken.
-/

namespace Eligibility.Binary64

/-- Which of two equally near decimals is taken. -/
inductive Tie where
  | even
  | up
  deriving DecidableEq

/-- The decimals that read back as a number, in quarters of a unit: the number itself, the ends of its interval and
whether they belong to it. -/
structure Interval where
  centre : Nat
  low : Nat
  high : Nat
  closed : Bool

def Interval.ofUnits (units : Nat) : Interval :=
  let gap := twoTo (units.log2 - 52)
  let atPower := units = twoTo units.log2 ∧ 52 < units.log2
  { centre := 4 * units
    low := 4 * units - if atPower then gap else 2 * gap
    high := 4 * units + 2 * gap
    closed := units / gap % 2 = 0 }

/-- A decimal grid, as the ratio of its step to a quarter of a unit. -/
structure Grid where
  num : Nat
  den : Nat

def Grid.ofPlace (place : Int) : Grid :=
  if 0 ≤ place then ⟨tenTo place.toNat * (4 * unitsPerOne), 1⟩ else ⟨4 * unitsPerOne, tenTo (-place).toNat⟩

/-- Whether the n-th point of a grid lies in an interval. -/
def Interval.has (i : Interval) (g : Grid) (n : Nat) : Bool :=
  let point := n * g.num
  if i.closed then i.low * g.den ≤ point && point ≤ i.high * g.den
  else i.low * g.den < point && point < i.high * g.den

/-- The point of a grid that is nearest to the centre, if it lies in the interval. -/
def Interval.pick (i : Interval) (tie : Tie) (g : Grid) : Option Nat :=
  let centre := i.centre * g.den
  let below := centre / g.num
  let left := centre % g.num
  match i.has g below, i.has g (below + 1) with
  | true, true =>
    if 2 * left < g.num then some below
    else if g.num < 2 * left then some (below + 1)
    else match tie with
      | .even => some (below + below % 2)
      | .up => some (below + 1)
  | true, false => some below
  | false, true => some (below + 1)
  | false, false => none

/-- The exponent of the leading decimal digit of a positive count of units. -/
def leadingExponent (units : Nat) : Int :=
  let guess : Int := ((units.log2 : Int) - 1074) * 30103 / 100000
  let reaches (e : Int) : Bool :=
    if 0 ≤ e then tenTo e.toNat * unitsPerOne ≤ units else unitsPerOne ≤ units * tenTo (-e).toNat
  if reaches (guess + 1) then guess + 1 else if reaches guess then guess else guess - 1

/-- Tries grids of ever more digits. -/
def shortestFrom (i : Interval) (tie : Tie) : Nat → Int → Nat × Int
  | 0, place => (i.centre * (Grid.ofPlace place).den / (Grid.ofPlace place).num, place)
  | more + 1, place =>
    match i.pick tie (Grid.ofPlace place) with
    | some n => (n, place)
    | none => shortestFrom i tie more (place - 1)

/-- **A whole number and a power of ten whose product is the shortest decimal that reads back as the number.** -/
def shortest (tie : Tie) (units : Nat) : Nat × Int :=
  shortestFrom (Interval.ofUnits units) tie 17 (leadingExponent units)

/-- How the digits of a number are laid out. -/
structure Layout where
  /-- The exponents of the leading digit that are written positionally; without bounds all are. -/
  positional : Option (Int × Int)
  /-- Whether a positional whole number ends in `.0`. -/
  keepsPoint : Bool
  tie : Tie

/-- Never an exponent, and of two equally near decimals the greater. -/
def Layout.plain : Layout := ⟨none, false, .up⟩

/-- The digits without trailing zeros, and how many zeros were cut. -/
def trimZeros (digits : List Char) : List Char × Nat :=
  let trailing := digits.reverse.takeWhile (· = '0')
  (digits.take (digits.length - trailing.length), trailing.length)

/-- Digits `d₁d₂…` times `10^place`, without an exponent. -/
def Layout.positionalText (l : Layout) (digits : List Char) (place : Int) : List Char :=
  let count : Int := digits.length
  if 0 ≤ place then
    digits ++ List.replicate place.toNat '0' ++ if l.keepsPoint then ['.', '0'] else []
  else if 0 < count + place then
    digits.take (count + place).toNat ++ '.' :: digits.drop (count + place).toNat
  else '0' :: '.' :: List.replicate (-(count + place)).toNat '0' ++ digits

/-- One digit, a point before the others, and an exponent with its sign. -/
def scientificText (digits : List Char) (exponent : Int) : List Char :=
  let sign := if exponent < 0 then '-' else '+'
  let fraction := match digits.drop 1 with
    | [] => []
    | more => '.' :: more
  digits.take 1 ++ fraction ++ 'e' :: sign :: exponent.natAbs.repr.toList

def Layout.magnitude (l : Layout) (units : Nat) : List Char :=
  if units = 0 then if l.keepsPoint then ['0', '.', '0'] else ['0']
  else
    let (n, place) := shortest l.tie units
    let (digits, cut) := trimZeros n.repr.toList
    let place := place + cut
    let exponent : Int := place + digits.length - 1
    let positional := match l.positional with
      | none => true
      | some (least, greatest) => least ≤ exponent && exponent ≤ greatest
    if positional then l.positionalText digits place else scientificText digits exponent

/-- **The text of a finite number**: its shortest digits, laid out; a negative zero keeps its sign. -/
def Layout.text (l : Layout) (x : Finite) : String :=
  String.ofList (if x.negative then '-' :: l.magnitude x.units else l.magnitude x.units)

end Eligibility.Binary64
