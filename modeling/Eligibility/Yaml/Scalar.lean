import Eligibility.Binary64.Reader
import Eligibility.Json.Basic
import Eligibility.Yaml.Node
/-!
# Values of scalars

A plain scalar without a tag is null, a boolean, an integer, a floating-point number or else a text.  Digits after a
leading zero are a text; an integer that does not fit 64 bits but 128 is refused.  The core tags demand their type.  Of
a document's own tags those that name a type are refused, and those that write no characters say nothing.  Any other tag
makes a text.
-/

namespace Eligibility.Yaml.Scalar

def isNullWord (text : String) : Bool := text == "null" || text == "Null" || text == "NULL" || text == "~"

def bool? (text : String) : Option Bool :=
  if text = "true" ∨ text = "True" ∨ text = "TRUE" then some true
  else if text = "false" ∨ text = "False" ∨ text = "FALSE" then some false
  else none

/-! ## Numbers -/

def isSign (c : Char) : Bool := c = '+' || c = '-'

def startsWithSign (text : List Char) : Bool := text.head?.any isSign

def withoutPlus : List Char → List Char
  | '+' :: rest => rest
  | text => text

/-- Whether a text is digits of which the first, a needless zero, makes it no number. -/
def hasLeadingZero (text : List Char) : Bool :=
  match if startsWithSign text then text.drop 1 else text with
  | '0' :: c :: rest => (c :: rest).all Char.isDigit
  | _ => false

/-- The number in another radix that a text writes. -/
def radixNumber? : List Char → Option Nat
  | '0' :: 'x' :: digits => Numeral.ofDigits? 16 digits
  | '0' :: 'o' :: digits => Numeral.ofDigits? 8 digits
  | '0' :: 'b' :: digits => Numeral.ofDigits? 2 digits
  | _ => none

/-- A number without a minus sign, below a limit. -/
def unsigned? (limit : Nat) (text : List Char) : Option Nat :=
  let digits := withoutPlus text
  let number := (radixNumber? digits).orElse fun _ =>
    if startsWithSign digits || hasLeadingZero text then none else Numeral.ofDigits? 10 digits
  number.bind fun n => if n < limit then some n else none

/-- The magnitude of a number with a minus sign, up to a limit. -/
def negative? (limit : Nat) : List Char → Option Nat
  | '-' :: digits =>
    let number := (radixNumber? digits).orElse fun _ =>
      if hasLeadingZero digits then none else Numeral.ofDigits? 10 digits
    number.bind fun n => if n ≤ limit then some n else none
  | _ => none

/-- A whole number of at most 128 bits. -/
def integer? (text : List Char) : Option Int :=
  match unsigned? (twoTo 128) text with
  | some n => some n
  | none => (negative? (twoTo 127) text).map fun n => -(n : Int)

/-- The words for an infinity and for what is not a number. -/
def isSpecialWord (text : List Char) : Bool :=
  [".inf", ".Inf", ".INF", "-.inf", "-.Inf", "-.INF", "+.inf", "+.Inf", "+.INF", ".nan", ".NaN", ".NAN"].contains
    (String.ofList text)

/-- A floating-point number that is finite. -/
def finite? (text : List Char) : Option Binary64.Finite :=
  let unsigned := withoutPlus text
  if text.length ≠ unsigned.length && startsWithSign unsigned then none
  else (Binary64.read? (String.ofList unsigned)).bind Binary64.finite?

/-- A floating-point number as a value; one that is not finite is null. -/
def float? (text : List Char) : Option Json :=
  if isSpecialWord text then some .null else (finite? text).map fun x => .number (.real x)

/-! ## Values -/

/-- An integer as a value, if it fits. -/
def integerJson? (n : Int) : Option Json := (Json.Integer.ofInt? n).map fun i => .number (.integer i)

/-- **The value of a plain scalar.** -/
def plain? (text : String) : Option Json :=
  let chars := text.toList
  if text.isEmpty || isNullWord text then some .null
  else match bool? text with
    | some b => some (.bool b)
    | none =>
      match integer? chars with
      | some n => integerJson? n
      | none =>
        if hasLeadingZero chars then some (.string text) else some ((float? chars).getD (.string text))

/-- The value of a scalar without a tag; only a plain one may be other than a text. -/
def untagged? (style : Style) (text : String) : Option Json :=
  if style = .plain then plain? text else some (.string text)

/-- **The value of a scalar.** -/
def value? (p : Properties) (style : Style) (text : String) : Option Json :=
  match p.tag with
  | none => untagged? style text
  | some tag =>
    if tag.isUnknown then none
    else if tag.isLocal then untagged? style text
    else if tag = .core "bool" then (bool? text).map .bool
    else if tag = .core "int" then (integer? text.toList).bind integerJson?
    else if tag = .core "float" then float? text.toList
    else if tag = .core "null" then if isNullWord text then some .null else none
    else some (.string text)

end Eligibility.Yaml.Scalar
