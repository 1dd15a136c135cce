import Eligibility.Table
import Eligibility.Validator
/-!
# Tables of types

The standard types are the numbers with their signs and their whole subsets, the booleans and everything.

* real: positive real, negative real, integer
* integer: whole, negative whole; each with zero, and without it natural and negative natural
-/

namespace Eligibility

abbrev TypeTable := Table Validator

namespace TypeTable

def empty : TypeTable := []

/-- Puts a type under its own name, in place of any other. -/
def register (v : Validator) (t : TypeTable) : TypeTable := t.insert v.name v

/-- Puts a refinement of a type of the table under its own name. -/
def refine (parent name label : String) (accepts : Json → Bool) (t : TypeTable) : Outcome (Validator × TypeTable) :=
  match t.get? parent with
  | some p => .ok (.refine p name label accepts, t.register (.refine p name label accepts))
  | none => .error (.unknownType parent)

/-- Checks a value against a type of the table. -/
def validate (name : String) (v : Json) (t : TypeTable) : Outcome Json :=
  match t.get? name with
  | some type => type.validate v
  | none => .error (.unknownType name)

end TypeTable

namespace Validator

/-- Whether a value is a number of which something holds. -/
def holdsOfReal (p : Binary64.Finite → Bool) (v : Json) : Bool := v.asReal.any p

def real : Validator := root "Real" "Real Number" (holdsOfReal fun _ => true)

def positiveReal : Validator := real.refine "PosReal" "Positive Real Number" (holdsOfReal fun x => 0 ≤ x.toInt)

def negativeReal : Validator := real.refine "NegReal" "Negative Real Number" (holdsOfReal fun x => x.toInt ≤ 0)

def integer : Validator := real.refine "Integer" "Integer" (holdsOfReal fun x => x.isWhole)

def whole : Validator := integer.refine "Whole" "Whole Number" (holdsOfReal fun x => 0 ≤ x.toInt)

def natural : Validator := whole.refine "Natural" "Natural Number" (holdsOfReal fun x => 0 < x.toInt)

def negativeWhole : Validator :=
  integer.refine "NegWhole" "Negative Whole Number" (holdsOfReal fun x => x.toInt ≤ 0)

def negativeNatural : Validator :=
  negativeWhole.refine "NegNatural" "Negative Natural Number" (holdsOfReal fun x => x.toInt < 0)

def boolean : Validator := root "Boolean" "Boolean" Json.isBool

def anything : Validator := any "Any"

end Validator

/-- **The standard types.** -/
def TypeTable.standard : TypeTable :=
  [Validator.real, .positiveReal, .negativeReal, .integer, .whole, .natural, .negativeWhole, .negativeNatural,
    .boolean, .anything].foldl (fun t v => t.register v) .empty

end Eligibility
