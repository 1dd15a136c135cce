import Eligibility.Json.Printer
import Eligibility.Outcome
/-!
# Types of operands

A type is a root predicate, or a refinement of another type by a further one.  A value is checked from the root down
and the first level that rejects it decides; the failure names the type asked for and, if an ancestor rejected the
value, that ancestor's label.
-/

namespace Eligibility

/-- A named type of values. -/
inductive Validator where
  | root (name label : String) (accepts : Json → Bool)
  | refine (parent : Validator) (name label : String) (accepts : Json → Bool)

namespace Validator

def name : Validator → String
  | root name _ _ => name
  | refine _ name _ _ => name

def label : Validator → String
  | root _ label _ => label
  | refine _ _ label _ => label

def parent? : Validator → Option Validator
  | root .. => none
  | refine parent .. => some parent

/-- How many levels there are up to the root. -/
def depth : Validator → Nat
  | root .. => 1
  | refine parent .. => parent.depth + 1

def any (name : String) : Validator := root name name fun _ => true

/-- A failure of an ancestor as a failure of the type asked for. -/
def relabel (name label : String) : RuleError → RuleError
  | .typeMismatch _ rejecting value failed => .typeMismatch name label value (some (failed.getD rejecting))
  | e => e

/-- The value, if a level accepts it. -/
def accept (name label : String) (accepts : Json → Bool) (v : Json) : Outcome Json :=
  if accepts v then .ok v else .error (.typeMismatch name label v.display none)

/-- **The value itself, if every level accepts it.** -/
def validate : Validator → Json → Outcome Json
  | root name label accepts, v => accept name label accepts v
  | refine parent name label accepts, v =>
    Outcome.chain ((parent.validate v).mapError (relabel name label)) (accept name label accepts)

end Validator
end Eligibility
