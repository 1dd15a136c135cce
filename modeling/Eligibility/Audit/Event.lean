import Eligibility.Audit.Basic
import Eligibility.Json.Printer
import Eligibility.Operator.Table
/-!
# Events

What is logged while operators are registered and applied.
-/

namespace Eligibility

inductive Event.Level where
  | warn
  | debug
  deriving DecidableEq

/-- Something worth a line of a log. -/
inductive Event where
  | unknownType (operator typeName : String)
  | registered (operator : String) (arity : Nat)
  | standardRegistered (operator : String)
  | applied (operator : String) (depth : Nat) (result : Outcome Json)

inductive Event.Field where
  | text (s : String)
  | count (n : Nat)

namespace Event

def level : Event → Level
  | unknownType .. => .warn
  | registered .. | standardRegistered _ | applied .. => .debug

/-- The fields of an event, its message among them. -/
def fields : Event → List (String × Field)
  | unknownType operator typeName =>
    [("message", .text "Unknown parameter type"), ("function", .text operator), ("type_name", .text typeName)]
  | registered operator arity =>
    [("message", .text "Registered function"), ("function", .text operator), ("arity", .count arity)]
  | standardRegistered operator => [("message", .text (OperatorTable.registrationText operator))]
  | applied operator depth (.ok v) =>
    [("message", .text "Operator evaluated"), ("operator", .text operator), ("depth", .count depth),
      ("result", .text v.compact)]
  | applied operator depth (.error e) =>
    [("message", .text "Operator failed"), ("operator", .text operator), ("depth", .count depth),
      ("error", .text e.message), ("kind", .text e.kind.text)]

/-- The events of a registration: one for each unknown type, and one if it succeeds. -/
def ofRegistration (name : String) (operation : Operation) (typeNames : List String) (t : OperatorTable) :
    List Event :=
  (t.unknownTypes typeNames).map (unknownType name) ++
    match (t.register name operation typeNames).1 with
    | .ok _ => [registered name operation.arity]
    | .error _ => []

def ofStandard : List Event :=
  Operator.standard.flatMap fun o => [registered o.name o.arity, standardRegistered o.name]

def ofNotices (notices : List Notice) : List Event :=
  notices.filterMap fun
    | .record r => some (applied r.operator r.depth r.result)
    | .evaluated _ => none

end Event
end Eligibility
