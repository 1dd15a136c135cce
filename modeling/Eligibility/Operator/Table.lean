import Eligibility.Operator.Standard
/-!
# Tables of operators

Operators by name, beside the table of types that later registrations refer to.  A registration takes the types by
name and either adds one operator or leaves the table as it is.
-/

namespace Eligibility

/-- Operators by name, and the types that registrations name. -/
structure OperatorTable where
  types : TypeTable
  operators : Table Operator

namespace OperatorTable

def ofTypes (types : TypeTable) : OperatorTable := ⟨types, []⟩

/-- The names that name no type, each as often as it occurs. -/
def unknownTypes (typeNames : List String) (t : OperatorTable) : List String :=
  typeNames.filter fun name => !t.types.contains name

def registrationText (name : String) : String := "Successfully added Function: " ++ name

/-- **Registers an operator**, if every type is known and there is one for each argument: what is answered, and the
table from then on. -/
def register (name : String) (operation : Operation) (typeNames : List String) (t : OperatorTable) :
    Outcome String × OperatorTable :=
  let params := typeNames.filterMap fun name => t.types.get? name
  if params.length = typeNames.length then
    match Operator.ofParams name params operation with
    | .ok o => (.ok (registrationText name), { t with operators := t.operators.insert name o })
    | .error e => (.error e, t)
  else (.error (.registrationArity name typeNames.length operation.arity), t)

/-- Registers operators by the names of their types, one after the other, until one fails. -/
def registerAll : List Operator → OperatorTable → Outcome Unit × OperatorTable
  | [], t => (.ok (), t)
  | o :: rest, t =>
    match t.register o.name o.operation (o.params.map Validator.name) with
    | (.ok _, next) => registerAll rest next
    | (.error e, next) => (.error e, next)

def get? (name : String) (t : OperatorTable) : Option Operator := t.operators.get? name

def invoke (name : String) (operands : List (Outcome Json)) (t : OperatorTable) : Outcome Json :=
  match t.get? name with
  | some o => o.invoke operands
  | none => .error (.unknownOperator name)

/-- **The standard operators over the standard types.** -/
def standard : OperatorTable where
  types := .standard
  operators := Operator.standard.foldl (fun t o => t.insert o.name o) []

end OperatorTable
end Eligibility
