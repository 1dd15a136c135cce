import Eligibility.Operator.Table
import Eligibility.Proofs.Operator.Arguments
/-!
# Operations and their number of arguments

An operation of one, two or three arguments fails when it is given another number of them
(`Operation.body_of_shaped`).  An operator never does that: it could as well do something else there
(`Operator.invoke_otherwise`).
-/
namespace Eligibility

/-- An operation made of a function of one, two or three arguments. -/
inductive Operation.Shaped : Operation → Prop
  | unary (f : Json → Outcome Json) : Shaped (.unary f)
  | binary (f : Json → Json → Outcome Json) : Shaped (.binary f)
  | ternary (f : Json → Json → Json → Outcome Json) : Shaped (.ternary f)

theorem Operation.body_of_shaped {operation : Operation} (h : operation.Shaped) {args : List Json}
    (hlen : args.length ≠ operation.arity) : operation.body args = .error (wrongCount operation.arity args.length) := by
  cases h with
  | unary f =>
    match args with
    | [] | _ :: _ :: _ => rfl
    | [_] => exact absurd rfl hlen
  | binary f =>
    match args with
    | [] | [_] | _ :: _ :: _ :: _ => rfl
    | [_, _] => exact absurd rfl hlen
  | ternary f =>
    match args with
    | [] | [_] | [_, _] | _ :: _ :: _ :: _ :: _ => rfl
    | [_, _, _] => exact absurd rfl hlen

/-- The operation that does something else when it is given another number of arguments than it takes. -/
def Operation.otherwise (f : List Json → Outcome Json) (operation : Operation) : Operation where
  arity := operation.arity
  body args := if args.length = operation.arity then operation.body args else f args

def Operator.otherwise (f : List Json → Outcome Json) (o : Operator) : Operator :=
  { o with operation := o.operation.otherwise f, arity_eq := o.arity_eq }

def OperatorTable.otherwise (f : List Json → Outcome Json) (t : OperatorTable) : OperatorTable :=
  { t with operators := t.operators.mapValues fun _ o => o.otherwise f }

namespace Operator

/-- **An operation is given as many arguments as it takes.** -/
theorem length_of_sequence_validated {o : Operator} {operands : List (Outcome Json)} {args : List Json}
    (hlen : operands.length = o.arity) (h : Outcome.sequence (validated o.params operands) = .ok args) :
    args.length = o.operation.arity := by
  have hargs := accepts_of_sequence hlen h
  exact hargs.length_eq.symm.trans o.arity_eq

theorem invoke_otherwise (f : List Json → Outcome Json) (o : Operator) : (o.otherwise f).invoke = o.invoke := by
  funext operands
  show (if operands.length = o.arity then
      (Outcome.sequence (validated o.params operands)).chain (o.operation.otherwise f).body
    else .error (.callArity o.name o.arity operands.length)) = o.invoke operands
  rw [invoke]
  split
  · rename_i hlen
    cases h : Outcome.sequence (validated o.params operands) with
    | error failure => rfl
    | ok args => exact if_pos (length_of_sequence_validated hlen h)
  · rfl

end Operator

namespace OperatorTable

theorem get?_otherwise (f : List Json → Outcome Json) (t : OperatorTable) (name : String) :
    (t.otherwise f).get? name = (t.get? name).map (Operator.otherwise f) :=
  Table.get?_mapValues (fun _ => Operator.otherwise f) name t.operators

/-- **What an operation does with a wrong number of arguments is never seen** of the operators of a table. -/
theorem invoke_otherwise (f : List Json → Outcome Json) (t : OperatorTable) (name : String)
    (operands : List (Outcome Json)) : (t.otherwise f).invoke name operands = t.invoke name operands := by
  rw [invoke, invoke, get?_otherwise]
  cases t.get? name with
  | none => rfl
  | some o => exact congrFun (Operator.invoke_otherwise f o) operands

end OperatorTable
end Eligibility
