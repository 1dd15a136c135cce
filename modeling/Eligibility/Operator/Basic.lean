import Eligibility.Validator
/-!
# Operators

An operation takes a fixed number of arguments.  An operator is an operation under a name with one type for each
argument; `invoke` checks the number of operands first, then each operand from left to right, and runs the operation
only on operands that all have their types.
-/

namespace Eligibility

/-- What is computed from so many arguments. -/
structure Operation where
  arity : Nat
  body : List Json → Outcome Json

namespace Operation

/-- The failure of an operation that is given another number of arguments than it takes. -/
def wrongCount (expected got : Nat) : RuleError :=
  .operationFailed "operation" ("expected " ++ expected.repr ++ " arguments, got " ++ got.repr)

def unary (f : Json → Outcome Json) : Operation where
  arity := 1
  body
    | [a] => f a
    | args => .error (wrongCount 1 args.length)

def binary (f : Json → Json → Outcome Json) : Operation where
  arity := 2
  body
    | [a, b] => f a b
    | args => .error (wrongCount 2 args.length)

def ternary (f : Json → Json → Json → Outcome Json) : Operation where
  arity := 3
  body
    | [a, b, c] => f a b c
    | args => .error (wrongCount 3 args.length)

end Operation

/-- **A named operation whose arguments have types.** -/
structure Operator where
  name : String
  params : List Validator
  operation : Operation
  arity_eq : params.length = operation.arity

namespace Operator

def arity (o : Operator) : Nat := o.params.length

/-- An operator, if there is a type for each argument. -/
def ofParams (name : String) (params : List Validator) (operation : Operation) : Outcome Operator :=
  if h : params.length = operation.arity then .ok ⟨name, params, operation, h⟩
  else .error (.registrationArity name params.length operation.arity)

/-- Operands that have the types of their positions. -/
def validated (params : List Validator) (operands : List (Outcome Json)) : List (Outcome Json) :=
  List.zipWith (fun type operand => operand.chain type.validate) params operands

/-- **The value of an operator applied to operands.** -/
def invoke (o : Operator) (operands : List (Outcome Json)) : Outcome Json :=
  if operands.length = o.arity then (Outcome.sequence (validated o.params operands)).chain o.operation.body
  else .error (.callArity o.name o.arity operands.length)

end Operator
end Eligibility
