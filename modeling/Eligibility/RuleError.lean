import Eligibility.Json.Basic
/-!
# Why a rule has no value

Each way in which reading, registering or evaluating a rule fails is one constructor; `message` is its text and `kind`
the class under which failures are counted.
-/

namespace Eligibility

/-- A reason why there is no value. -/
inductive RuleError where
  /-- Not a mapping, or a mapping without an operator. -/
  | notARule
  | ambiguousRule (keys : List String)
  /-- An operator whose operand list is null. -/
  | missingOperands
  /-- An operator whose operand list is no list. -/
  | operandsNotAList
  | nullOperand
  | unknownOperator (name : String)
  | unknownType (name : String)
  /-- The types named in a registration are not one known type for each argument. -/
  | registrationArity (name : String) (declared arity : Nat)
  | callArity (name : String) (expected got : Nat)
  /-- A value that is not of the type wanted; `failed` is the label of the level that rejected it, if it is another. -/
  | typeMismatch (typeName label value : String) (failed : Option String)
  | unresolvedPath (path : String)
  | depthExceeded (limit : Nat)
  /-- An operation that gives no value for arguments of the right types. -/
  | operationFailed (name message : String)
  deriving DecidableEq

namespace RuleError

inductive Kind where
  | ruleShape
  | nullOperand
  | unknownOperator
  | unknownType
  | arity
  | typeMismatch
  | unresolvedPath
  | depthExceeded
  | operationFailed
  deriving DecidableEq

namespace Kind

/-- All kinds, in the order in which they are reported. -/
def all : List Kind :=
  [ruleShape, nullOperand, unknownOperator, unknownType, arity, typeMismatch, unresolvedPath, depthExceeded,
    operationFailed]

theorem mem_all (k : Kind) : k ∈ all := by cases k <;> decide

def text : Kind → String
  | ruleShape => "invalid_rule_shape"
  | nullOperand => "null_operand"
  | unknownOperator => "unknown_operator"
  | unknownType => "unknown_type"
  | arity => "arity_mismatch"
  | typeMismatch => "type_validation_failure"
  | unresolvedPath => "path_resolution_failure"
  | depthExceeded => "depth_exceeded"
  | operationFailed => "operation_failure"

def ofText? (s : String) : Option Kind := all.find? fun k => k.text == s

def toJson (k : Kind) : Json := .string k.text

/-- A kind is written as its text, or as a mapping from its text to null. -/
def ofJson? : Json → Option Kind
  | .string s => ofText? s
  | .object [(s, .null)] => ofText? s
  | _ => none

theorem ofText?_text (k : Kind) : ofText? k.text = some k := by cases k <;> decide

end Kind

def kind : RuleError → Kind
  | notARule | ambiguousRule _ | missingOperands | operandsNotAList => .ruleShape
  | nullOperand => .nullOperand
  | unknownOperator _ => .unknownOperator
  | unknownType _ => .unknownType
  | registrationArity .. | callArity .. => .arity
  | typeMismatch .. => .typeMismatch
  | unresolvedPath _ => .unresolvedPath
  | depthExceeded _ => .depthExceeded
  | operationFailed .. => .operationFailed

/-- What is said of a value that a level rejected. -/
def rejection (label value : String) : String := "Not a valid " ++ label ++ ": " ++ value

/-- **The text of a failure.** -/
def message : RuleError → String
  | notARule => "Invalid Object"
  | ambiguousRule keys => "Ambiguous Rule: " ++ String.intercalate ", " keys
  | missingOperands => "Invalid Rule"
  | operandsNotAList => "Invalid Parameters"
  | nullOperand => "NULL Object"
  | unknownOperator name => "Invalid Function: " ++ name
  | unknownType name => "Unknown Type: " ++ name
  | registrationArity name _ _ => "Not enough arguments adding function: " ++ name
  | callArity name _ _ => "Invalid Number of arguments calling function: " ++ name
  | typeMismatch _ label value none => rejection label value
  | typeMismatch _ label value (some failed) => rejection label value ++ " (" ++ rejection failed value ++ ")"
  | unresolvedPath _ => "Invalid Substitution"
  | depthExceeded limit => "Maximum rule depth exceeded: " ++ limit.repr
  | operationFailed name message => name ++ ": " ++ message

end RuleError
end Eligibility
