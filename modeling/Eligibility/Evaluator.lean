import Eligibility.Audit.Basic
import Eligibility.Json.Path
import Eligibility.Operator.Table
import Eligibility.Rule.Basic
/-!
# Evaluation

Operands are resolved first, each on its own, and the operator is then applied to their outcomes.  Values taken from
the context are never evaluated.  A mapping that stands deeper than the limit fails before anything else of it is
looked at.
-/

namespace Eligibility

/-- Operators, a limit of depth, and the sinks that observe. -/
structure Evaluator where
  operators : OperatorTable
  maxDepth : Nat
  sinks : List Sink

def Evaluator.defaultMaxDepth : Nat := 64

/-- An outcome, and the records of the operators applied on the way. -/
structure Run where
  outcome : Outcome Json
  records : List AuditRecord

def Run.fail (e : RuleError) : Run := ⟨.error e, []⟩

namespace Evaluator

def detail (e : Evaluator) : Detail := .ofSinks e.sinks

/-- Looks at a mapping at a depth: within the limit, its operator if it has one. -/
def operatorAt (e : Evaluator) (depth : Nat) (name : String) : Outcome Operator :=
  if e.maxDepth < depth then .error (.depthExceeded e.maxDepth)
  else match e.operators.get? name with
    | some o => .ok o
    | none => .error (.unknownOperator name)

/-- The failure of a mapping that does not have exactly one key. -/
def malformedError (members : List (String × Json)) : RuleError :=
  if members.isEmpty then .notARule else .ambiguousRule (members.map Prod.fst)

def operandsError (operands : Json) : RuleError := if operands.isNull then .missingOperands else .operandsNotAList

/-- A failure of a mapping at a depth; one that is too deep fails as that. -/
def failAt (e : Evaluator) (depth : Nat) (failure : RuleError) : Run :=
  .fail (if e.maxDepth < depth then .depthExceeded e.maxDepth else failure)

/-- Applies an operator to operands that have been resolved. -/
def apply (e : Evaluator) (depth : Nat) (o : Operator) (name : String) (operands : List Run) : Run :=
  let outcomes := operands.map Run.outcome
  let result := o.invoke outcomes
  ⟨result, operands.flatMap Run.records ++ e.detail.record name outcomes result depth⟩

mutual

/-- **Resolves an operand of a mapping that stands at `depth`.** -/
def resolve (e : Evaluator) (context : Json) (depth : Nat) : Rule → Run
  | .call name operands =>
    match e.operatorAt (depth + 1) name with
    | .error failure => .fail failure
    | .ok o => e.apply (depth + 1) o name (resolveAll e context (depth + 1) operands)
  | .uncallable name operands =>
    match e.operatorAt (depth + 1) name with
    | .error failure => .fail failure
    | .ok _ => .fail (operandsError operands)
  | .malformed members => e.failAt (depth + 1) (malformedError members)
  | .reference path => ⟨Json.Path.resolve path context, []⟩
  | .null => .fail .nullOperand
  | .literal v => ⟨.ok v, []⟩

def resolveAll (e : Evaluator) (context : Json) (depth : Nat) : List Rule → List Run
  | [] => []
  | r :: rest => resolve e context depth r :: resolveAll e context depth rest

end

/-- The run of a whole rule: what is no mapping is no rule. -/
def run (e : Evaluator) (context : Json) (rule : Rule) : Run :=
  if rule.isMapping then e.resolve context 0 rule else e.failAt 1 .notARule

/-- **The outcome of a rule in a context.** -/
def evaluate (e : Evaluator) (rule context : Json) : Outcome Json := (e.run context (.ofJson rule)).outcome

/-- What the sinks are told of an evaluation. -/
def notices (e : Evaluator) (rule context : Json) : List Notice :=
  let run := e.run context (.ofJson rule)
  run.records.map Notice.record ++ if e.sinks.isEmpty then [] else [.evaluated run.outcome]

/-- The run of an operand of a rule's outermost operator. -/
def runOperand (e : Evaluator) (operand context : Json) : Run := e.resolve context 1 (.ofJson operand)

/-- **The outcome of an operand of a rule's outermost operator.** -/
def resolveOperand (e : Evaluator) (operand context : Json) : Outcome Json := (e.runOperand operand context).outcome

/-- What the sinks are told while an operand is resolved. -/
def operandNotices (e : Evaluator) (operand context : Json) : List Notice :=
  (e.runOperand operand context).records.map .record

end Evaluator
end Eligibility
