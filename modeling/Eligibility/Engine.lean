import Eligibility.Evaluator
/-!
# Engines

Types and operators under one handle, with a limit of depth and sinks.  A type registered later is known to later
registrations of operators only: an operator keeps the types that it was registered with.
-/

namespace Eligibility

/-- Types, operators and settings. -/
structure Engine where
  types : TypeTable
  operators : OperatorTable
  maxDepth : Nat
  sinks : List Sink

namespace Engine

def ofTypes (types : TypeTable) (sinks : List Sink) : Engine :=
  ⟨types, .ofTypes types, Evaluator.defaultMaxDepth, sinks⟩

/-- **An engine with the standard types and operators.** -/
def standard (sinks : List Sink) : Engine := ⟨.standard, .standard, Evaluator.defaultMaxDepth, sinks⟩

def withMaxDepth (maxDepth : Nat) (e : Engine) : Engine := { e with maxDepth := maxDepth }

def withSink (s : Sink) (e : Engine) : Engine := { e with sinks := e.sinks ++ [s] }

/-- Puts a type under its own name, for the registrations to come. -/
def registerType (v : Validator) (e : Engine) : Engine :=
  let types := e.types.register v
  { e with types := types, operators := { e.operators with types := types } }

/-- Registers an operator, if its types are known and fit: what is answered, and the engine from then on. -/
def registerOperator (name : String) (operation : Operation) (typeNames : List String) (e : Engine) :
    Outcome String × Engine :=
  let registered := e.operators.register name operation typeNames
  (registered.1, { e with operators := registered.2 })

def evaluator (e : Engine) : Evaluator := ⟨e.operators, e.maxDepth, e.sinks⟩

/-- **The outcome of a rule in a context.** -/
def evaluate (e : Engine) (rule context : Json) : Outcome Json := e.evaluator.evaluate rule context

end Engine
end Eligibility
