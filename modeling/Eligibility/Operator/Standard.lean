import Eligibility.Operator.Basic
import Eligibility.TypeTable
/-!
# Standard operators

Conjunction and disjunction, the four comparisons, membership in a range, and the sum of a collection.  Numbers are
compared and added as binary64 numbers.
-/

namespace Eligibility.Operator

def boolean (name : String) : Json → Outcome Bool
  | .bool b => .ok b
  | v => .error (.operationFailed name (RuleError.rejection "Boolean" v.display))

def real (name : String) (v : Json) : Outcome Binary64.Finite :=
  match v.asReal with
  | some x => .ok x
  | none => .error (.operationFailed name (RuleError.rejection "Real Number" v.display))

def logical (name : String) (f : Bool → Bool → Bool) : Operation :=
  .binary fun a b => do return .bool (f (← boolean name a) (← boolean name b))

def compare (name : String) (f : Binary64.Finite → Binary64.Finite → Bool) : Operation :=
  .binary fun a b => do return .bool (f (← real name a) (← real name b))

/-- Whether the third number is neither below the first nor above the second. -/
def range : Operation :=
  .ternary fun low high v => do
    let low ← real "inrange" low
    let high ← real "inrange" high
    let v ← real "inrange" v
    return .bool (low.le v && v.le high)

/-- Adds values to a running total, from left to right. -/
def addAll : Binary64 → List Json → Outcome Binary64
  | total, [] => .ok total
  | total, v :: rest => (real "sum" v).chain fun x => addAll (total.add (.finite x)) rest

/-- The values that a collection holds: the elements of an array, or the values of an object. -/
def collection : Json → Outcome (List Json)
  | .object members => .ok (members.map Prod.snd)
  | .array items => .ok items
  | v => .error (.operationFailed "sum" (RuleError.rejection "Mapping" v.display))

def total : Operation :=
  .unary fun v => do
    let sum ← addAll (.finite (.zero false)) (← collection v)
    match Json.ofBinary64? sum with
    | some v => return v
    | none => .error (.operationFailed "sum" "result is not a finite number")

def conjunction : Operator := ⟨"and", [.boolean, .boolean], logical "and" (· && ·), rfl⟩

def disjunction : Operator := ⟨"or", [.boolean, .boolean], logical "or" (· || ·), rfl⟩

def greater : Operator := ⟨"gt", [.real, .real], compare "gt" fun a b => b.lt a, rfl⟩

def less : Operator := ⟨"lt", [.real, .real], compare "lt" fun a b => a.lt b, rfl⟩

def atLeast : Operator := ⟨"gte", [.real, .real], compare "gte" fun a b => b.le a, rfl⟩

def atMost : Operator := ⟨"lte", [.real, .real], compare "lte" fun a b => a.le b, rfl⟩

def inRange : Operator := ⟨"inrange", [.whole, .whole, .whole], range, rfl⟩

def sum : Operator := ⟨"sum", [.anything], total, rfl⟩

/-- **The standard operators**, in the order in which they are registered. -/
def standard : List Operator := [conjunction, disjunction, greater, less, atLeast, atMost, inRange, sum]

theorem mem_standard_iff {o : Operator} : o ∈ standard ↔ o = conjunction ∨ o = disjunction ∨ o = greater ∨
    o = less ∨ o = atLeast ∨ o = atMost ∨ o = inRange ∨ o = sum := by
  simp only [standard, List.mem_cons, List.not_mem_nil, or_false]

end Eligibility.Operator
