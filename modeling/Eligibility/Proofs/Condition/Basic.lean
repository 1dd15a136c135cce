import Eligibility.Json.Path
import Eligibility.Proofs.Rule.Reading
/-!
# Conditions

A condition is a rule whose every part has the type that is asked of it: booleans, conjunctions and disjunctions of
conditions, comparisons of amounts, and ranges of amounts that are whole.  `truth?` is what it says of a context, in
terms of the values of its amounts only; it says nothing where a path does not lead to what is asked of it.
-/
namespace Eligibility

open Binary64 (Finite)

namespace Json

def asBool : Json → Option Bool
  | .bool b => some b
  | _ => none

/-- The numbers of an array or an object that holds nothing else. -/
def numbers? : Json → Option (List Finite)
  | .array items => items.mapM asReal
  | .object members => (members.map Prod.snd).mapM asReal
  | _ => none

end Json

/-- The sum of numbers from left to right, if it is finite. -/
def Binary64.total? (xs : List Finite) : Option Finite :=
  finite? (xs.foldl (fun total x => add total (.finite x)) (.finite (.zero false)))

/-- Numbers that are written out, or what a path leads to. -/
inductive Collection where
  | items (ns : List Json.Number)
  | path (p : String)

namespace Collection

def toJson : Collection → Json
  | items ns => .array (ns.map .number)
  | path p => .template p

def numbers? (context : Json) : Collection → Option (List Finite)
  | items ns => some (ns.map Json.Number.toFinite)
  | path p => (Json.Path.lookup? p context).bind Json.numbers?

end Collection

inductive Amount where
  | number (n : Json.Number)
  | path (p : String)
  | sum (c : Collection)

namespace Amount

def toJson : Amount → Json
  | number n => .number n
  | path p => .template p
  | sum c => .call "sum" [c.toJson]

/-- **The binary64 that an amount is in a context.** -/
def value? (context : Json) : Amount → Option Finite
  | number n => some n.toFinite
  | path p => (Json.Path.lookup? p context).bind Json.asReal
  | sum c => (c.numbers? context).bind Binary64.total?

def whole? (context : Json) (x : Amount) : Option Finite :=
  (x.value? context).filter fun z => z.isWhole && decide (0 ≤ z.toInt)

end Amount

inductive Comparison where
  | greater | less | atLeast | atMost

namespace Comparison

def name : Comparison → String
  | greater => "gt"
  | less => "lt"
  | atLeast => "gte"
  | atMost => "lte"

def holds : Comparison → Int → Int → Bool
  | greater, m, n => n < m
  | less, m, n => m < n
  | atLeast, m, n => n ≤ m
  | atMost, m, n => m ≤ n

end Comparison

inductive Connective where
  | both | either

namespace Connective

def name : Connective → String
  | both => "and"
  | either => "or"

def holds : Connective → Bool → Bool → Bool
  | both, a, b => a && b
  | either, a, b => a || b

end Connective

inductive Condition where
  | constant (b : Bool)
  | path (p : String)
  | join (c : Connective) (a b : Condition)
  | compare (c : Comparison) (x y : Amount)
  | within (low high x : Amount)

namespace Condition

def toJson : Condition → Json
  | constant b => .bool b
  | path p => .template p
  | join c a b => .call c.name [a.toJson, b.toJson]
  | compare c x y => .call c.name [x.toJson, y.toJson]
  | within low high x => .call "inrange" [low.toJson, high.toJson, x.toJson]

/-- **What a condition says of a context.** -/
def truth? (context : Json) : Condition → Option Bool
  | constant b => some b
  | path p => (Json.Path.lookup? p context).bind Json.asBool
  | join c a b => do return c.holds (← a.truth? context) (← b.truth? context)
  | compare c x y => do return c.holds (← x.value? context).toInt (← y.value? context).toInt
  | within low high x => do
    let low ← low.whole? context
    let high ← high.whole? context
    let x ← x.whole? context
    return decide (low.toInt ≤ x.toInt ∧ x.toInt ≤ high.toInt)

end Condition
end Eligibility
