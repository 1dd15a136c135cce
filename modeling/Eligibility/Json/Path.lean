import Eligibility.Numeral
import Eligibility.Outcome
/-!
# Paths

A path is steps with points between them.  A step names a member of an object, or an element of an array by its
index in decimal digits.
-/

namespace Eligibility.Json.Path

/-- The pieces between points; there is always one more than there are points. -/
def split : List Char → List (List Char)
  | [] => [[]]
  | c :: rest =>
    if c = '.' then [] :: split rest
    else match split rest with
      | [] => [[c]]
      | first :: others => (c :: first) :: others

def steps (path : String) : List String := (split path.toList).map String.ofList

def step? (v : Json) (name : String) : Option Json :=
  match v with
  | .object members => Table.get? name members
  | .array items => (Numeral.word? name.toList).bind fun i => items[i]?
  | _ => none

def walk? : Json → List String → Option Json
  | v, [] => some v
  | v, name :: rest => (step? v name).bind fun next => walk? next rest

/-- **The value at a path.** -/
def lookup? (path : String) (context : Json) : Option Json := walk? context (steps path)

/-- **The value at a path, if it is not null.** -/
def resolve (path : String) (context : Json) : Outcome Json :=
  match lookup? path context with
  | some .null => .error (.unresolvedPath path)
  | some v => .ok v
  | none => .error (.unresolvedPath path)

theorem split_ne_nil : ∀ text : List Char, split text ≠ []
  | [] => by simp [split]
  | c :: rest => by
    rw [split]
    split
    · simp
    · split <;> simp

theorem walk?_append (v : Json) : ∀ first second : List String,
    walk? v (first ++ second) = (walk? v first).bind fun w => walk? w second
  | [], _ => rfl
  | name :: first, second => by
    simp only [List.cons_append, walk?]
    cases h : step? v name with
    | none => rfl
    | some next => exact walk?_append next first second

end Eligibility.Json.Path
