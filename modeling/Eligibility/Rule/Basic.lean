import Eligibility.Json.Basic
/-!
# Rules

A rule is read from a value without loss: a mapping of one key to a list calls an operator on operands; a string that
starts with an exclamation mark refers to a path of the context; null is no operand; anything else stands for itself,
lists and all that they hold included.  `toJson_ofJson` says that nothing is lost.
-/

namespace Eligibility

/-- A rule, or an operand of one. -/
inductive Rule where
  | call (name : String) (operands : List Rule)
  /-- An operator whose operands are no list. -/
  | uncallable (name : String) (operands : Json)
  /-- A mapping that does not have exactly one key. -/
  | malformed (members : List (String × Json))
  | reference (path : String)
  | null
  /-- A value that stands for itself. -/
  | literal (v : Json)

namespace Rule

/-- The mark in front of a path. -/
def mark : Char := '!'

def reference? (s : String) : Option String :=
  match s.toList with
  | c :: rest => if c = mark then some (String.ofList rest) else none
  | [] => none

def ofString (s : String) : Rule :=
  match reference? s with
  | some path => reference path
  | none => literal (.string s)

mutual

/-- **The rule that a value is.** -/
def ofJson : Json → Rule
  | .object members => ofMembers members
  | .string s => ofString s
  | .null => null
  | .bool b => literal (.bool b)
  | .number n => literal (.number n)
  | .array items => literal (.array items)

def ofMembers : List (String × Json) → Rule
  | [] => malformed []
  | [(name, operands)] => ofOperands name operands
  | m :: n :: rest => malformed (m :: n :: rest)

def ofOperands (name : String) : Json → Rule
  | .array operands => call name (ofJsons operands)
  | .null => uncallable name .null
  | .bool b => uncallable name (.bool b)
  | .number n => uncallable name (.number n)
  | .string s => uncallable name (.string s)
  | .object members => uncallable name (.object members)

def ofJsons : List Json → List Rule
  | [] => []
  | v :: rest => ofJson v :: ofJsons rest

end

mutual

/-- The value from which a rule is read. -/
def toJson : Rule → Json
  | call name operands => .object [(name, .array (toJsons operands))]
  | uncallable name operands => .object [(name, operands)]
  | malformed members => .object members
  | reference path => .string (String.ofList (mark :: path.toList))
  | null => .null
  | literal v => v

def toJsons : List Rule → List Json
  | [] => []
  | r :: rest => toJson r :: toJsons rest

end

def isMapping : Rule → Bool
  | call .. | uncallable .. | malformed _ => true
  | reference _ | null | literal _ => false

theorem toJson_ofString (s : String) : toJson (ofString s) = .string s := by
  unfold ofString reference?
  cases h : s.toList with
  | nil => simp [toJson]
  | cons c rest =>
    by_cases hc : c = mark
    · subst hc
      simp [toJson, ← h]
    · simp [toJson, hc]

mutual

/-- **Reading a value as a rule loses nothing.** -/
theorem toJson_ofJson : (v : Json) → toJson (ofJson v) = v
  | .object members => by rw [ofJson, toJson_ofMembers members]
  | .string s => by rw [ofJson, toJson_ofString]
  | .null | .bool _ | .number _ | .array _ => by simp [ofJson, toJson]

theorem toJson_ofMembers : (members : List (String × Json)) → toJson (ofMembers members) = .object members
  | [] => by rw [ofMembers, toJson]
  | [(name, operands)] => by rw [ofMembers, toJson_ofOperands name operands]
  | _ :: _ :: _ => by rw [ofMembers, toJson]

theorem toJson_ofOperands (name : String) : (operands : Json) →
    toJson (ofOperands name operands) = .object [(name, operands)]
  | .array operands => by rw [ofOperands, toJson, toJsons_ofJsons operands]
  | .null | .bool _ | .number _ | .string _ | .object _ => by simp [ofOperands, toJson]

theorem toJsons_ofJsons : (vs : List Json) → toJsons (ofJsons vs) = vs
  | [] => rfl
  | v :: rest => by rw [ofJsons, toJsons, toJson_ofJson v, toJsons_ofJsons rest]

end

end Rule
end Eligibility
