import Eligibility.Binary64.Shortest
import Eligibility.Json.Basic
/-!
# JSON texts

`compact` writes a value without blanks, `pretty` with one member or element a line and an indent of two blanks.
`display` is the text of a value in messages: a string stands for itself, and an integral number has no point.
-/

namespace Eligibility.Json

/-- JSON numbers are positional from 10⁻⁵ up to 10¹⁶, keep their point, and of two equally near decimals are the one
with the even digit. -/
def realLayout : Binary64.Layout := ⟨some (-5, 15), true, .even⟩

def Number.text : Number → String
  | .integer n => n.value.repr
  | .real x => realLayout.text x

def escape (c : Char) : List Char :=
  if c = '"' then ['\\', '"']
  else if c = '\\' then ['\\', '\\']
  else if c = '\n' then ['\\', 'n']
  else if c = '\r' then ['\\', 'r']
  else if c = '\t' then ['\\', 't']
  else if c = '\x08' then ['\\', 'b']
  else if c = '\x0c' then ['\\', 'f']
  else if c < ' ' then ['\\', 'u', '0', '0', Nat.digitChar (c.toNat / 16), Nat.digitChar (c.toNat % 16)]
  else [c]

def quote (s : String) : List Char := '"' :: (s.toList.flatMap escape ++ ['"'])

/-- The text of a value that has no parts. -/
def atom : Json → List Char
  | .null => "null".toList
  | .bool true => "true".toList
  | .bool false => "false".toList
  | .number n => n.text.toList
  | .string s => quote s
  | _ => []

mutual

def compactChars : Json → List Char
  | .array items => '[' :: (compactItems items ++ [']'])
  | .object members => '\x7b' :: (compactMembers members ++ ['\x7d'])
  | .null => atom .null
  | .bool b => atom (.bool b)
  | .number n => atom (.number n)
  | .string s => quote s

def compactItems : List Json → List Char
  | [] => []
  | [v] => compactChars v
  | v :: w :: rest => compactChars v ++ ',' :: compactItems (w :: rest)

def compactMembers : List (String × Json) → List Char
  | [] => []
  | [(k, v)] => quote k ++ ':' :: compactChars v
  | (k, v) :: m :: rest => quote k ++ ':' :: (compactChars v ++ ',' :: compactMembers (m :: rest))

end

/-- **The text of a value without blanks.** -/
def compact (v : Json) : String := String.ofList (compactChars v)

def newline (depth : Nat) : List Char := '\n' :: List.replicate (2 * depth) ' '

mutual

def prettyChars (depth : Nat) : Json → List Char
  | .array [] => ['[', ']']
  | .array (v :: rest) => '[' :: (prettyItems (depth + 1) (v :: rest) ++ newline depth ++ [']'])
  | .object [] => ['\x7b', '\x7d']
  | .object (m :: rest) => '\x7b' :: (prettyMembers (depth + 1) (m :: rest) ++ newline depth ++ ['\x7d'])
  | .null => atom .null
  | .bool b => atom (.bool b)
  | .number n => atom (.number n)
  | .string s => quote s

def prettyItems (depth : Nat) : List Json → List Char
  | [] => []
  | [v] => newline depth ++ prettyChars depth v
  | v :: w :: rest => newline depth ++ prettyChars depth v ++ ',' :: prettyItems depth (w :: rest)

def prettyMembers (depth : Nat) : List (String × Json) → List Char
  | [] => []
  | [(k, v)] => newline depth ++ quote k ++ ':' :: ' ' :: prettyChars depth v
  | (k, v) :: m :: rest =>
    newline depth ++ quote k ++ ':' :: ' ' :: (prettyChars depth v ++ ',' :: prettyMembers depth (m :: rest))

end

/-- **The text of a value over several lines.** -/
def pretty (v : Json) : String := String.ofList (prettyChars 0 v)

/-- The text of a binary64 in messages. -/
def displayReal (x : Binary64.Finite) : String :=
  if h : isIntegral x = true then (integral x h).value.repr else Binary64.Layout.plain.text x

/-- **The text of a value in messages.** -/
def display : Json → String
  | .string s => s
  | .number (.integer n) => n.value.repr
  | .number (.real x) => displayReal x
  | v => compact v

end Eligibility.Json
