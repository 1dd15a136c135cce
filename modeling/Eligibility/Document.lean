import Eligibility.Yaml.Document
/-!
# Documents

Rules, contexts and baskets are documents in files.  The end of a file's name says whether it is YAML; anything else
is JSON.
-/

namespace Eligibility

inductive DocumentFormat where
  | json
  | yaml
  deriving DecidableEq

namespace DocumentFormat

/-- The last part of a path, if it is a name. -/
def fileName? (path : String) : Option (List Char) :=
  let parts := (pieces path.toList).filter fun p => !p.isEmpty && p != ['.']
  match parts.getLast? with
  | some name => if name = ['.', '.'] then none else some name
  | none => none
where
  pieces : List Char → List (List Char)
    | [] => [[]]
    | c :: rest =>
      if c = '/' then [] :: pieces rest
      else match pieces rest with
        | [] => [[c]]
        | first :: others => (c :: first) :: others

/-- What comes after the last point of a name, if something comes before it. -/
def extension? (name : List Char) : Option (List Char) :=
  let after := (name.reverse.takeWhile (· ≠ '.')).reverse
  if after.length + 1 < name.length then some after else none

/-- **The format of the file at a path.** -/
def ofPath (path : String) : DocumentFormat :=
  match (fileName? path).bind extension? with
  | some ext =>
    let lower := String.ofList (ext.map Char.toLower)
    if lower = "yaml" ∨ lower = "yml" then yaml else json
  | none => json

def value? (f : DocumentFormat) (text : String) : Option Json :=
  match f with
  | json => Json.read? text
  | yaml => (Yaml.Document.read? text).bind Yaml.Document.toJson?

def basket? (f : DocumentFormat) (text : String) : Option Basket :=
  match f with
  | json => (Json.Written.read? text).bind Json.Written.source.basket?
  | yaml => (Yaml.Document.read? text).bind fun d => d.source.basket? d.root

end DocumentFormat

inductive LoadError where
  | missing
  | notText
  | unreadable (f : DocumentFormat)
  | invalid (message : String)
  deriving DecidableEq

def LoadError.message : LoadError → String
  | missing | notText => "IO error"
  | unreadable .json => "JSON parsing error"
  | unreadable .yaml => "YAML parsing error"
  | invalid message => "Validation error: " ++ message

abbrev Files := String → Option ByteArray

namespace Files

/-- Reads the file at a path in its format. -/
def load {α : Type} (files : Files) (read : DocumentFormat → String → Option α) (path : String) :
    Except LoadError α := do
  let some bytes := files path | .error .missing
  let some text := String.fromUTF8? bytes | .error .notText
  let some a := read (.ofPath path) text | .error (.unreadable (.ofPath path))
  return a

def loadValue (files : Files) (path : String) : Except LoadError Json := files.load DocumentFormat.value? path

def loadBasket (files : Files) (path : String) : Except LoadError Basket := files.load DocumentFormat.basket? path

/-- What is wrong with the outermost level of a rule. -/
def ruleFault? : Json → Option String
  | .object [_] => none
  | .object [] => some "Rule has no operator"
  | .object members => some ("Rule has more than one operator: " ++ String.intercalate ", " (members.map Prod.fst))
  | _ => some "Rule must be a mapping"

/-- **A rule**: a mapping of one key. -/
def loadRule (files : Files) (path : String) : Except LoadError Json := do
  let rule ← files.loadValue path
  match ruleFault? rule with
  | some fault => .error (.invalid fault)
  | none => return rule

/-- **A context**: a mapping. -/
def loadContext (files : Files) (path : String) : Except LoadError Json := do
  let context ← files.loadValue path
  if context.isObject then return context else .error (.invalid "Context must be a mapping")

end Files
end Eligibility
