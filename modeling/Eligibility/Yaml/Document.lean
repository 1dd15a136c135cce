import Eligibility.Basket.Source
import Eligibility.Yaml.Scalar
import Eligibility.Yaml.Token.Lexer
/-!
# YAML documents

An alias refers to an anchor before it.  Anchors are counted by their names: a name that is used again takes the next
number, and so may the next new name, and of two anchors with one number the later is meant.  Values nest at most 128
deep, and aliases are followed at most a hundred times as often as there are marks and scalars.
-/

namespace Eligibility.Yaml

/-- A node whose aliases are numbers, and the nodes with those numbers, the first anchor first. -/
structure Document where
  root : Node Nat
  anchored : List (Nat × Node Nat)

namespace Node

/-- A node with its aliases numbered, the anchors known after it, and the nodes that have numbers. -/
abbrev Numbered (β : Type) := β × Table Nat × List (Nat × Node Nat)

/-- Gives the anchor of a node its number. -/
def numberAnchor (names : Table Nat) (p : Properties) : Option Nat × Table Nat :=
  match p.anchor with
  | some name => (some names.length, names.insert name names.length)
  | none => (none, names)

/-- The entry of a node that has a number. -/
def entry (number : Option Nat) (n : Node Nat) : List (Nat × Node Nat) := (number.map fun i => (i, n)).toList

mutual

/-- Numbers anchors in the order in which they are written; none if an alias has no anchor. -/
def number? (names : Table Nat) : Node String → Option (Numbered (Node Nat))
  | .aliasTo name => (names.get? name).map fun i => (.aliasTo i, names, [])
  | .scalar p style text =>
    let (i, names) := numberAnchor names p
    some (.scalar p style text, names, entry i (.scalar p style text))
  | .sequence p items => do
    let (i, names) := numberAnchor names p
    let (items, names, inside) ← numberItems? names items
    return (.sequence p items, names, entry i (.sequence p items) ++ inside)
  | .mapping p entries => do
    let (i, names) := numberAnchor names p
    let (entries, names, inside) ← numberEntries? names entries
    return (.mapping p entries, names, entry i (.mapping p entries) ++ inside)

def numberItems? (names : Table Nat) : List (Node String) → Option (Numbered (List (Node Nat)))
  | [] => some ([], names, [])
  | n :: rest => do
    let (n, names, inside) ← number? names n
    let (ns, names, more) ← numberItems? names rest
    return (n :: ns, names, inside ++ more)

def numberEntries? (names : Table Nat) :
    List (Node String × Node String) → Option (Numbered (List (Node Nat × Node Nat)))
  | [] => some ([], names, [])
  | (k, v) :: rest => do
    let (k, names, inKey) ← number? names k
    let (v, names, inValue) ← number? names v
    let (es, names, more) ← numberEntries? names rest
    return ((k, v) :: es, names, inKey ++ inValue ++ more)

end

mutual

/-- How many marks and scalars a node is written with. -/
def size {α : Type} : Node α → Nat
  | .aliasTo _ => 1
  | .scalar .. => 1
  | .sequence _ items => sizeItems items + 2
  | .mapping _ entries => sizeEntries entries + 2

def sizeItems {α : Type} : List (Node α) → Nat
  | [] => 0
  | n :: rest => size n + sizeItems rest

def sizeEntries {α : Type} : List (Node α × Node α) → Nat
  | [] => 0
  | (k, v) :: rest => size k + size v + sizeEntries rest

end

end Node

namespace Document

/-- **The document that a text writes.**  Without any content it is an empty scalar. -/
def read? (text : String) : Option Document := do
  let tokens ← tokens? text.toList
  let root ← Node.ofTokens? tokens
  let (root, _, anchored) ← (root.getD .empty).number? []
  return ⟨root, anchored⟩

/-- The node that an alias stands for; other nodes stand for themselves. -/
def follow? (d : Document) : Node Nat → Option (Node Nat)
  | .aliasTo i => (d.anchored.reverse.find? fun e => e.1 == i).map Prod.snd
  | n => some n

/-! ## As a value -/

/-- A result, and how many more aliases may be followed. -/
abbrev Walk := StateT Nat Option

/-- Follows an alias, as long as that is allowed. -/
def walk (d : Document) : Node Nat → Walk (Node Nat)
  | .aliasTo i => do
    match ← get with
    | 0 => failure
    | left + 1 =>
      set left
      d.follow? (.aliasTo i)
  | n => return n

/-- The key of a mapping is the text of a scalar. -/
def key (d : Document) (n : Node Nat) : Walk String := do
  match ← d.walk n with
  | .scalar _ _ text => return text
  | _ => failure

/-- A node as a value, with so many levels of nesting at most. -/
def value (d : Document) : Nat → Node Nat → Walk Json
  | 0, n => do
    match ← d.walk n with
    | .scalar p style text => Scalar.value? p style text
    | _ => failure
  | levels + 1, n => do
    match ← d.walk n with
    | .scalar p style text => Scalar.value? p style text
    | .sequence p items =>
      if p.tag.any Tag.isUnknown then failure else return .array (← items.mapM (value d levels))
    | .mapping p entries =>
      if p.tag.any Tag.isUnknown then failure
      else
        let members ← entries.mapM fun e => do return (← d.key e.1, ← value d levels e.2)
        return .object (Table.ofEntries members)
    | .aliasTo _ => failure

def maxNesting : Nat := 128

/-- **The value of a document.** -/
def toJson? (d : Document) : Option Json :=
  ((d.value maxNesting d.root).run (100 * d.root.size)).map Prod.fst

/-! ## As a source of baskets -/

/-- Whether a node is an empty plain scalar. -/
def isBlankNode : Node Nat → Bool
  | .scalar _ .plain "" => true
  | _ => false

def text? (d : Document) (n : Node Nat) : Option String := do
  match ← d.follow? n with
  | .scalar _ _ text => some text
  | _ => none

/-- A number of articles in a plain scalar, or in a literal one that is tagged as an integer. -/
def quantity? (d : Document) (n : Node Nat) : Option Quantity := do
  match ← d.follow? n with
  | .scalar p style text =>
    if style = .plain ∨ (style = .literal ∧ p.tag = some (Tag.core "int")) then
      Quantity.ofNat? (← Scalar.unsigned? 18_446_744_073_709_551_616 text.toList)
    else none
  | _ => none

def atom? (d : Document) (n : Node Nat) : Option Json := do
  match ← d.follow? n with
  | .scalar p style text => Scalar.value? p style text
  | _ => none

/-- Nothing, where a plain scalar is empty or a word for null. -/
def optional? (d : Document) (n : Node Nat) : Option (Option (Node Nat)) := do
  match ← d.follow? n with
  | .scalar p style text =>
    if style ≠ .plain then some (some n)
    else match p.tag with
      | none => if text.isEmpty || Scalar.isNullWord text then some none else some (some n)
      | some tag =>
        if tag = Tag.core "null" then if Scalar.isNullWord text then some none else none else some (some n)
  | _ => some (some n)

def list? (d : Document) (n : Node Nat) : Option (List (Node Nat)) := do
  match ← d.follow? n with
  | .sequence _ items => some items
  | n => if isBlankNode n then some [] else none

def parts? (d : Document) (n : Node Nat) : Option (Parts (Node Nat)) := do
  match ← d.follow? n with
  | .mapping _ entries => (entries.mapM fun e => (d.text? e.1).map fun k => (k, e.2)).map .named
  | n => if isBlankNode n then some (.named []) else none

/-- **The nodes of a document as a source**: a record is a mapping, and texts are any scalars. -/
def source (d : Document) : Source (Node Nat) where
  parts? := d.parts?
  list? := d.list?
  text? := d.text?
  quantity? := d.quantity?
  money? n := (d.atom? n).bind Json.money?
  optional? := d.optional?

end Document
end Eligibility.Yaml
