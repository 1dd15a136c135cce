import Eligibility.Table
import Eligibility.Yaml.Token.Basic
/-!
# Nodes

The nodes that the tokens of a document make.  Where a value is left out there is an empty plain scalar.  An alias
stands for the node of its anchor; `Node.ofTokens?` leaves it in place.
-/

namespace Eligibility.Yaml

structure Properties where
  anchor : Option String
  tag : Option Tag

/-- A node; `α` is what names the anchor of an alias. -/
inductive Node (α : Type) where
  | aliasTo (anchor : α)
  | scalar (properties : Properties) (style : Style) (text : String)
  | sequence (properties : Properties) (items : List (Node α))
  | mapping (properties : Properties) (entries : List (Node α × Node α))

abbrev TagHandles := Table Tag

/-- What the first tokens say, and the tokens after them. -/
abbrev WithRest (α : Type) := α × List Token

namespace Node

def noProperties : Properties := ⟨none, none⟩

/-- The node where none is written. -/
def empty {α : Type} : Node α := scalar noProperties .plain ""

/-- A tag in full, if its handle is known. -/
def fullTag? (handles : TagHandles) (t : TagText) : Option Tag :=
  if t.handle = "" then some t.suffix else (handles.get? t.handle).map (· ++ t.suffix)

/-- An anchor and a tag, in either order; none if a handle is unknown. -/
def properties? (handles : TagHandles) : List Token → Option (WithRest Properties)
  | .anchor name :: .tag t :: rest => (fullTag? handles t).map fun tag => (⟨some name, some tag⟩, rest)
  | .tag t :: .anchor name :: rest => (fullTag? handles t).map fun tag => (⟨some name, some tag⟩, rest)
  | .anchor name :: rest => some (⟨some name, none⟩, rest)
  | .tag t :: rest => (fullTag? handles t).map fun tag => (⟨none, some tag⟩, rest)
  | rest => some (noProperties, rest)

/-- Whether the key or value of a block mapping ends before this token. -/
def endsBlockPart : Token → Bool
  | .key | .value | .blockEnd => true
  | _ => false

/-- Whether an entry of a block sequence ends before this token. -/
def endsBlockEntry : Token → Bool
  | .entry | .blockEnd => true
  | _ => false

/-- Whether an entry of a block sequence that is not indented ends before this token. -/
def endsFlatEntry : Token → Bool
  | .entry | .key | .value | .blockEnd => true
  | _ => false

/-- Whether a value inside square brackets ends before this token. -/
def endsSequencePart : Token → Bool
  | .comma | .sequenceEnd => true
  | _ => false

/-- Whether a value inside braces ends before this token. -/
def endsMappingPart : Token → Bool
  | .comma | .mappingEnd => true
  | _ => false

mutual

/-- A node.  Block collections may start here if `block` is set, and entries that are not indented if `flat` is. -/
def node? (handles : TagHandles) : Nat → Bool → Bool → List Token → Option (WithRest (Node String))
  | 0, _, _, _ => none
  | _ + 1, _, _, .aliasTo name :: rest => some (aliasTo name, rest)
  | fuel + 1, block, flat, ts => do
    let (p, ts) ← properties? handles ts
    match ts with
    | .entry :: _ =>
      if flat then
        let (items, rest) ← flatEntries? handles fuel ts
        return (sequence p items, rest)
      else bare? p ts
    | .scalar style text :: rest => return (scalar p style text, rest)
    | .sequenceStart :: rest =>
      let (items, rest) ← flowItems? handles fuel true rest
      return (sequence p items, rest)
    | .mappingStart :: rest =>
      let (entries, rest) ← flowEntries? handles fuel true rest
      return (mapping p entries, rest)
    | .blockSequence :: rest =>
      if block then
        let (items, rest) ← blockItems? handles fuel rest
        return (sequence p items, rest)
      else bare? p ts
    | .blockMapping :: rest =>
      if block then
        let (entries, rest) ← blockEntries? handles fuel rest
        return (mapping p entries, rest)
      else bare? p ts
    | ts => bare? p ts
where
  /-- Properties alone are those of an empty scalar. -/
  bare? (p : Properties) (ts : List Token) : Option (WithRest (Node String)) :=
    if p.anchor.isSome || p.tag.isSome then some (scalar p .plain "", ts) else none

/-- A node, or an empty one if something ends here. -/
def nodeUnless? (handles : TagHandles) :
    Nat → (Token → Bool) → Bool → Bool → List Token → Option (WithRest (Node String))
  | 0, _, _, _, _ => none
  | fuel + 1, ends, block, flat, ts =>
    if ts.head?.any ends then some (empty, ts) else node? handles fuel block flat ts

/-- A colon and the value after it, or an empty node if there is no colon. -/
def valueUnless? (handles : TagHandles) :
    Nat → (Token → Bool) → Bool → List Token → Option (WithRest (Node String))
  | 0, _, _, _ => none
  | fuel + 1, ends, block, ts =>
    match ts with
    | .value :: rest => nodeUnless? handles fuel ends block block rest
    | ts => some (empty, ts)

/-- The entries of a block sequence, and its end. -/
def blockItems? (handles : TagHandles) : Nat → List Token → Option (WithRest (List (Node String)))
  | 0, _ => none
  | fuel + 1, .entry :: rest => do
    let (n, rest) ← nodeUnless? handles fuel endsBlockEntry true false rest
    let (ns, rest) ← blockItems? handles fuel rest
    return (n :: ns, rest)
  | _ + 1, .blockEnd :: rest => some ([], rest)
  | _ + 1, _ => none

/-- The entries of a block sequence that is not indented; it ends where there are no more. -/
def flatEntries? (handles : TagHandles) : Nat → List Token → Option (WithRest (List (Node String)))
  | 0, _ => none
  | fuel + 1, .entry :: rest => do
    let (n, rest) ← nodeUnless? handles fuel endsFlatEntry true false rest
    let (ns, rest) ← flatEntries? handles fuel rest
    return (n :: ns, rest)
  | _ + 1, rest => some ([], rest)

/-- The entries of a block mapping, and its end. -/
def blockEntries? (handles : TagHandles) : Nat → List Token → Option (WithRest (List (Node String × Node String)))
  | 0, _ => none
  | fuel + 1, .key :: rest => do
    let (k, rest) ← nodeUnless? handles fuel endsBlockPart true true rest
    let (v, rest) ← valueUnless? handles fuel endsBlockPart true rest
    let (es, rest) ← blockEntries? handles fuel rest
    return ((k, v) :: es, rest)
  | _ + 1, .blockEnd :: rest => some ([], rest)
  | _ + 1, _ => none

/-- The items of a sequence in brackets, and its end. -/
def flowItems? (handles : TagHandles) : Nat → Bool → List Token → Option (WithRest (List (Node String)))
  | 0, _, _ => none
  | _ + 1, _, .sequenceEnd :: rest => some ([], rest)
  | fuel + 1, first, ts => do
    let ts ← if first then some ts else match ts with
      | .comma :: rest => some rest
      | _ => none
    match ts with
    | .sequenceEnd :: rest => return ([], rest)
    | .key :: rest =>
      let (pair, rest) ← flowPair? handles fuel rest
      let (ns, rest) ← flowItems? handles fuel false rest
      return (pair :: ns, rest)
    | ts =>
      let (n, rest) ← node? handles fuel false false ts
      let (ns, rest) ← flowItems? handles fuel false rest
      return (n :: ns, rest)

/-- A mapping of one key without braces of its own.  Where the key is left out, the token after it is lost. -/
def flowPair? (handles : TagHandles) : Nat → List Token → Option (WithRest (Node String))
  | 0, _ => none
  | fuel + 1, ts => do
    let (k, rest) ←
      match ts with
      | .value :: rest => some (empty, rest)
      | .comma :: rest => some (empty, rest)
      | .sequenceEnd :: rest => some (empty, rest)
      | ts => node? handles fuel false false ts
    let (v, rest) ← valueUnless? handles fuel endsSequencePart false rest
    return (mapping noProperties [(k, v)], rest)

/-- The entries of a mapping in braces, and its end. -/
def flowEntries? (handles : TagHandles) :
    Nat → Bool → List Token → Option (WithRest (List (Node String × Node String)))
  | 0, _, _ => none
  | _ + 1, _, .mappingEnd :: rest => some ([], rest)
  | fuel + 1, first, ts => do
    let ts ← if first then some ts else match ts with
      | .comma :: rest => some rest
      | _ => none
    match ts with
    | .mappingEnd :: rest => return ([], rest)
    | .key :: rest =>
      let ends (t : Token) : Bool := t = .value || endsMappingPart t
      let (k, rest) ← nodeUnless? handles fuel ends false false rest
      let (v, rest) ← valueUnless? handles fuel endsMappingPart false rest
      let (es, rest) ← flowEntries? handles fuel false rest
      return ((k, v) :: es, rest)
    | ts =>
      let (k, rest) ← node? handles fuel false false ts
      let (es, rest) ← flowEntries? handles fuel false rest
      return ((k, empty) :: es, rest)

end

/-! ## Documents -/

/-- What tag handles stand for if no directive says otherwise. -/
def standardHandles : TagHandles := Table.ofEntries [("!", .mark), ("!!", .core "")]

/-- The directives in front of a document; a version comes once, and a handle too. -/
def directives? (version : Bool) (handles : TagHandles) : List Token → Option (Bool × TagHandles × List Token)
  | .version major minor :: rest =>
    if version || major ≠ 1 || (minor ≠ 1 && minor ≠ 2) then none else directives? true handles rest
  | .tagHandle handle start :: rest =>
    if handles.contains handle then none else directives? version (handles.insert handle start) rest
  | rest => some (version || !handles.isEmpty, handles, rest)

/-- The content of a document after its first mark. -/
def content? (handles : TagHandles) (fuel : Nat) : List Token → Option (WithRest (Node String))
  | .documentStart :: rest => some (empty, .documentStart :: rest)
  | .documentEnd :: rest => some (empty, .documentEnd :: rest)
  | .streamEnd :: rest => some (empty, .streamEnd :: rest)
  | .version major minor :: rest => some (empty, .version major minor :: rest)
  | .tagHandle handle start :: rest => some (empty, .tagHandle handle start :: rest)
  | ts => node? handles fuel true false ts

/-- **The node of a document**, none at all if there is no document; there may not be two. -/
def ofTokens? (ts : List Token) : Option (Option (Node String)) := do
  let fuel := 4 * ts.length + 4
  let (any, handles, ts) ← directives? false [] ts
  let handles := standardHandles.foldl (fun t e => if t.contains e.1 then t else t.insert e.1 e.2) handles
  let (n, ts) ←
    match ts with
    | [.streamEnd] => if any then none else some (none, ts)
    | .documentStart :: rest => (content? handles fuel rest).map fun (n, ts) => (some n, ts)
    | ts => if any then none else (node? handles fuel true false ts).map fun (n, ts) => (some n, ts)
  match ts.dropWhile (· = .documentEnd) with
  | [.streamEnd] => return n
  | _ => none

end Node
end Eligibility.Yaml
