import Eligibility.Power
import Eligibility.Yaml.Cursor
import Eligibility.Yaml.Token.Basic
/-!
# Anchors, tags and directives
-/

namespace Eligibility.Yaml.Cursor

/-- The name of an anchor or an alias, after its indicator. -/
def anchorName? (c : Cursor) : Option (String × Cursor) :=
  let (name, c) := c.takeWhile isNameChar
  let mayFollow (ch : Char) : Bool := "?:,]\x7d%@`".toList.contains ch
  if !name.isEmpty && (c.gapAt 0 || c.sees 0 mayFollow) then some (String.ofList name, c) else none

/-! ## Tags -/

/-- The characters of a tag; verbatim ones may hold indicators of collections. -/
def isTagChar (verbatim : Bool) (c : Char) : Bool :=
  isNameChar c || ";/?:@&=+$.%!~*'()".toList.contains c || (verbatim && (c = ',' || c = '[' || c = ']'))

/-- The octets that percent signs with two digits write, and what follows them. -/
def percentOctets? : Nat → List Char → Option (List UInt8 × List Char)
  | 0, rest => some ([], rest)
  | count + 1, '%' :: a :: b :: rest => do
    let n ← Numeral.ofDigits? 16 [a, b]
    let (os, rest) ← percentOctets? count rest
    return (.ofNat n :: os, rest)
  | _ + 1, _ => none

/-- How many octets belong together if this is the first of them. -/
def groupLength? (first : UInt8) : Option Nat :=
  if first < 0x80 then some 1
  else if first < 0xc0 then none
  else if first < 0xe0 then some 2
  else if first < 0xf0 then some 3
  else if first < 0xf8 then some 4
  else none

/-- A group of octets after percent signs.  They need not write a character, but the later ones are such as may follow
the first of one. -/
def percentGroup? (text : List Char) : Option (List UInt8 × List Char) := do
  let (firsts, _) ← percentOctets? 1 text
  let length ← firsts.head?.bind groupLength?
  let (octets, rest) ← percentOctets? length text
  if (octets.drop 1).all fun o => 0x80 ≤ o && o < 0xc0 then return (octets, rest) else none

/-- The octets of a tag. -/
def tagOctetsFrom? (verbatim : Bool) : Nat → Cursor → Option (List UInt8 × Cursor)
  | 0, _ => none
  | fuel + 1, c =>
    match c.rest with
    | [] => some ([], c)
    | ch :: _ =>
      if !isTagChar verbatim ch then some ([], c)
      else do
        let (octets, next) ←
          if ch = '%' then
            (percentGroup? c.rest).map fun (octets, rest) => (octets, c.skip (c.rest.length - rest.length))
          else some (String.utf8EncodeChar ch, c.skip 1)
        let (more, c) ← tagOctetsFrom? verbatim fuel next
        return (octets ++ more, c)

def tagOctets? (verbatim : Bool) (c : Cursor) : Option (List UInt8 × Cursor) :=
  tagOctetsFrom? verbatim (c.rest.length + 1) c

/-- A handle: an exclamation mark and a name, and the mark again if it is there. -/
def tagHandle? (c : Cursor) : Option (List Char × Cursor) :=
  if c.isAt '!' then
    let (name, c) := (c.skip 1).takeWhile isNameChar
    if c.isAt '!' then some ('!' :: (name ++ ['!']), c.skip 1) else some ('!' :: name, c)
  else none

/-- A tag in angle brackets. -/
def verbatimTag? (c : Cursor) : Option (TagText × Cursor) := do
  let (octets, c) ← tagOctets? true (c.skip 2)
  if !octets.isEmpty && c.isAt '>' then return (⟨"", .ofOctets octets⟩, c.skip 1) else none

/-- A tag with a handle, or one whose handle is the exclamation mark alone. -/
def shortTag? (c : Cursor) : Option (TagText × Cursor) := do
  let (handle, c) ← tagHandle? c
  let (octets, c) ← tagOctets? false c
  if 1 < handle.length && handle.getLast? == some '!' then
    if octets.isEmpty then none else return (⟨String.ofList handle, .ofOctets octets⟩, c)
  else
    let suffix := Tag.ofString (String.ofList (handle.drop 1)) ++ .ofOctets octets
    return (if suffix.octets.isEmpty then ⟨"", .mark⟩ else ⟨"!", suffix⟩, c)

/-- **A tag**, from its exclamation mark on. -/
def tag? (inFlow : Bool) (c : Cursor) : Option (TagText × Cursor) := do
  let (t, c) ← if c.sees 1 (· = '<') then verbatimTag? c else shortTag? c
  if c.gapAt 0 || (inFlow && c.isAt ',') then return (t, c) else none

/-! ## Directives -/

/-- A number of a version: one to nine digits. -/
def versionNumber? (c : Cursor) : Option (Nat × Cursor) :=
  let (digits, c) := c.takeWhile Char.isDigit
  if 0 < digits.length ∧ digits.length ≤ 9 then some (Numeral.value digits, c) else none

def version? (c : Cursor) : Option (Token × Cursor) := do
  let (major, c) ← versionNumber? (c.skipWhile isBlank)
  if c.isAt '.' then
    let (minor, c) ← versionNumber? (c.skip 1)
    return (.version major minor, c)
  else none

def tagDirective? (c : Cursor) : Option (Token × Cursor) := do
  let (handle, c) ← tagHandle? (c.skipWhile isBlank)
  if handle = ['!'] ∨ (1 < handle.length ∧ handle.getLast? = some '!') then
    if c.sees 0 isBlank then
      let (octets, c) ← tagOctets? true (c.skipWhile isBlank)
      if !octets.isEmpty && c.gapAt 0 then return (.tagHandle (String.ofList handle) (.ofOctets octets), c)
      else none
    else none
  else none

/-- **A directive**, from its percent sign to the end of its line. -/
def directive? (c : Cursor) : Option (Token × Cursor) := do
  let (name, c) := (c.skip 1).takeWhile isNameChar
  if !c.gapAt 0 then none
  else
    let (token, c) ←
      if name = "YAML".toList then version? c else if name = "TAG".toList then tagDirective? c else none
    return (token, ← c.endLine?)

end Eligibility.Yaml.Cursor
