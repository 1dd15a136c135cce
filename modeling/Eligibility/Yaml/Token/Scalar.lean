import Eligibility.Yaml.Cursor
/-!
# Scalars

Plain and quoted scalars fold the line breaks inside them; block scalars have an indentation of their own and a rule
for the breaks at their end.
-/

namespace Eligibility.Yaml.Cursor

/-! ## Plain scalars -/

/-- Indicators of collections inside brackets. -/
def isFlowIndicator (c : Char) : Bool := c = ',' || c = '[' || c = ']' || c = '\x7b' || c = '\x7d'

/-- The characters up to a gap or the end of the scalar.  Inside brackets a colon may not stand before an indicator. -/
def plainRun? (inFlow : Bool) : List Char → Option (List Char)
  | [] => some []
  | ch :: rest =>
    let gapAfter := rest.head?.all fun n => isBlank n || isBreak n
    if isBlank ch || isBreak ch then some []
    else if inFlow && ch = ':' && rest.head?.any (fun n => isFlowIndicator n || n = '?') then none
    else if ch = ':' && gapAfter then some []
    else if inFlow && isFlowIndicator ch then some []
    else (plainRun? inFlow rest).map (ch :: ·)

/-- A plain scalar, read from `text` on after a gap; whether it ends with a line break. -/
def plainFrom? (inFlow : Bool) (indent : Int) : Nat → List Char → Gap → Cursor → Option (List Char × Bool × Cursor)
  | 0, _, _, _ => none
  | fuel + 1, text, gap, c =>
    if c.atDivider || c.isAt '#' then some (text, gap.broken, c)
    else do
      let run ← plainRun? inFlow c.rest
      let (text, gap) := if run.isEmpty then (text, gap) else (text ++ gap.text ++ run, .none)
      let c := c.skip run.length
      if c.rest.isEmpty || !c.gapAt 0 then return (text, gap.broken, c)
      let (gap, c) ← Gap.read? indent (c.rest.length + 1) gap c
      if !inFlow && (c.column : Int) < indent then return (text, gap.broken, c)
      plainFrom? inFlow indent fuel text gap c

/-- **A plain scalar**, and whether a line break follows it. -/
def plain? (inFlow : Bool) (indent : Int) (c : Cursor) : Option (List Char × Bool × Cursor) :=
  plainFrom? inFlow indent (c.rest.length + 1) [] .none c

/-! ## Quoted scalars -/

/-- What a character after a backslash stands for. -/
def escaped? (c : Char) : Option Char :=
  match c with
  | '0' => some '\x00'
  | 'a' => some '\x07'
  | 'b' => some '\x08'
  | 't' | '\t' => some '\t'
  | 'n' => some '\n'
  | 'v' => some '\x0b'
  | 'f' => some '\x0c'
  | 'r' => some '\r'
  | 'e' => some '\x1b'
  | ' ' | '"' | '/' | '\\' => some c
  | 'N' => some '\x85'
  | '_' => some '\u00a0'
  | 'L' => some '\u2028'
  | 'P' => some '\u2029'
  | _ => none

/-- How many hexadecimal digits follow a character after a backslash. -/
def codeLength? (c : Char) : Option Nat :=
  match c with
  | 'x' => some 2
  | 'u' => some 4
  | 'U' => some 8
  | _ => none

/-- The character of a number, if it is one. -/
def charOf? (n : Nat) : Option Char := if n.isValidChar then some (Char.ofNat n) else none

/-- The characters of a quoted scalar up to a gap or the closing quote, and whether a line break was escaped there. -/
def quotedRun? (quote : Char) : Nat → Cursor → Option (List Char × Bool × Cursor)
  | 0, _ => none
  | fuel + 1, c =>
    let cons (ch : Char) (run : List Char × Bool × Cursor) : List Char × Bool × Cursor := (ch :: run.1, run.2)
    match c.rest with
    | [] => some ([], false, c)
    | ch :: rest =>
      if isBlank ch || isBreak ch then some ([], false, c)
      else if quote = '\'' && ch = '\'' && rest.head? == some '\'' then
        (quotedRun? quote fuel (c.skip 2)).map (cons '\'')
      else if ch = quote then some ([], false, c)
      else if quote = '"' && ch = '\\' then
        match rest with
        | [] => none
        | e :: digits =>
          if isBreak e then some ([], true, (c.skip 1).skipBreak)
          else match codeLength? e with
            | some length => do
              let n ← Numeral.ofDigits? 16 (digits.take length)
              let ch ← if (digits.take length).length = length then charOf? n else none
              (quotedRun? quote fuel (c.skip (2 + length))).map (cons ch)
            | none => do
              let ch ← escaped? e
              (quotedRun? quote fuel (c.skip 2)).map (cons ch)
      else (quotedRun? quote fuel (c.skip 1)).map (cons ch)

/-- A quoted scalar, read from `text` on. -/
def quotedFrom? (quote : Char) : Nat → List Char → Cursor → Option (List Char × Cursor)
  | 0, _, _ => none
  | fuel + 1, text, c =>
    if c.atDivider || c.rest.isEmpty then none
    else do
      let (run, escapedBreak, c) ← quotedRun? quote (c.rest.length + 1) c
      let text := text ++ run
      if c.isAt quote then return (text, c.skip 1)
      let (gap, c) ← Gap.read? 0 (c.rest.length + 1) { Gap.none with broken := escapedBreak } c
      quotedFrom? quote fuel (text ++ gap.text) c

/-- **A quoted scalar**, from its opening quote on. -/
def quoted? (quote : Char) (c : Cursor) : Option (List Char × Cursor) :=
  quotedFrom? quote (c.rest.length + 1) [] (c.skip 1)

/-! ## Block scalars -/

/-- What becomes of the line breaks at the end of a block scalar. -/
inductive Chomping where
  | strip
  | clip
  | keep
  deriving DecidableEq

def chomping? (c : Cursor) : Option Chomping × Cursor :=
  if c.isAt '+' then (some .keep, c.skip 1) else if c.isAt '-' then (some .strip, c.skip 1) else (none, c)

/-- A digit of an indentation; zero is none. -/
def increment? (c : Cursor) : Option (Option Nat × Cursor) :=
  match c.rest.head?.bind (Numeral.digitOf? 10) with
  | none => some (none, c)
  | some 0 => none
  | some d => some (some d, c.skip 1)

/-- The indicators after the first character of a block scalar, in either order. -/
def blockHeader? (c : Cursor) : Option (Chomping × Option Nat × Cursor) := do
  match chomping? c with
  | (some chomping, c) =>
    let (increment, c) ← increment? c
    return (chomping, increment, c)
  | (none, c) =>
    let (increment, c) ← increment? c
    match increment with
    | none => return (.clip, none, c)
    | some d =>
      let (chomping, c) := chomping? c
      return (chomping.getD .clip, some d, c)

/-- Blank lines, and the indentation of the line after them.  With no indentation known so far, tabs may not indent
and the deepest of the lines counts. -/
def blankLines? (indent : Option Nat) : Nat → Nat → List Char → Cursor → Option (List Char × Nat × Cursor)
  | 0, _, _, _ => none
  | fuel + 1, deepest, breaks, c =>
    let c := match indent with
      | some n => c.skip (min (n - c.column) (c.rest.takeWhile (· = ' ')).length)
      | none => c.skipWhile (· = ' ')
    let deepest := max deepest c.column
    let indenting := indent.all fun n => c.column < n
    if indenting && c.isAt '\t' then none
    else if c.sees 0 isBreak then
      let (kept, c) := c.takeBreak
      blankLines? indent fuel deepest (breaks ++ kept) c
    else some (breaks, deepest, c)

/-- What has been read of a block scalar: its text, the break after its last line, the breaks of blank lines after
that, and whether the last line starts with a blank. -/
structure Block where
  text : List Char
  last : List Char
  blank : List Char
  indented : Bool

/-- Lines of a block scalar that stand at its indentation. -/
def blockLines? (folded : Bool) (indent : Nat) : Nat → Block → Cursor → Option (Block × Cursor)
  | 0, _, _ => none
  | fuel + 1, b, c =>
    if c.column ≠ indent ∨ c.rest.isEmpty then some (b, c)
    else do
      let indented := c.sees 0 isBlank
      let joint :=
        if folded && b.last == ['\n'] && !b.indented && !indented then if b.blank.isEmpty then [' '] else []
        else b.last
      let (line, c) := c.takeWhile fun ch => !isBreak ch
      let (last, c) := c.takeBreak
      let (blank, _, c) ← blankLines? (some indent) (c.rest.length + 1) 0 [] c
      blockLines? folded indent fuel ⟨b.text ++ joint ++ b.blank ++ line, last, blank, indented⟩ c

/-- **A block scalar** inside a collection of some indentation, from its indicator on. -/
def block? (folded : Bool) (outer : Int) (c : Cursor) : Option (List Char × Cursor) := do
  let (chomping, increment, c) ← blockHeader? (c.skip 1)
  let c ← c.endLine?
  let known := increment.map fun d => (if 0 ≤ outer then outer + d else d).toNat
  let (blank, deepest, c) ← blankLines? known (c.rest.length + 1) 0 [] c
  let indent := known.getD (max deepest (max (outer + 1) 1).toNat)
  let (b, c) ← blockLines? folded indent (c.rest.length + 1) ⟨[], [], blank, false⟩ c
  let last := if chomping = .strip then [] else b.last
  let blank := if chomping = .keep then b.blank else []
  return (b.text ++ last ++ blank, c)

end Eligibility.Yaml.Cursor
