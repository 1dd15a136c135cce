import Eligibility.Yaml.Token.Property
import Eligibility.Yaml.Token.Scalar
/-!
# Reading tokens

Indentation opens and closes block collections.  Whether a scalar is the key of a mapping shows only at the colon after
it, so each place that may turn out to be a key is remembered, one for each level of brackets, and the mark of the key
is put in front of it then.  Such a place lasts to the end of its line and for 1024 characters.
-/

namespace Eligibility.Yaml

/-- A place that a key may start at. -/
structure KeyPlace where
  /-- Whether only a key can stand there. -/
  required : Bool
  /-- How many tokens come before. -/
  token : Nat
  index : Nat
  line : Nat
  column : Nat

/-- The state between two tokens. -/
structure Lexer where
  cursor : Cursor
  /-- The indentation of the innermost block collection, minus one outside of all. -/
  indent : Int
  outerIndents : List Int
  keyAllowed : Bool
  /-- Places of keys, of the innermost level of brackets first. -/
  key : Option KeyPlace
  outerKeys : List (Option KeyPlace)
  /-- The tokens so far, the last first, and their number. -/
  tokens : List Token
  count : Nat

namespace Lexer

def start (text : List Char) : Lexer := ⟨.start text, -1, [], true, none, [], [], 0⟩

def inFlow (l : Lexer) : Bool := !l.outerKeys.isEmpty

def emit (t : Token) (l : Lexer) : Lexer := { l with tokens := t :: l.tokens, count := l.count + 1 }

/-- Puts a token in front of those that come after the first `place`. -/
def insertAt (place : Nat) (t : Token) (l : Lexer) : Lexer :=
  let after := l.count - place
  { l with tokens := l.tokens.take after ++ t :: l.tokens.drop after, count := l.count + 1 }

/-- Goes on by characters and adds a token. -/
def take (count : Nat) (t : Token) (l : Lexer) : Lexer := { l with cursor := l.cursor.skip count }.emit t

/-! ## Indentation -/

/-- Opens a block collection at a column that is deeper than the innermost one. -/
def openBlock (column : Nat) (place : Nat) (t : Token) (l : Lexer) : Lexer :=
  if !l.inFlow && l.indent < column then
    { l with indent := column, outerIndents := l.indent :: l.outerIndents }.insertAt place t
  else l

/-- How many block collections end before a column, and the indentations that are left. -/
def closing (column : Int) : Int → List Int → Nat × Int × List Int
  | indent, [] => (0, indent, [])
  | indent, outer :: rest =>
    if column < indent then
      let (count, left) := closing column outer rest
      (count + 1, left)
    else (0, indent, outer :: rest)

/-- Closes the block collections that are deeper than a column. -/
def closeBlocks (column : Int) (l : Lexer) : Lexer :=
  if l.inFlow then l
  else
    let (count, indent, outer) := closing column l.indent l.outerIndents
    { l with
      indent := indent
      outerIndents := outer
      tokens := List.replicate count Token.blockEnd ++ l.tokens
      count := l.count + count }

/-! ## Places of keys -/

/-- Gives up the place of a key; one where only a key can stand cannot be given up. -/
def dropKey? (l : Lexer) : Option Lexer :=
  if l.key.any KeyPlace.required then none else some { l with key := none }

/-- Remembers this place as that of a key, if one may stand here. -/
def saveKey? (l : Lexer) : Option Lexer :=
  if l.keyAllowed then do
    let c := l.cursor
    let l ← l.dropKey?
    return { l with key := some ⟨!l.inFlow && l.indent == c.column, l.count, c.index, c.line, c.column⟩ }
  else some l

/-- The place of a key, if it is still good. -/
def fresh? (c : Cursor) : Option KeyPlace → Option (Option KeyPlace)
  | none => some none
  | some k =>
    if k.line < c.line || k.index + 1024 < c.index then if k.required then none else some none else some (some k)

/-- Gives up the places of keys that are too far behind. -/
def dropStale? (l : Lexer) : Option Lexer := do
  return { l with key := ← fresh? l.cursor l.key, outerKeys := ← l.outerKeys.mapM (fresh? l.cursor) }

/-! ## Tokens -/

/-- Goes on over blanks, comments and line breaks.  Tabs do not count as blanks where a key may start a line. -/
def skipGap : Nat → Lexer → Lexer
  | 0, l => l
  | fuel + 1, l =>
    let tabs := l.inFlow || !l.keyAllowed
    let c := (l.cursor.skipByteOrderMark.skipWhile fun ch => ch = ' ' || (tabs && ch = '\t')).skipComment
    if c.sees 0 isBreak then
      skipGap fuel { l with cursor := c.skipBreak, keyAllowed := l.keyAllowed || !l.inFlow }
    else { l with cursor := c }

/-- Adds the token that ends or divides documents, after closing all that is open. -/
def divide? (count : Nat) (t : Token) (l : Lexer) : Option Lexer := do
  let l ← (l.closeBlocks (-1)).dropKey?
  return { l with keyAllowed := false }.take count t

def directive? (l : Lexer) : Option Lexer := do
  let l ← (l.closeBlocks (-1)).dropKey?
  let (t, c) ← l.cursor.directive?
  return { l with keyAllowed := false, cursor := c }.emit t

def openFlow? (t : Token) (l : Lexer) : Option Lexer := do
  let l ← l.saveKey?
  return { l with outerKeys := l.key :: l.outerKeys, key := none, keyAllowed := true }.take 1 t

def closeFlow? (t : Token) (l : Lexer) : Option Lexer := do
  let l ← l.dropKey?
  let l := match l.outerKeys with
    | [] => l
    | k :: rest => { l with key := k, outerKeys := rest }
  return { l with keyAllowed := false }.take 1 t

def comma? (l : Lexer) : Option Lexer := do
  let l ← l.dropKey?
  return { l with keyAllowed := true }.take 1 .comma

/-- Opens a block collection here, where its first indicator stands. -/
def openHere? (t : Token) (l : Lexer) : Option Lexer :=
  if l.inFlow then some l
  else if l.keyAllowed then some (l.openBlock l.cursor.column l.count t)
  else none

def entry? (l : Lexer) : Option Lexer := do
  let l ← (← l.openHere? .blockSequence).dropKey?
  return { l with keyAllowed := true }.take 1 .entry

def key? (l : Lexer) : Option Lexer := do
  let l ← (← l.openHere? .blockMapping).dropKey?
  return { l with keyAllowed := !l.inFlow }.take 1 .key

/-- A colon: what stands at the place remembered is the key. -/
def value? (l : Lexer) : Option Lexer := do
  match l.key with
  | some k =>
    let l := (l.insertAt k.token .key).openBlock k.column k.token .blockMapping
    return { l with key := none, keyAllowed := false }.take 1 .value
  | none =>
    let l ← l.openHere? .blockMapping
    return { l with keyAllowed := !l.inFlow }.take 1 .value

/-- A token that may be a key, or a property of one. -/
def property? (read : Cursor → Option (Token × Cursor)) (l : Lexer) : Option Lexer := do
  let l ← l.saveKey?
  let (t, c) ← read l.cursor
  return { l with keyAllowed := false, cursor := c }.emit t

def scalar (style : Style) (text : List Char) : Token := .scalar style (String.ofList text)

def quoted? (quote : Char) (l : Lexer) : Option Lexer :=
  l.property? fun c => (c.quoted? quote).map fun (text, c) => (scalar .quoted text, c)

def block? (folded : Bool) (l : Lexer) : Option Lexer := do
  let l ← l.dropKey?
  let (text, c) ← l.cursor.block? folded l.indent
  return { l with keyAllowed := true, cursor := c }.emit (scalar (if folded then .folded else .literal) text)

def plain? (l : Lexer) : Option Lexer := do
  let l ← l.saveKey?
  let (text, broken, c) ← l.cursor.plain? l.inFlow (l.indent + 1)
  return { l with keyAllowed := broken, cursor := c }.emit (scalar .plain text)

/-- Whether a plain scalar starts here. -/
def startsPlain (l : Lexer) (ch : Char) : Bool :=
  let c := l.cursor
  if ch = '-' then !c.sees 1 isBlank
  else if ch = '?' ∨ ch = ':' then !l.inFlow && !c.gapAt 1
  else !isBlank ch && !",[]\x7b\x7d#&*!|>'\"%@`".toList.contains ch

/-- The token that starts with this character. -/
def token? (l : Lexer) (ch : Char) : Option Lexer :=
  let c := l.cursor
  let indicates := l.inFlow || c.gapAt 1
  if c.column = 0 && ch = '%' then l.directive?
  else if c.atMark '-' then l.divide? 3 .documentStart
  else if c.atMark '.' then l.divide? 3 .documentEnd
  else if ch = '[' then l.openFlow? .sequenceStart
  else if ch = '\x7b' then l.openFlow? .mappingStart
  else if ch = ']' then l.closeFlow? .sequenceEnd
  else if ch = '\x7d' then l.closeFlow? .mappingEnd
  else if ch = ',' then l.comma?
  else if ch = '-' && c.gapAt 1 then l.entry?
  else if ch = '?' && indicates then l.key?
  else if ch = ':' && indicates then l.value?
  else if ch = '*' then l.property? fun c => (c.skip 1).anchorName?.map fun (name, c) => (.aliasTo name, c)
  else if ch = '&' then l.property? fun c => (c.skip 1).anchorName?.map fun (name, c) => (.anchor name, c)
  else if ch = '!' then l.property? fun c => (c.tag? l.inFlow).map fun (t, c) => (.tag t, c)
  else if ch = '|' && !l.inFlow then l.block? false
  else if ch = '>' && !l.inFlow then l.block? true
  else if ch = '\'' ∨ ch = '"' then l.quoted? ch
  else if l.startsPlain ch then l.plain?
  else none

/-- Goes on to the next token and adds it, and says whether it was the last. -/
def step? (l : Lexer) : Option (Bool × Lexer) := do
  let l ← (l.skipGap (l.cursor.rest.length + 1)).dropStale?
  let l := l.closeBlocks l.cursor.column
  match l.cursor.rest.head? with
  | none => return (true, (← (l.closeBlocks (-1)).dropKey?).emit .streamEnd)
  | some ch => return (false, ← l.token? ch)

/-- All tokens from here on. -/
def run? : Nat → Lexer → Option (List Token)
  | 0, _ => none
  | fuel + 1, l => do
    let (last, l) ← l.step?
    if last then return l.tokens.reverse else run? fuel l

end Lexer

/-- **The tokens of a text.**  Control characters are refused. -/
def tokens? (text : List Char) : Option (List Token) :=
  if text.all isPrintable then (Lexer.start text).run? (text.length + 2) else none

end Eligibility.Yaml
