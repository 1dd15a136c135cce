import Eligibility.Numeral
/-!
# Places in a text

A cursor is what is left of a text and where that is.  Lines end at a line feed, a carriage return, both together, a
next-line character, or a line or paragraph separator; the last two are kept as they are, the others are read as a line
feed.
-/

namespace Eligibility.Yaml

def isBlank (c : Char) : Bool := c = ' ' || c = '\t'

def isBreak (c : Char) : Bool := c = '\n' || c = '\r' || c = '\x85' || c = '\u2028' || c = '\u2029'

/-- The characters of names of anchors, directives and tag handles. -/
def isNameChar (c : Char) : Bool := c.isAlphanum || c = '-' || c = '_'

/-- The characters that may stand in a document. -/
def isPrintable (c : Char) : Bool :=
  c = '\t' || c = '\n' || c = '\r' || (' ' ≤ c && c ≤ '~') || c = '\x85' ||
    ('\u00a0' ≤ c && c ≤ '\ufffd') || 0xffff < c.toNat

/-- What is left of a text, how many characters came before it, and its line and column. -/
structure Cursor where
  rest : List Char
  index : Nat
  line : Nat
  column : Nat

namespace Cursor

def start (text : List Char) : Cursor := ⟨text, 0, 0, 0⟩

/-- Whether there is a character that something holds of, so many places on. -/
def sees (c : Cursor) (place : Nat) (p : Char → Bool) : Bool := c.rest[place]?.any p

def isAt (c : Cursor) (ch : Char) : Bool := c.sees 0 (· = ch)

/-- Whether so many places on a line ends, the text ends, or there is a blank. -/
def gapAt (c : Cursor) (place : Nat) : Bool := c.rest[place]?.all fun ch => isBlank ch || isBreak ch

/-- Whether the line ends here, or the text. -/
def atEnd (c : Cursor) : Bool := c.rest.head?.all isBreak

def skip (c : Cursor) (count : Nat) : Cursor :=
  { c with rest := c.rest.drop count, index := c.index + count, column := c.column + count }

/-- Goes on by characters that something holds of. -/
def takeWhile (c : Cursor) (p : Char → Bool) : List Char × Cursor :=
  let taken := c.rest.takeWhile p
  (taken, c.skip taken.length)

def skipWhile (c : Cursor) (p : Char → Bool) : Cursor := (c.takeWhile p).2

/-- Goes on over a line break; what is kept of it. -/
def takeBreak (c : Cursor) : List Char × Cursor :=
  match c.rest with
  | '\r' :: '\n' :: rest => (['\n'], ⟨rest, c.index + 2, c.line + 1, 0⟩)
  | ch :: rest =>
    if ch = '\u2028' ∨ ch = '\u2029' then ([ch], ⟨rest, c.index + 1, c.line + 1, 0⟩)
    else if isBreak ch then (['\n'], ⟨rest, c.index + 1, c.line + 1, 0⟩)
    else ([], c)
  | [] => ([], c)

def skipBreak (c : Cursor) : Cursor := c.takeBreak.2

/-- Whether a line starts here with three times this character, and nothing directly after. -/
def atMark (c : Cursor) (ch : Char) : Bool := c.column = 0 && [ch, ch, ch].isPrefixOf c.rest && c.gapAt 3

/-- Whether a line starts here that divides documents. -/
def atDivider (c : Cursor) : Bool := c.atMark '-' || c.atMark '.'

/-- Goes on over a byte order mark that starts a line. -/
def skipByteOrderMark (c : Cursor) : Cursor := if c.column = 0 && c.isAt '\ufeff' then c.skip 1 else c

def skipComment (c : Cursor) : Cursor :=
  if c.isAt '#' then c.skipWhile fun ch => !isBreak ch else c

/-- Goes on to the next line; nothing but blanks and a comment may come before. -/
def endLine? (c : Cursor) : Option Cursor :=
  let c := (c.skipWhile isBlank).skipComment
  if c.atEnd then some c.skipBreak else none

end Cursor

/-- Blanks and line breaks between two parts of a scalar. -/
structure Gap where
  blanks : List Char
  broken : Bool
  first : List Char
  more : List Char

namespace Gap

def none : Gap := ⟨[], false, [], []⟩

/-- What a gap stands for: blanks themselves, a single line break one blank, and of several all but the first. -/
def text (g : Gap) : List Char :=
  if g.broken then
    if g.first = ['\n'] then if g.more.isEmpty then [' '] else g.more else g.first ++ g.more
  else g.blanks

/-- Reads a gap on.  After a line break a tab may not stand before the column `indent`. -/
def read? (indent : Int) : Nat → Gap → Cursor → Option (Gap × Cursor)
  | 0, _, _ => Option.none
  | fuel + 1, g, c =>
    match c.rest.head? with
    | Option.none => some (g, c)
    | some ch =>
      if isBlank ch then
        if g.broken then
          if ch = '\t' && (c.column : Int) < indent then Option.none else read? indent fuel g (c.skip 1)
        else read? indent fuel { g with blanks := g.blanks ++ [ch] } (c.skip 1)
      else if isBreak ch then
        let (kept, c) := c.takeBreak
        if g.broken then read? indent fuel { g with more := g.more ++ kept } c
        else read? indent fuel { g with blanks := [], first := kept, broken := true } c
      else some (g, c)

end Gap
end Eligibility.Yaml
