import Eligibility.Json.NumberText
/-!
# JSON texts as they are written

`Written.read?` accepts exactly the texts of the grammar and keeps what it finds: numbers of any size, members in
order and with their repetitions, and strings whose escapes may fail to make characters.  `Written.toJson?` is the
value: numbers must be finite, strings whole, nesting at most 127 deep, and of members with one key the last stays.
-/

namespace Eligibility.Json

/-- A JSON text, read by its grammar alone. -/
inductive Written where
  | null
  | bool (b : Bool)
  | number (n : NumberText)
  | string (content : Option String)
  | array (items : List Written)
  | object (members : List (Option String × Written))

namespace Written

def isBlank (c : Char) : Bool := c = ' ' || c = '\n' || c = '\t' || c = '\r'

def skipBlanks (text : List Char) : List Char := text.dropWhile isBlank

/-! ## Strings -/

/-- A piece of a string: a character, or a 16-bit unit given by its number. -/
inductive Piece where
  | char (c : Char)
  | unit (n : Nat)

/-- The pieces up to the closing quote, and what follows it. -/
def pieces? : List Char → Option (List Piece × List Char)
  | [] => none
  | '"' :: rest => some ([], rest)
  | '\\' :: 'u' :: a :: b :: c :: d :: rest =>
    (Numeral.ofDigits? 16 [a, b, c, d]).bind fun n => (pieces? rest).map fun (ps, rest) => (.unit n :: ps, rest)
  | '\\' :: c :: rest =>
    (unescape? c).bind fun c => (pieces? rest).map fun (ps, rest) => (.char c :: ps, rest)
  | c :: rest => if c < ' ' ∨ c = '\\' then none else (pieces? rest).map fun (ps, rest) => (.char c :: ps, rest)
where
  /-- The character that a letter after a backslash stands for. -/
  unescape? (c : Char) : Option Char :=
    if c = '"' ∨ c = '\\' ∨ c = '/' then some c
    else if c = 'b' then some '\x08'
    else if c = 'f' then some '\x0c'
    else if c = 'n' then some '\n'
    else if c = 'r' then some '\r'
    else if c = 't' then some '\t'
    else none

def isLeading (n : Nat) : Bool := 0xd800 ≤ n && n < 0xdc00

def isTrailing (n : Nat) : Bool := 0xdc00 ≤ n && n < 0xe000

/-- The characters of pieces; units beyond 16 bits come in pairs. -/
def join? : List Piece → Option (List Char)
  | [] => some []
  | .char c :: rest => (join? rest).map (c :: ·)
  | .unit n :: .unit m :: rest =>
    if isLeading n && isTrailing m then
      (join? rest).map (Char.ofNat (0x10000 + (n - 0xd800) * 0x400 + (m - 0xdc00)) :: ·)
    else if isLeading n || isTrailing n then none
    else (join? (.unit m :: rest)).map (Char.ofNat n :: ·)
  | .unit n :: rest => if isLeading n || isTrailing n then none else (join? rest).map (Char.ofNat n :: ·)

/-- A string after its opening quote: the text it stands for, and what follows it. -/
def string? (text : List Char) : Option (Option String × List Char) :=
  (pieces? text).map fun (ps, rest) => ((join? ps).map String.ofList, rest)

/-! ## Values -/

/-- A word in front of a text, and what follows it. -/
def afterWord? (word : String) (text : List Char) : Option (List Char) :=
  if word.toList.isPrefixOf text then some (text.drop word.toList.length) else none

mutual

/-- A value, and what follows it.  Every step but the one to an element uses up a character. -/
def value? : Nat → List Char → Option (Written × List Char)
  | 0, _ => none
  | fuel + 1, text =>
    match skipBlanks text with
    | [] => none
    | '"' :: rest => (string? rest).map fun (content, rest) => (.string content, rest)
    | '[' :: rest =>
      match skipBlanks rest with
      | ']' :: rest => some (.array [], rest)
      | rest => (items? fuel rest).map fun (items, rest) => (.array items, rest)
    | '\x7b' :: rest =>
      match skipBlanks rest with
      | '\x7d' :: rest => some (.object [], rest)
      | rest => (members? fuel rest).map fun (members, rest) => (.object members, rest)
    | 't' :: rest => (afterWord? "rue" rest).map fun rest => (.bool true, rest)
    | 'f' :: rest => (afterWord? "alse" rest).map fun rest => (.bool false, rest)
    | 'n' :: rest => (afterWord? "ull" rest).map fun rest => (.null, rest)
    | text => (NumberText.read? text).map fun (n, rest) => (.number n, rest)

/-- One element at least, and what follows the closing bracket. -/
def items? : Nat → List Char → Option (List Written × List Char)
  | 0, _ => none
  | fuel + 1, text => do
    let (v, rest) ← value? fuel text
    match skipBlanks rest with
    | ',' :: rest =>
      let (vs, rest) ← items? fuel rest
      return (v :: vs, rest)
    | ']' :: rest => return ([v], rest)
    | _ => none

/-- One member at least, and what follows the closing brace. -/
def members? : Nat → List Char → Option (List (Option String × Written) × List Char)
  | 0, _ => none
  | fuel + 1, text =>
    match skipBlanks text with
    | '"' :: rest => do
      let (key, rest) ← string? rest
      match skipBlanks rest with
      | ':' :: rest =>
        let (v, rest) ← value? fuel rest
        match skipBlanks rest with
        | ',' :: rest =>
          let (vs, rest) ← members? fuel rest
          return ((key, v) :: vs, rest)
        | '\x7d' :: rest => return ([(key, v)], rest)
        | _ => none
      | _ => none
    | _ => none

end

/-- **The text of one value, with blanks around it.** -/
def read? (text : String) : Option Written :=
  match value? (2 * text.length + 2) text.toList with
  | some (v, rest) => if (skipBlanks rest).isEmpty then some v else none
  | none => none

/-! ## Meaning -/

/-- How deep arrays and objects may nest. -/
def maxNesting : Nat := 127

mutual

/-- The value, with at most so many levels of nesting. -/
def toJsonWithin? : Nat → Written → Option Json
  | _, .null => some .null
  | _, .bool b => some (.bool b)
  | _, .number n => n.toNumber?.map .number
  | _, .string content => content.map .string
  | 0, .array _ => none
  | levels + 1, .array items => (itemsWithin? levels items).map .array
  | 0, .object _ => none
  | levels + 1, .object members => (membersWithin? levels members []).map .object

def itemsWithin? : Nat → List Written → Option (List Json)
  | _, [] => some []
  | levels, v :: rest => do
    let v ← toJsonWithin? levels v
    let rest ← itemsWithin? levels rest
    return v :: rest

/-- Puts members into a table, one after the other. -/
def membersWithin? : Nat → List (Option String × Written) → Table Json → Option (Table Json)
  | _, [], table => some table
  | levels, (key, v) :: rest, table => do
    let key ← key
    let v ← toJsonWithin? levels v
    membersWithin? levels rest (table.insert key v)

end

/-- **The value of a text.** -/
def toJson? (w : Written) : Option Json := toJsonWithin? maxNesting w

end Written

/-- **The value that a JSON text writes.** -/
def read? (text : String) : Option Json := (Written.read? text).bind Written.toJson?

end Eligibility.Json
