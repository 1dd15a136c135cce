import Eligibility.Basket.Offer
import Eligibility.Json.Written
/-!
# Reading baskets

Documents of several kinds hold baskets.  A `Source` says how one kind of document shows records, lists, texts,
quantities and money; what a basket is made of is said once, over any source.
-/

namespace Eligibility

/-- The parts of a record: in order, or by name. -/
inductive Parts (δ : Type) where
  | ordered (parts : List δ)
  | named (parts : List (String × δ))

/-- What nodes of a kind of document can be read as. -/
structure Source (δ : Type) where
  parts? : δ → Option (Parts δ)
  list? : δ → Option (List δ)
  text? : δ → Option String
  quantity? : δ → Option Quantity
  money? : δ → Option Decimal
  /-- Nothing, if a node stands for something that is left out. -/
  optional? : δ → Option (Option δ)

namespace Parts

variable {δ α : Type}

/-- The part at a place and of a name, if there is one; of one name there may not be two. -/
def part? (p : Parts δ) (place : Nat) (name : String) : Option (Option δ) :=
  match p with
  | ordered parts => some parts[place]?
  | named parts =>
    match parts.filter fun e => e.1 == name with
    | [] => some none
    | [e] => some (some e.2)
    | _ => none

/-- A part that has to be there. -/
def required (p : Parts δ) (place : Nat) (name : String) (read : δ → Option α) : Option α :=
  (p.part? place name).bind fun d => d.bind read

/-- A part that may be left out. -/
def optional (p : Parts δ) (place : Nat) (name : String) (read : δ → Option α) (otherwise : α) : Option α :=
  (p.part? place name).bind fun d =>
    match d with
    | some d => read d
    | none => some otherwise

/-- Whether parts in order are no more than so many. -/
def fits (p : Parts δ) (count : Nat) : Bool :=
  match p with
  | ordered parts => parts.length ≤ count
  | named _ => true

end Parts

namespace Source

variable {δ : Type} (s : Source δ)

/-- A line is a list of exactly four. -/
def line? (d : δ) : Option BasketLine := do
  match ← s.list? d with
  | [quantity, sku, unitPrice, total] =>
    return ⟨← s.quantity? quantity, ← s.text? sku, ← s.money? unitPrice, ← s.money? total⟩
  | _ => none

def lines? (d : δ) : Option (List BasketLine) := (s.list? d).bind fun ds => ds.mapM s.line?

def texts? (d : δ) : Option (List String) := (s.list? d).bind fun ds => ds.mapM s.text?

def name? (d : δ) : Option (Option String) := (s.optional? d).bind fun d => d.mapM s.text?

/-- **A basket.**  Each of its parts may be left out. -/
def basket? (d : δ) : Option Basket := do
  let parts ← s.parts? d
  if parts.fits 3 then
    return ⟨← parts.optional 0 "partner" s.name? none, ← parts.optional 1 "offer_skus" s.texts? [],
      ← parts.optional 2 "items" s.lines? []⟩
  else none

def products? (d : δ) : Option (Table Quantity) := do
  match ← s.parts? d with
  | .named parts => (parts.mapM fun e => (s.quantity? e.2).map fun q => (e.1, q)).map Table.ofEntries
  | .ordered _ => none

/-- **An offer.**  It has both of its parts. -/
def offer? (d : δ) : Option Offer := do
  let parts ← s.parts? d
  if parts.fits 2 then return ⟨← parts.required 0 "products" s.products?, ← parts.required 1 "spend" s.money?⟩
  else none

end Source

namespace Json

def quantity? : Json → Option Quantity
  | .number (.integer n) => if n.value < 0 then none else Quantity.ofNat? n.value.toNat
  | _ => none

def money? : Json → Option Decimal
  | .number (.integer n) => Decimal.ofInt? n.value
  | .number (.real x) => Decimal.ofReal? x
  | .string s => Decimal.read? s
  | _ => none

/-- **Values as a source**: a record is a mapping, or a list of its parts in order. -/
def source : Source Json where
  parts?
    | .object members => some (.named members)
    | .array items => some (.ordered items)
    | _ => none
  list?
    | .array items => some items
    | _ => none
  text?
    | .string s => some s
    | _ => none
  quantity? := quantity?
  money? := money?
  optional?
    | .null => some none
    | v => some (some v)

namespace Written

/-- A number or a string, which are read alike in texts and in values. -/
def atom? : Written → Option Json
  | .number n => n.toNumber?.map .number
  | .string s => s.map .string
  | _ => none

/-- **Texts as a source.**  Of parts that a record does not know only the names are read. -/
def source : Source Written where
  parts?
    | .object members => (members.mapM fun (m : Option String × Written) => m.1.map fun k => (k, m.2)).map .named
    | .array items => some (.ordered items)
    | _ => none
  list?
    | .array items => some items
    | _ => none
  text?
    | .string s => s
    | _ => none
  quantity? w := (atom? w).bind quantity?
  money? w := (atom? w).bind money?
  optional?
    | .null => some none
    | w => some (some w)

end Written
end Json
end Eligibility
