import Eligibility.Binary64.Basic
import Eligibility.Table
/-!
# JSON values

A number is an integer of 64 bits, signed or unsigned, or a finite binary64; `Number.toFinite` is the one view that
rules compare and add.  The members of an object come in the order in which they are written; readers of documents
sort them by key.
-/

namespace Eligibility

/-- A whole number that fits 64 bits, with a sign or without. -/
structure Json.Integer where
  value : Int
  inRange : -9_223_372_036_854_775_808 ≤ value ∧ value < 18_446_744_073_709_551_616
  deriving DecidableEq

/-- An integer, or a binary64 number. -/
inductive Json.Number where
  | integer (n : Json.Integer)
  | real (x : Binary64.Finite)
  deriving DecidableEq

/-- A JSON value. -/
inductive Json where
  | null
  | bool (b : Bool)
  | number (n : Json.Number)
  | string (s : String)
  | array (items : List Json)
  | object (members : List (String × Json))
  deriving Inhabited

namespace Json

def Integer.ofInt? (n : Int) : Option Integer :=
  if h : -9_223_372_036_854_775_808 ≤ n ∧ n < 18_446_744_073_709_551_616 then some ⟨n, h⟩ else none

theorem Integer.natAbs_le (n : Integer) : n.value.natAbs ≤ 18_446_744_073_709_551_616 := by
  have := n.inRange
  omega

/-- The binary64 nearest to a number. -/
def Number.toFinite : Number → Binary64.Finite
  | .integer n => Binary64.Finite.ofWord (n.value < 0) n.value.natAbs n.natAbs_le
  | .real x => x

def asReal : Json → Option Binary64.Finite
  | .number n => some n.toFinite
  | _ => none

def isNull : Json → Bool
  | .null => true
  | _ => false

def isBool : Json → Bool
  | .bool _ => true
  | _ => false

def isString : Json → Bool
  | .string _ => true
  | _ => false

def isArray : Json → Bool
  | .array _ => true
  | _ => false

def isObject : Json → Bool
  | .object _ => true
  | _ => false

/-- The members of an object; any other value has none. -/
def members : Json → Table Json
  | .object members => members
  | _ => []

def ofNat? (n : Nat) : Option Json := (Integer.ofInt? n).map fun i => .number (.integer i)

/-- Below this many units a whole number is written without a point: 10¹⁵. -/
def integralLimit : Nat := 1_000_000_000_000_000 * Binary64.unitsPerOne

/-- Whether a number is whole and below 10¹⁵ in magnitude. -/
def isIntegral (x : Binary64.Finite) : Bool := x.isWhole && x.units < integralLimit

theorem wholePart_lt {x : Binary64.Finite} (h : isIntegral x = true) : x.wholePart < 1_000_000_000_000_000 := by
  simp only [isIntegral, Bool.and_eq_true, decide_eq_true_eq] at h
  exact (Nat.div_lt_iff_lt_mul Binary64.unitsPerOne_pos).2 h.2

/-- The integer with the value of an integral number. -/
def integral (x : Binary64.Finite) (h : isIntegral x = true) : Integer where
  value := if x.negative then -(x.wholePart : Int) else x.wholePart
  inRange := by
    have := wholePart_lt h
    split <;> omega

/-- **The normal form of a number**: an integer if it is integral, the binary64 itself otherwise.  Infinities and what
is not a number have none. -/
def ofBinary64? : Binary64 → Option Json
  | .finite x => some (.number (if h : isIntegral x = true then .integer (integral x h) else .real x))
  | _ => none

end Json
end Eligibility
