import Eligibility.Basket.Basic
/-!
# Offers

What a basket amounts to for an offer: the quantity of each article tracked, and what was spent on them.  Each line
is an offer of its own, and a basket's offer is their sum, from the left.  Money that does not fit has no sum.
-/

namespace Eligibility

/-- Quantities of the articles tracked, and the money spent on them. -/
structure Offer where
  products : Table Quantity
  spend : Decimal

namespace Offer

/-- **Nothing of some articles.** -/
def zero (skus : List String) : Offer := ⟨Table.ofEntries (skus.map fun s => (s, .zero)), .zero⟩

/-- A line as an offer over the articles of another; an article that is not tracked gives that other offer. -/
def ofLine (zero : Offer) (l : BasketLine) : Offer :=
  if zero.products.contains l.sku then ⟨zero.products.insert l.sku l.quantity, l.total⟩ else zero

/-- **The sum of two offers**, over the articles of the first. -/
def combine? (a b : Offer) : Option Offer :=
  (a.spend.add? b.spend).map fun spend =>
    ⟨a.products.mapValues fun sku q => q.add ((b.products.get? sku).getD .zero), spend⟩

/-- Adds lines to an offer, each as an offer over the articles of `zero`. -/
def addLines? (zero : Offer) (sum : Offer) : List BasketLine → Option Offer
  | [] => some sum
  | l :: rest => (sum.combine? (ofLine zero l)).bind fun sum => addLines? zero sum rest

/-- **The offer of lines.** -/
def reduce? (zero : Offer) (lines : List BasketLine) : Option Offer := addLines? zero zero lines

def totalQuantity (o : Offer) : Quantity := .total o.products.values

/-- Whether two offers track the same articles, with the same quantities and the same spend. -/
def eqv (a b : Offer) : Bool := a.products == b.products && a.spend.eqv b.spend

def productsJson (o : Offer) : Json := .object (o.products.mapValues fun _ q => q.toJson)

def spendJson (o : Offer) : Json := (Json.ofBinary64? o.spend.toReal).getD .null

/-- The offer as a rule's context shows it. -/
def toContext (o : Offer) : Json := .object [("products", o.productsJson), ("spend", o.spendJson)]

/-- The offer as it is stored, the spend as text. -/
def toJson (o : Offer) : Json := .object [("products", o.productsJson), ("spend", .string o.spend.text)]

/-- **Puts the offer into a context**, under the name of a partner.  What is no mapping on the way becomes one. -/
def mergeInto (o : Offer) (partner : String) (context : Json) : Json :=
  let members := context.members
  let partners := ((Table.get? "partners" members).getD .null).members
  .object (Table.insert "partners" (.object (Table.insert partner o.toContext partners)) members)

def context (o : Offer) (partner : String) : Json := o.mergeInto partner (.object [])

end Offer

/-- The offer of a basket over the articles that it names. -/
def Basket.offer? (b : Basket) : Option Offer := Offer.reduce? (.zero b.offerSkus) b.lines

end Eligibility
