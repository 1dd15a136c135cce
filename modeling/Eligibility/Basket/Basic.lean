import Eligibility.Basket.Quantity
import Eligibility.Decimal.Text
/-!
# Baskets

A basket holds lines, the articles that its offer tracks, and a partner if it names one.  As a value a line is a list
of four, with money written as text, and a basket is a mapping.
-/

namespace Eligibility

/-- A line of a basket: so many of one article, at a price each and in total. -/
structure BasketLine where
  quantity : Quantity
  sku : String
  unitPrice : Decimal
  total : Decimal

/-- Lines, the articles that the offer tracks, and whose partner's basket it is. -/
structure Basket where
  partner : Option String
  offerSkus : List String
  lines : List BasketLine

namespace BasketLine

def toJson (l : BasketLine) : Json :=
  .array [l.quantity.toJson, .string l.sku, .string l.unitPrice.text, .string l.total.text]

end BasketLine

namespace Basket

def toJson (b : Basket) : Json :=
  .object [("partner", (b.partner.map Json.string).getD .null), ("offer_skus", .array (b.offerSkus.map .string)),
    ("items", .array (b.lines.map BasketLine.toJson))]

end Basket
end Eligibility
