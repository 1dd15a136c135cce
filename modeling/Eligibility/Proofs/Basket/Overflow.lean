import Eligibility.Basket.Source
import Eligibility.Proofs.Basket.Sums
import Eligibility.Proofs.Decimal.Representable
/-!
# Baskets without an offer

Quantities saturate, but money that does not fit has no sum, so a basket may have no offer.  That is so exactly if
some line tracked is too much for what was spent on the lines before it (`offer?_eq_none_iff`), whatever follows.
-/
namespace Eligibility

open Decimal (Overflows exactSum maxPlaces)
open Quantity (saturate)

namespace Offer

variable {skus : List String}

theorem spend_reduce? (skus : List String) (lines : List BasketLine) :
    (reduce? (zero skus) lines).map spend = Decimal.addAll? .zero (lines.map (spendOf skus)) :=
  spend_addLines? skus lines (zero skus)

theorem reduce?_eq_none_iff (lines : List BasketLine) : reduce? (zero skus) lines = none ↔
    ∃ before l after o, lines = before ++ l :: after ∧ reduce? (zero skus) before = some o ∧ l.sku ∈ skus ∧
      Overflows (o.spend.scaled maxPlaces + l.total.scaled maxPlaces) := by
  rw [← Option.map_eq_none_iff, spend_reduce?, Decimal.addAll?_eq_none_iff]
  constructor
  · rintro ⟨totals, d, totals', sum, hlines, hsum, hover⟩
    obtain ⟨before, rest, rfl, rfl, hrest⟩ := List.map_eq_append_iff.1 hlines
    obtain ⟨l, after, rfl, rfl, rfl⟩ := List.map_eq_cons_iff.1 hrest
    obtain ⟨o, ho, rfl⟩ := Option.map_eq_some_iff.1 ((spend_reduce? skus before).trans hsum)
    -- a line that is not tracked adds nothing to a spend that fits
    have htracked : skus.contains l.sku = true := by
      by_contra hnot
      rw [spendOf, if_neg hnot, Decimal.scaled_zero, Int.add_zero] at hover
      exact Decimal.not_overflows_scaled o.spend hover
    rw [spendOf, if_pos htracked] at hover
    exact ⟨before, l, after, o, rfl, ho, List.contains_iff_mem.1 htracked, hover⟩
  · rintro ⟨before, l, after, o, rfl, ho, htracked, hover⟩
    refine ⟨before.map (spendOf skus), l.total, after.map (spendOf skus), o.spend, ?_, ?_, hover⟩
    · rw [List.map_append, List.map_cons, spendOf, if_pos (List.contains_iff_mem.2 htracked)]
    · rw [← spend_reduce?, ho]
      rfl

end Offer

namespace Basket

/-- **A basket has no offer exactly if a line tracked is too much for the spend of those before it.**  Its quantities
are never too much: where there is an offer, each of them and their total are the exact sums as far as quantities go. -/
theorem offer?_eq_none_iff (b : Basket) :
    (b.offer? = none ↔ ∃ before l after o, b.lines = before ++ l :: after ∧
      Offer.reduce? (.zero b.offerSkus) before = some o ∧ l.sku ∈ b.offerSkus ∧
      Overflows (o.spend.scaled maxPlaces + l.total.scaled maxPlaces)) ∧
    ∀ o, b.offer? = some o →
      (∀ k ∈ b.offerSkus, o.products.get? k = some (saturate (quantityOf k b.lines))) ∧
      o.totalQuantity = saturate b.trackedQuantity := by
  refine ⟨Offer.reduce?_eq_none_iff b.lines, fun o ho => ⟨fun k hk => ?_, totalQuantity_of_offer? ho⟩⟩
  rw [products_of_offer? ho, Table.get?_tabulate, if_pos ((Offer.mem_keys_zero b.offerSkus k).2 hk)]

/-- Two lines of the greatest decimal and one that takes it back: a basket can be read from this, and the exact sum of
its totals is a decimal, but it has no offer. -/
theorem offer?_of_greatest_twice :
    let greatest := "79228162514264337593543950335"
    let line (total : String) : Json :=
      .array [.number (.integer ⟨1, by decide⟩), .string "tea", .string "1", .string total]
    let document : Json := .object [("items", .array [line greatest, line greatest, line ("-" ++ greatest)]),
      ("offer_skus", .array [.string "tea"])]
    ∃ b, Json.source.basket? document = some b ∧
      Decimal.Representable (exactSum maxPlaces (trackedTotals b.offerSkus b.lines)) ∧ b.offer? = none := by
  intro greatest line document
  let d : Decimal := ⟨false, 79_228_162_514_264_337_593_543_950_335, 0, by decide, by decide⟩
  have hread : (Json.source.basket? document).map (fun b =>
      (exactSum maxPlaces (trackedTotals b.offerSkus b.lines), b.offer?.isNone)) =
        some (d.scaled maxPlaces, true) := by decide +kernel
  obtain ⟨b, hb, hvalues⟩ := Option.map_eq_some_iff.1 hread
  obtain ⟨hsum, hnone⟩ := Prod.mk.inj hvalues
  exact ⟨b, hb, ⟨d, hsum.symm⟩, Option.isNone_iff_eq_none.1 hnone⟩

end Basket
end Eligibility
