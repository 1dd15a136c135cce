import Eligibility.Proofs.Basket.Reduction
import Eligibility.Proofs.Decimal.Sum
/-!
# The offer of lines is a sum

The quantities of an offer are saturated sums in any order, but money is added from left to right, and a sum may round
or not fit.  Where the totals of the lines tracked fit together it does neither, and the offer is `Exact`.  Exact
offers of the same lines are equal in value, so neither the order of the lines nor where they are cut changes the
offer (`reduce?_eq_sums`).
-/
namespace Eligibility

/-- The totals of the lines whose article is tracked. -/
def trackedTotals (skus : List String) (lines : List BasketLine) : List Decimal :=
  (lines.filter fun l => skus.contains l.sku).map BasketLine.total

/-- What a line adds to the spend. -/
def spendOf (skus : List String) (l : BasketLine) : Decimal := if skus.contains l.sku then l.total else .zero

theorem quantityWhere_append (p : String → Bool) (lines more : List BasketLine) :
    quantityWhere p (lines ++ more) = quantityWhere p lines + quantityWhere p more := by
  rw [quantityWhere, List.filter_append, List.map_append, List.sum_append]
  rfl

theorem quantityWhere_of_perm (p : String → Bool) {lines others : List BasketLine} (h : lines.Perm others) :
    quantityWhere p lines = quantityWhere p others := ((h.filter _).map _).sum_eq

theorem trackedTotals_append (skus : List String) (lines more : List BasketLine) :
    trackedTotals skus (lines ++ more) = trackedTotals skus lines ++ trackedTotals skus more := by
  rw [trackedTotals, List.filter_append, List.map_append]
  rfl

theorem perm_trackedTotals (skus : List String) {lines others : List BasketLine} (h : lines.Perm others) :
    (trackedTotals skus lines).Perm (trackedTotals skus others) := (h.filter _).map _

/-- A sum over what the lines add is one over the totals of those tracked, as the others add nothing. -/
theorem sum_map_spendOf {M : Type} [AddMonoid M] {f : Decimal → M} (hf : f .zero = 0) (skus : List String) :
    ∀ lines : List BasketLine, ((lines.map (spendOf skus)).map f).sum = ((trackedTotals skus lines).map f).sum
  | [] => rfl
  | l :: rest => by
    have ih := sum_map_spendOf hf skus rest
    rw [trackedTotals] at ih ⊢
    rw [List.map_cons, List.map_cons, List.sum_cons, ih, spendOf, List.filter_cons]
    split
    · rw [List.map_cons, List.map_cons, List.sum_cons]
    · rw [hf, zero_add]

namespace Offer

open Decimal (FitAt FitTogether exactSum magnitude maxPlaces scaled_zero)
open Quantity (saturate)

variable {skus : List String} {lines more others : List BasketLine} {p : Nat}

theorem contains_products_zero (skus : List String) (s : String) :
    (zero skus).products.contains s = skus.contains s := by
  rw [products_zero, Table.contains, Table.get?_tabulate, Bool.eq_iff_iff, List.contains_iff_mem]
  simp only [mem_keys_zero]
  split <;> simp [*]

/-- **The spend is the sum of what the lines add**, from left to right; there is an offer if there is this sum. -/
theorem spend_addLines? (skus : List String) : ∀ (lines : List BasketLine) (sum : Offer),
    (addLines? (zero skus) sum lines).map spend = Decimal.addAll? sum.spend (lines.map (spendOf skus))
  | [], _ => rfl
  | l :: rest, sum => by
    have hspend : (ofLine (zero skus) l).spend = spendOf skus l := by
      rw [ofLine, contains_products_zero, spendOf]
      split <;> rfl
    rw [addLines?, combine?, hspend, List.map_cons, Decimal.addAll?]
    cases sum.spend.add? (spendOf skus l) with
    | none => rfl
    | some next => exact spend_addLines? skus rest _

theorem products_reduce? {o : Offer} (h : reduce? (zero skus) lines = some o) :
    o.products = Table.tabulate (zero skus).products.keys fun k => saturate (quantityOf k lines) :=
  Basket.products_of_offer? (show (Basket.mk none skus lines).offer? = some o from h)

theorem fitAt_spendOf (h : FitAt p (trackedTotals skus lines)) : FitAt p (.zero :: lines.map (spendOf skus)) := by
  refine ⟨h.places_le, ?_, ?_⟩
  · intro d hd
    rcases List.mem_cons.1 hd with rfl | hd
    · exact Nat.zero_le p
    · obtain ⟨l, hl, rfl⟩ := List.mem_map.1 hd
      rw [spendOf]
      split
      · rename_i htracked
        exact h.le_places l.total (List.mem_map_of_mem (List.mem_filter.2 ⟨hl, htracked⟩))
      · exact Nat.zero_le p
  · have hzero : (Decimal.zero.scaled p).natAbs = 0 := by rw [scaled_zero, Int.natAbs_zero]
    rw [magnitude, List.map_cons, List.sum_cons, hzero, Nat.zero_add, sum_map_spendOf hzero]
    exact h.magnitude_lt

/-- An offer that is the sum of lines: no quantity but what saturates is lost, and no money at so many places. -/
structure Exact (skus : List String) (p : Nat) (lines : List BasketLine) (o : Offer) : Prop where
  products_eq : o.products = Table.tabulate (zero skus).products.keys fun k => saturate (quantityOf k lines)
  places_le : o.spend.places ≤ p
  scaled_eq : o.spend.scaled p = exactSum p (trackedTotals skus lines)

/-- **Lines whose totals fit together have an exact offer.** -/
theorem exists_exact (h : FitAt p (trackedTotals skus lines)) :
    ∃ o, reduce? (zero skus) lines = some o ∧ Exact skus p lines o := by
  obtain ⟨spend, hspend, hplaces, hscaled⟩ := Decimal.addAll?_exact _ _ (fitAt_spendOf h)
  obtain ⟨o, ho, rfl⟩ := Option.map_eq_some_iff.1 ((spend_addLines? skus lines (zero skus)).trans hspend)
  refine ⟨o, ho, products_reduce? ho, hplaces, ?_⟩
  rw [hscaled, exactSum, List.map_cons, List.sum_cons, scaled_zero, Int.zero_add, sum_map_spendOf (scaled_zero p)]
  rfl

namespace Exact

variable {a b : Offer}

theorem eqv (hp : p ≤ maxPlaces) (ha : Exact skus p lines a) (hb : Exact skus p lines b) : a.eqv b = true := by
  have hproducts : a.products = b.products := ha.products_eq.trans hb.products_eq.symm
  have hspend := Decimal.eqv_of_scaled hp ha.places_le hb.places_le (ha.scaled_eq.trans hb.scaled_eq.symm)
  rw [Offer.eqv, hproducts, hspend, beq_self_eq_true]
  rfl

/-- The order of the lines does not matter to a sum. -/
theorem of_perm (hperm : lines.Perm others) (h : Exact skus p others a) : Exact skus p lines a := by
  refine ⟨?_, h.places_le, h.scaled_eq.trans (Decimal.exactSum_of_perm p (perm_trackedTotals skus hperm)).symm⟩
  rw [h.products_eq]
  apply Table.tabulate_congr
  intro k _
  rw [quantityOf, quantityOf, quantityWhere_of_perm _ hperm]

/-- **Exact offers have an exact sum of their spends**, if all the totals fit together, whatever articles they track. -/
theorem exists_add? {others : List String} (ha : Exact skus p lines a) (hb : Exact others p more b)
    (h : FitAt p (trackedTotals skus lines ++ trackedTotals others more)) :
    ∃ spend, a.spend.add? b.spend = some spend ∧ spend.places ≤ p ∧
      spend.scaled p = exactSum p (trackedTotals skus lines ++ trackedTotals others more) := by
  -- what the two spend is bounded by their magnitudes, and these add up to that of all the totals
  have hfit := h.magnitude_lt
  have hle := Decimal.natAbs_exactSum_le p (trackedTotals skus lines)
  have hle' := Decimal.natAbs_exactSum_le p (trackedTotals others more)
  rw [Decimal.magnitude_append] at hfit
  obtain ⟨spend, hspend, hplaces, hscaled⟩ := Decimal.add?_exact h.places_le ha.places_le hb.places_le
    (by rw [ha.scaled_eq, hb.scaled_eq]; omega)
  exact ⟨spend, hspend, hplaces, by rw [hscaled, ha.scaled_eq, hb.scaled_eq, Decimal.exactSum_append]⟩

/-- **Exact offers over the same articles have an exact sum**, if all the totals fit together. -/
theorem exists_combine? (ha : Exact skus p lines a) (hb : Exact skus p more b)
    (h : FitAt p (trackedTotals skus (lines ++ more))) :
    ∃ c, a.combine? b = some c ∧ Exact skus p (lines ++ more) c := by
  rw [trackedTotals_append] at h
  obtain ⟨spend, hspend, hplaces, hscaled⟩ := ha.exists_add? hb h
  refine ⟨_, by rw [combine?, hspend]; rfl, ?_, hplaces, ?_⟩
  · dsimp only
    rw [ha.products_eq, hb.products_eq, Table.mapValues_tabulate]
    apply Table.tabulate_congr
    intro k hk
    rw [Table.get?_tabulate, if_pos hk, Option.getD_some, Quantity.saturate_add_saturate, quantityOf, quantityOf,
      quantityOf, quantityWhere_append]
  · dsimp only
    rw [hscaled, trackedTotals_append]

end Exact

/-- **Where the totals fit together**, the spend is their sum. -/
theorem scaled_spend_of_fitTogether (h : FitTogether (trackedTotals skus lines)) :
    ∃ o, reduce? (zero skus) lines = some o ∧
      o.spend.scaled maxPlaces = exactSum maxPlaces (trackedTotals skus lines) := by
  obtain ⟨o, ho, hexact⟩ := exists_exact h.fitAt
  exact ⟨o, ho, Decimal.scaled_eq_exactSum hexact.places_le hexact.scaled_eq⟩

theorem reduce?_of_perm (h : FitTogether (trackedTotals skus lines)) (hperm : lines.Perm others) :
    ∃ o o', reduce? (zero skus) lines = some o ∧ reduce? (zero skus) others = some o' ∧ o.eqv o' = true := by
  obtain ⟨o, ho, hexact⟩ := exists_exact h.fitAt
  obtain ⟨o', ho', hexact'⟩ := exists_exact (h.fitAt.of_subperm (perm_trackedTotals skus hperm.symm).subperm)
  exact ⟨o, o', ho, ho', hexact.eqv h.fitAt.places_le (hexact'.of_perm hperm)⟩

theorem reduce?_append (h : FitTogether (trackedTotals skus (lines ++ more))) :
    ∃ a b c o, reduce? (zero skus) lines = some a ∧ reduce? (zero skus) more = some b ∧ a.combine? b = some c ∧
      reduce? (zero skus) (lines ++ more) = some o ∧ o.eqv c = true := by
  obtain ⟨p, hall⟩ : ∃ p, FitAt p (trackedTotals skus (lines ++ more)) := ⟨_, h.fitAt⟩
  have hparts := hall
  rw [trackedTotals_append] at hparts
  obtain ⟨o, ho, hexact⟩ := exists_exact hall
  obtain ⟨a, ha, hexacta⟩ := exists_exact (hparts.of_subperm (List.sublist_append_left _ _).subperm)
  obtain ⟨b, hb, hexactb⟩ := exists_exact (hparts.of_subperm (List.sublist_append_right _ _).subperm)
  obtain ⟨c, hc, hexactc⟩ := hexacta.exists_combine? hexactb hall
  exact ⟨a, b, c, o, ha, hb, hc, ho, hexact.eqv hall.places_le hexactc⟩

theorem tracks_of_reduce? {o : Offer} (h : reduce? (zero skus) lines = some o) : Tracks skus o :=
  (tracks_zero skus).of_keys_eq (by rw [products_reduce? h, Table.keys_tabulate])

/-- **The offer of lines as sums.**  It tracks the articles named, each once and in order, with saturated quantities,
each and together.  Its spend is the sum of the totals tracked from left to right; if these fit together, the sum is
exact, and so the same in any order of the lines and for lines that were cut in two.  The first part is about offers
that exist: one is missing exactly where that sum overflows on the way, as `Basket.offer?_eq_none_iff` says of the
lines. -/
theorem reduce?_eq_sums (skus : List String) (lines : List BasketLine) :
    (∀ o, reduce? (zero skus) lines = some o →
      Tracks skus o ∧
      (∀ k ∈ skus, o.products.get? k = some (saturate (quantityOf k lines))) ∧
      o.totalQuantity = saturate (quantityWhere skus.contains lines)) ∧
    (reduce? (zero skus) lines).map spend = Decimal.addAll? .zero (lines.map (spendOf skus)) ∧
    (FitTogether (trackedTotals skus lines) →
      (∃ o, reduce? (zero skus) lines = some o ∧
        o.spend.scaled maxPlaces = exactSum maxPlaces (trackedTotals skus lines)) ∧
      ∀ others, lines.Perm others →
        ∃ o o', reduce? (zero skus) lines = some o ∧ reduce? (zero skus) others = some o' ∧ o.eqv o' = true) ∧
    ∀ more, FitTogether (trackedTotals skus (lines ++ more)) →
      ∃ a b c o, reduce? (zero skus) lines = some a ∧ reduce? (zero skus) more = some b ∧ a.combine? b = some c ∧
        reduce? (zero skus) (lines ++ more) = some o ∧ o.eqv c = true := by
  refine ⟨fun o ho => ⟨tracks_of_reduce? ho, fun k hk => ?_, ?_⟩, spend_addLines? skus lines _,
    fun hfit => ⟨scaled_spend_of_fitTogether hfit, fun _ => reduce?_of_perm hfit⟩, fun _ => reduce?_append⟩
  · rw [products_reduce? ho, Table.get?_tabulate, if_pos ((mem_keys_zero skus k).2 hk)]
  · exact Basket.totalQuantity_of_offer? (b := ⟨none, skus, lines⟩) ho

/-- Two articles, one of them named twice, and four lines: one with the greatest quantity, one whose article is not
tracked, and a refund with more places than the other totals. -/
theorem reduce?_eq_sums_of_four :
    let price : Decimal := ⟨false, 150, 2, by decide, by decide⟩
    let refund : Decimal := ⟨true, 2005, 3, by decide, by decide⟩
    let full : BasketLine := ⟨saturate (2 ^ 64), "tea", price, price⟩
    let lines : List BasketLine := [full, ⟨saturate 3, "rum", price, price⟩, ⟨saturate 2, "tea", price, price⟩]
    let more : List BasketLine := [⟨saturate 5, "oat", refund, refund⟩]
    FitTogether (trackedTotals ["tea", "oat", "tea"] (lines ++ more)) ∧
    ∃ o, reduce? (zero ["tea", "oat", "tea"]) (lines ++ more) = some o ∧
      o.products.get? "tea" = some (saturate (2 ^ 64)) ∧ o.products.get? "oat" = some (saturate 5) ∧
      o.spend.scaled maxPlaces = 995 * tenTo 25 ∧
      (∃ o', reduce? (zero ["tea", "oat", "tea"]) (lines ++ more).reverse = some o' ∧ o.eqv o' = true) ∧
      ∃ a b c, reduce? (zero ["tea", "oat", "tea"]) lines = some a ∧
        reduce? (zero ["tea", "oat", "tea"]) more = some b ∧ a.combine? b = some c ∧ o.eqv c = true := by
  intro price refund full lines more
  have hfit : FitTogether (trackedTotals ["tea", "oat", "tea"] (lines ++ more)) := by
    unfold FitTogether
    decide
  obtain ⟨hquantities, -, hexact, -⟩ := reduce?_eq_sums ["tea", "oat", "tea"] (lines ++ more)
  obtain ⟨a, b, c, o, ha, hb, hc, ho, heqv⟩ := (reduce?_eq_sums ["tea", "oat", "tea"] lines).2.2.2 more hfit
  obtain ⟨-, hget, -⟩ := hquantities o ho
  obtain ⟨⟨o₁, ho₁, hspend⟩, hperm⟩ := hexact hfit
  obtain ⟨o₂, o₃, ho₂, ho₃, heqv'⟩ := hperm _ (List.reverse_perm _).symm
  cases ho.symm.trans ho₁
  cases ho.symm.trans ho₂
  refine ⟨hfit, o, ho, ?_, ?_, ?_, ⟨o₃, ho₃, heqv'⟩, a, b, c, ha, hb, hc, heqv⟩
  · rw [hget "tea" (by decide)]
    decide +kernel
  · rw [hget "oat" (by decide)]
    decide +kernel
  · rw [hspend]
    decide +kernel

end Offer
end Eligibility
