import Eligibility.Proofs.Basket.Combination
import Eligibility.Proofs.Basket.Sums
/-!
# Sums of offers over different articles

The sum of two offers is over the articles of the first.  Of the lines behind them it counts the quantities of those
whose article it tracks (`countedLines`), but it has the spend of both, which holds what was spent on articles that only
the second tracks (`uncountedLines`).  Spend and quantities are of the same lines, whatever these are, exactly if the
second offer tracks articles of the first only (`spend_of_combined`).
-/
namespace Eligibility

open Decimal (FitTogether exactSum maxPlaces)
open Quantity (saturate)

variable {skus others : List String} {lines more : List BasketLine} {k : String}

/-- The lines that a sum counts: the first offer's, and of the second's those of articles that both track. -/
def countedLines (skus others : List String) (lines more : List BasketLine) : List BasketLine :=
  (lines.filter fun l => skus.contains l.sku) ++ more.filter fun l => skus.contains l.sku && others.contains l.sku

/-- The second offer's lines of articles that the first does not track. -/
def uncountedLines (skus others : List String) (more : List BasketLine) : List BasketLine :=
  more.filter fun l => !skus.contains l.sku && others.contains l.sku

/-- What was spent on lines, in units of the most places. -/
def spentOn (lines : List BasketLine) : Int := exactSum maxPlaces (lines.map BasketLine.total)

theorem quantityOf_filter (p : String → Bool) (k : String) (lines : List BasketLine) :
    quantityOf k (lines.filter fun l => p l.sku) = if p k = true then quantityOf k lines else 0 := by
  rw [quantityOf, quantityOf, quantityWhere, quantityWhere, List.filter_filter]
  split
  · rename_i hk
    congr 2
    apply List.filter_congr
    intro l _
    by_cases hl : l.sku = k
    · simp [hl, hk]
    · simp [hl]
  · rename_i hk
    rw [List.filter_eq_nil_iff.2]
    · rfl
    · intro l _ hl
      obtain ⟨hsku, hp⟩ := Bool.and_eq_true_iff.1 hl
      rw [beq_iff_eq.1 hsku] at hp
      exact hk hp

theorem quantityOf_countedLines (hk : k ∈ skus) : quantityOf k (countedLines skus others lines more) =
    quantityOf k lines + if k ∈ others then quantityOf k more else 0 := by
  have happend := quantityWhere_append (· == k) (lines.filter fun l => skus.contains l.sku)
    (more.filter fun l => skus.contains l.sku && others.contains l.sku)
  have hfirst := quantityOf_filter skus.contains k lines
  have hsecond := quantityOf_filter (fun s => skus.contains s && others.contains s) k more
  have hcontains : skus.contains k = true := List.contains_iff_mem.2 hk
  simp only [hcontains, Bool.true_and, if_true, List.contains_iff_mem] at hfirst hsecond
  rw [countedLines, quantityOf, happend, ← quantityOf, ← quantityOf, hfirst, hsecond]

theorem perm_countedLines (skus others : List String) (lines more : List BasketLine) :
    (trackedTotals skus lines ++ trackedTotals others more).Perm
      ((countedLines skus others lines more).map BasketLine.total ++
        (uncountedLines skus others more).map BasketLine.total) := by
  have hsplit := List.filter_append_perm (fun l => skus.contains l.sku) (more.filter fun l => others.contains l.sku)
  rw [List.filter_filter, List.filter_filter] at hsplit
  rw [countedLines, uncountedLines, List.map_append, List.append_assoc, ← List.map_append]
  exact (hsplit.symm.map _).append_left _

namespace Offer

/-- The sum of the offers of two lists of lines, each over articles of its own. -/
def combined? (skus others : List String) (lines more : List BasketLine) : Option Offer :=
  (reduce? (zero skus) lines).bind fun a => (reduce? (zero others) more).bind fun b => a.combine? b

theorem products_combined? {c : Offer} (h : combined? skus others lines more = some c) :
    c.products = Table.tabulate (zero skus).products.keys fun k =>
      saturate (quantityOf k (countedLines skus others lines more)) := by
  obtain ⟨a, ha, h⟩ := Option.bind_eq_some_iff.1 h
  obtain ⟨b, hb, h⟩ := Option.bind_eq_some_iff.1 h
  obtain ⟨spend, -, rfl⟩ := Option.map_eq_some_iff.1 h
  dsimp only
  rw [products_reduce? ha, products_reduce? hb, Table.mapValues_tabulate]
  apply Table.tabulate_congr
  intro k hk
  rw [quantityOf_countedLines ((mem_keys_zero skus k).1 hk), Table.get?_tabulate]
  simp only [mem_keys_zero]
  split
  · rw [Option.getD_some, Quantity.saturate_add_saturate]
  · rw [Option.getD_none, Quantity.add_zero, Nat.add_zero]

/-- **The spend of a sum is all that was spent**, on articles that it counts or not. -/
theorem exists_combined? (h : FitTogether (trackedTotals skus lines ++ trackedTotals others more)) :
    ∃ c, combined? skus others lines more = some c ∧ c.spend.scaled maxPlaces =
      spentOn (countedLines skus others lines more) + spentOn (uncountedLines skus others more) := by
  obtain ⟨a, ha, hexacta⟩ := exists_exact (h.fitAt.of_subperm (List.sublist_append_left _ _).subperm)
  obtain ⟨b, hb, hexactb⟩ := exists_exact (h.fitAt.of_subperm (List.sublist_append_right _ _).subperm)
  obtain ⟨spend, hspend, hplaces, hscaled⟩ := hexacta.exists_add? hexactb h.fitAt
  refine ⟨_, by rw [combined?, ha, hb, Option.bind_some, Option.bind_some, combine?, hspend]; rfl, ?_⟩
  -- the totals come in the order of the offers; each is that of a line counted or of one that is not
  calc spend.scaled maxPlaces
      = exactSum maxPlaces (trackedTotals skus lines ++ trackedTotals others more) :=
        Decimal.scaled_eq_exactSum hplaces hscaled
    _ = exactSum maxPlaces ((countedLines skus others lines more).map BasketLine.total ++
          (uncountedLines skus others more).map BasketLine.total) :=
        Decimal.exactSum_of_perm maxPlaces (perm_countedLines skus others lines more)
    _ = spentOn (countedLines skus others lines more) + spentOn (uncountedLines skus others more) :=
        Decimal.exactSum_append maxPlaces _ _

theorem uncountedLines_eq_nil (h : ∀ k ∈ others, k ∈ skus) (more : List BasketLine) :
    uncountedLines skus others more = [] := by
  refine List.filter_eq_nil_iff.2 fun l _ hl => ?_
  simp only [Bool.and_eq_true, Bool.not_eq_true', List.contains_iff_mem] at hl
  rw [List.contains_iff_mem.2 (h l.sku hl.2)] at hl
  cases hl.1

/-- One line of an article that only the second offer tracks has a spend that is not of the lines counted. -/
theorem exists_spend_ne (hk : k ∈ others) (hnot : k ∉ skus) :
    ∃ (lines more : List BasketLine) (c : Offer), FitTogether (trackedTotals skus lines ++ trackedTotals others more) ∧
      combined? skus others lines more = some c ∧
      c.spend.scaled maxPlaces ≠ spentOn (countedLines skus others lines more) := by
  let one : Decimal := ⟨false, 1, 0, by decide, by decide⟩
  let l : BasketLine := ⟨.zero, k, one, one⟩
  have htotals : trackedTotals skus [] ++ trackedTotals others [l] = [one] := by simp [trackedTotals, l, hk]
  have hfit : FitTogether (trackedTotals skus [] ++ trackedTotals others [l]) := by
    rw [htotals]
    decide
  have huncounted : uncountedLines skus others [l] = [l] := by simp [uncountedLines, l, hk, hnot]
  obtain ⟨c, hc, hspend⟩ := exists_combined? hfit
  refine ⟨[], [l], c, hfit, hc, ?_⟩
  have hone : spentOn [l] ≠ 0 := by
    show exactSum maxPlaces [one] ≠ 0
    decide
  rw [hspend, huncounted]
  omega

theorem tracks_combined? {c : Offer} (h : combined? skus others lines more = some c) : Tracks skus c :=
  (tracks_zero skus).of_keys_eq (by rw [products_combined? h, Table.keys_tabulate])

/-- **The sum of offers over different articles.**  It tracks the articles of the first, with the quantities of the lines
counted; its spend is what was spent on these and on the second offer's other lines.  It is that of the lines counted,
whatever the lines, exactly if the second offer tracks articles of the first only. -/
theorem spend_of_combined (skus others : List String) :
    (∀ lines more, FitTogether (trackedTotals skus lines ++ trackedTotals others more) →
      ∃ c, combined? skus others lines more = some c ∧ Tracks skus c ∧
        (∀ k ∈ skus, c.products.get? k = some (saturate (quantityOf k (countedLines skus others lines more)))) ∧
        c.spend.scaled maxPlaces =
          spentOn (countedLines skus others lines more) + spentOn (uncountedLines skus others more)) ∧
    ((∀ lines more c, FitTogether (trackedTotals skus lines ++ trackedTotals others more) →
      combined? skus others lines more = some c →
        c.spend.scaled maxPlaces = spentOn (countedLines skus others lines more)) ↔ ∀ k ∈ others, k ∈ skus) := by
  refine ⟨fun lines more hfit => ?_, fun h k hk => ?_, fun h lines more c hfit hc => ?_⟩
  · obtain ⟨c, hc, hspend⟩ := exists_combined? hfit
    refine ⟨c, hc, tracks_combined? hc, fun k hk => ?_, hspend⟩
    rw [products_combined? hc, Table.get?_tabulate, if_pos ((mem_keys_zero skus k).2 hk)]
  · by_contra hnot
    obtain ⟨lines, more, c, hfit, hc, hne⟩ := exists_spend_ne hk hnot
    exact hne (h lines more c hfit hc)
  · obtain ⟨c', hc', hspend⟩ := exists_combined? hfit
    cases hc.symm.trans hc'
    rw [hspend, uncountedLines_eq_nil h]
    exact Int.add_zero _

/-- Two articles and two others, of which the offers share one.  Each list has a line that the other offer alone would
track, which is not counted; the second's, of an article of its own, is in the spend all the same. -/
theorem spend_of_combined_of_shared_article :
    let price : Decimal := ⟨false, 250, 2, by decide, by decide⟩
    let fee : Decimal := ⟨false, 1125, 3, by decide, by decide⟩
    let lines : List BasketLine := [⟨saturate 2, "tea", price, price⟩, ⟨saturate 7, "rum", price, price⟩]
    let more : List BasketLine :=
      [⟨saturate 1, "oat", price, price⟩, ⟨saturate 3, "rum", fee, fee⟩, ⟨saturate 5, "tea", fee, fee⟩]
    FitTogether (trackedTotals ["tea", "oat"] lines ++ trackedTotals ["oat", "rum"] more) ∧
    ∃ c, combined? ["tea", "oat"] ["oat", "rum"] lines more = some c ∧
      c.products.get? "tea" = some (saturate 2) ∧ c.products.get? "oat" = some (saturate 1) ∧
      spentOn (countedLines ["tea", "oat"] ["oat", "rum"] lines more) = 5000 * tenTo 25 ∧
      c.spend.scaled maxPlaces = 6125 * tenTo 25 := by
  intro price fee lines more
  have hfit : FitTogether (trackedTotals ["tea", "oat"] lines ++ trackedTotals ["oat", "rum"] more) := by decide
  obtain ⟨c, hc, -, hquantities, hspend⟩ := (spend_of_combined ["tea", "oat"] ["oat", "rum"]).1 lines more hfit
  refine ⟨hfit, c, hc, ?_, ?_, by decide +kernel, ?_⟩
  · rw [hquantities "tea" (by decide)]
    decide +kernel
  · rw [hquantities "oat" (by decide)]
    decide +kernel
  · rw [hspend]
    decide +kernel

/-- A sum that counts two of one article, for 2.50, has a spend of 5.50: three of another are in it, for 3. -/
theorem combined?_of_other_article :
    let price : Decimal := ⟨false, 250, 2, by decide, by decide⟩
    let other : Decimal := ⟨false, 300, 2, by decide, by decide⟩
    let lines : List BasketLine := [⟨saturate 2, "tea", price, price⟩]
    let more : List BasketLine := [⟨saturate 3, "rum", other, other⟩]
    FitTogether (trackedTotals ["tea"] lines ++ trackedTotals ["rum"] more) ∧
    ∃ c, combined? ["tea"] ["rum"] lines more = some c ∧ c.products = [("tea", saturate 2)] ∧
      c.spend = ⟨false, 550, 2, by decide, by decide⟩ ∧
      c.spend.scaled maxPlaces ≠ spentOn (countedLines ["tea"] ["rum"] lines more) := by
  intro price other lines more
  have hsum : (combined? ["tea"] ["rum"] lines more).map (fun c => (c.products, c.spend)) =
      some ([("tea", saturate 2)], ⟨false, 550, 2, by decide, by decide⟩) := by decide +kernel
  obtain ⟨c, hc, hvalues⟩ := Option.map_eq_some_iff.1 hsum
  obtain ⟨hproducts, hspend⟩ := Prod.mk.inj hvalues
  refine ⟨by decide, c, hc, hproducts, hspend, ?_⟩
  rw [hspend]
  decide +kernel

end Offer
end Eligibility
