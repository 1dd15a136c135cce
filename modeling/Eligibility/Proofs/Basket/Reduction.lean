import Eligibility.Basket.Offer
import Eligibility.Proofs.Table.Sorted
import Mathlib.Algebra.Ring.Nat
/-!
# What the offer of a basket holds

Saturating after every addition is saturating the sum once (`saturate_add`, `total_eq_saturate`), so the quantity of
an article is the saturated sum over its lines (`products_of_offer?`).  The sum over the articles saturates to the
same as the sum over the lines, even where one of them saturated before (`saturate_sum_saturate`).
-/
namespace Eligibility

/-- The quantity of the lines whose article has a property: the exact sum, of any size. -/
def quantityWhere (p : String → Bool) (lines : List BasketLine) : Nat :=
  ((lines.filter fun l => p l.sku).map fun l => l.quantity.value).sum

/-- The quantity of the lines of one article. -/
def quantityOf (sku : String) (lines : List BasketLine) : Nat := quantityWhere (· == sku) lines

/-- **The quantity of the lines whose article the offer tracks.** -/
def Basket.trackedQuantity (b : Basket) : Nat := quantityWhere b.offerSkus.contains b.lines

theorem quantityWhere_cons (p : String → Bool) (l : BasketLine) (rest : List BasketLine) :
    quantityWhere p (l :: rest) = (if p l.sku then l.quantity.value else 0) + quantityWhere p rest := by
  rw [quantityWhere, List.filter_cons, quantityWhere]
  split
  · rw [List.map_cons, List.sum_cons]
  · rw [Nat.zero_add]

theorem quantityWhere_or {p q : String → Bool} (h : ∀ s, p s = true → q s = false) : ∀ lines : List BasketLine,
    quantityWhere (fun s => p s || q s) lines = quantityWhere p lines + quantityWhere q lines
  | [] => rfl
  | l :: rest => by
    rw [quantityWhere_cons, quantityWhere_cons, quantityWhere_cons, quantityWhere_or h rest]
    cases hp : p l.sku with
    | true =>
      rw [h l.sku hp]
      simp only [Bool.true_or, if_true, Bool.false_eq_true, if_false]
      omega
    | false =>
      simp only [Bool.false_or, Bool.false_eq_true, if_false]
      omega

/-- **The quantities of different articles add up** to the quantity of them all. -/
theorem sum_quantityOf (lines : List BasketLine) : ∀ {ks : List String}, ks.Nodup →
    (ks.map fun k => quantityOf k lines).sum = quantityWhere ks.contains lines
  | [], _ => by
    rw [quantityWhere, List.filter_eq_nil_iff.2 (fun l _ => by simp)]
    rfl
  | k :: rest, h => by
    obtain ⟨hk, hrest⟩ := List.nodup_cons.1 h
    have hdisjoint : ∀ s : String, (s == k) = true → rest.contains s = false := by
      intro s hs
      rw [beq_iff_eq.1 hs]
      simpa using hk
    have hcons : (k :: rest).contains = fun s => s == k || rest.contains s := by
      funext s
      exact List.contains_cons
    rw [List.map_cons, List.sum_cons, sum_quantityOf lines hrest, hcons, quantityWhere_or hdisjoint lines]
    rfl

namespace Quantity

theorem eq_of_value : ∀ {a b : Quantity}, a.value = b.value → a = b
  | ⟨_, _⟩, ⟨_, _⟩, rfl => rfl

theorem saturate_value (q : Quantity) : saturate q.value = q := by
  apply eq_of_value
  have hlt := q.value_lt
  rw [value_saturate]
  omega

/-- **A sum that was saturated before saturates as the exact sum does.** -/
theorem saturate_add (m : Nat) (q : Quantity) : (saturate m).add q = saturate (m + q.value) := by
  apply eq_of_value
  rw [value_add, value_saturate, value_saturate]
  omega

theorem saturate_add_saturate (m n : Nat) : (saturate m).add (saturate n) = saturate (m + n) := by
  apply eq_of_value
  rw [saturate_add, value_saturate, value_saturate, value_saturate]
  omega

theorem foldl_add_saturate : ∀ (qs : List Quantity) (m : Nat),
    qs.foldl add (saturate m) = saturate (m + (qs.map value).sum)
  | [], m => rfl
  | q :: rest, m => by
    rw [List.foldl_cons, saturate_add, foldl_add_saturate rest, List.map_cons, List.sum_cons, Nat.add_assoc]

theorem total_eq_saturate (qs : List Quantity) : total qs = saturate (qs.map value).sum := by
  have h := foldl_add_saturate qs 0
  rw [Nat.zero_add] at h
  exact h

theorem saturate_sum_saturate : ∀ ns : List Nat,
    saturate (ns.map fun n => (saturate n).value).sum = saturate ns.sum
  | [] => rfl
  | n :: rest => by
    have ih := congrArg value (saturate_sum_saturate rest)
    apply eq_of_value
    rw [value_saturate, value_saturate] at ih
    rw [List.map_cons, List.sum_cons, List.sum_cons, value_saturate, value_saturate, value_saturate]
    omega

end Quantity

namespace Offer

open Quantity (saturate)

theorem nodup_keys_zero (skus : List String) : (zero skus).products.keys.Nodup :=
  Table.nodup_keys_ofEntries (skus.map fun s => (s, Quantity.zero))

theorem mem_keys_zero (skus : List String) (k : String) : k ∈ (zero skus).products.keys ↔ k ∈ skus := by
  rw [zero, Table.mem_keys_ofEntries, List.map_map]
  have hid : (Prod.fst ∘ fun s : String => (s, Quantity.zero)) = id := rfl
  rw [hid, List.map_id]

theorem products_zero (skus : List String) :
    (zero skus).products = Table.tabulate (zero skus).products.keys fun _ => .zero := by
  apply Table.eq_tabulate_of_forall
  intro e he
  obtain ⟨s, -, rfl⟩ := List.mem_map.1 (Table.mem_of_mem_ofEntries he)
  rfl

/-- **An offer that tracks some articles**, each once and in order, and no other. -/
structure Tracks (skus : List String) (o : Offer) : Prop where
  sorted : o.products.Sorted
  mem_keys : ∀ k, k ∈ o.products.keys ↔ k ∈ skus

theorem tracks_zero (skus : List String) : Tracks skus (zero skus) :=
  ⟨Table.sorted_foldl_insert _ [] List.Pairwise.nil, mem_keys_zero skus⟩

theorem Tracks.of_keys_eq {skus : List String} {a b : Offer} (h : Tracks skus a)
    (hkeys : b.products.keys = a.products.keys) : Tracks skus b := by
  refine ⟨?_, fun k => by rw [hkeys]; exact h.mem_keys k⟩
  rw [Table.Sorted, hkeys]
  exact h.sorted

variable {ks : List String} {z : Offer}

theorem get?_products_ofLine (hz : z.products = Table.tabulate ks fun _ => .zero) {k : String} (hk : k ∈ ks)
    (l : BasketLine) : (ofLine z l).products.get? k = some (if k = l.sku then l.quantity else .zero) := by
  have hget : ∀ s, z.products.get? s = if s ∈ ks then some .zero else none := by
    intro s
    rw [hz, Table.get?_tabulate]
  by_cases hl : l.sku ∈ ks
  · have hcontains : z.products.contains l.sku = true := by rw [Table.contains, hget, if_pos hl, Option.isSome_some]
    rw [ofLine, if_pos hcontains, Table.get?_insert, hget, if_pos hk]
    split <;> rfl
  · have hcontains : z.products.contains l.sku = false := by rw [Table.contains, hget, if_neg hl, Option.isSome_none]
    have hne : k ≠ l.sku := fun h => hl (h ▸ hk)
    rw [ofLine, hcontains, if_neg Bool.false_ne_true, hget, if_pos hk, if_neg hne]

theorem products_combine?_ofLine (hz : z.products = Table.tabulate ks fun _ => .zero) {sum next : Offer}
    {f : String → Nat} (hs : sum.products = Table.tabulate ks fun k => saturate (f k)) {l : BasketLine}
    (h : sum.combine? (ofLine z l) = some next) :
    next.products = Table.tabulate ks fun k => saturate (f k + if l.sku == k then l.quantity.value else 0) := by
  rw [combine?] at h
  obtain ⟨spend, -, rfl⟩ := Option.map_eq_some_iff.1 h
  dsimp only
  rw [hs, Table.mapValues_tabulate]
  apply Table.tabulate_congr
  intro k hk
  rw [get?_products_ofLine hz hk l, Option.getD_some, Quantity.saturate_add]
  congr 2
  by_cases hl : k = l.sku
  · rw [if_pos hl, if_pos (beq_iff_eq.2 hl.symm)]
  · rw [if_neg hl, if_neg (fun h => hl (beq_iff_eq.1 h).symm)]
    rfl

/-- **Lines add their quantities to their articles**, each saturated sum being that of all that was added. -/
theorem products_addLines? (hz : z.products = Table.tabulate ks fun _ => .zero) :
    ∀ (lines : List BasketLine) {sum o : Offer} {f : String → Nat},
      sum.products = (Table.tabulate ks fun k => saturate (f k)) → addLines? z sum lines = some o →
        o.products = Table.tabulate ks fun k => saturate (f k + quantityOf k lines)
  | [], sum, o, f, hs, h => by
    cases h
    exact hs
  | l :: rest, sum, o, f, hs, h => by
    rw [addLines?] at h
    obtain ⟨next, hnext, hrest⟩ := Option.bind_eq_some_iff.1 h
    -- `f` says what was added so far, without bound; for the rest it holds the first line too
    rw [products_addLines? hz rest (products_combine?_ofLine hz hs hnext) hrest]
    apply Table.tabulate_congr
    intro k _
    rw [quantityOf, quantityOf, quantityWhere_cons, Nat.add_assoc]

end Offer

namespace Basket

open Quantity (saturate)

/-- **The offer of a basket** has for each article tracked the sum over its lines, as far as quantities go. -/
theorem products_of_offer? {b : Basket} {o : Offer} (h : b.offer? = some o) :
    o.products = Table.tabulate (Offer.zero b.offerSkus).products.keys fun k => saturate (quantityOf k b.lines) := by
  have hz := Offer.products_zero b.offerSkus
  have hstart : (Offer.zero b.offerSkus).products =
      Table.tabulate (Offer.zero b.offerSkus).products.keys fun _ => saturate 0 := hz
  rw [Offer.products_addLines? hz b.lines hstart h]
  apply Table.tabulate_congr
  intro k _
  rw [Nat.zero_add]

theorem sum_quantityOf_keys (b : Basket) :
    ((Offer.zero b.offerSkus).products.keys.map fun k => quantityOf k b.lines).sum = b.trackedQuantity := by
  have hcontains : (Offer.zero b.offerSkus).products.keys.contains = b.offerSkus.contains := by
    funext s
    rw [Bool.eq_iff_iff, List.contains_iff_mem, List.contains_iff_mem]
    exact Offer.mem_keys_zero b.offerSkus s
  rw [sum_quantityOf b.lines (Offer.nodup_keys_zero b.offerSkus), hcontains, trackedQuantity]

theorem saturate_sum_products {b : Basket} {o : Offer} (h : b.offer? = some o) :
    saturate (o.products.values.map Quantity.value).sum = saturate b.trackedQuantity := by
  have hvalues : o.products.values.map Quantity.value =
      ((Offer.zero b.offerSkus).products.keys.map fun k => quantityOf k b.lines).map fun n => (saturate n).value := by
    rw [products_of_offer? h, Table.values_tabulate, List.map_map, List.map_map]
    rfl
  rw [hvalues, Quantity.saturate_sum_saturate, sum_quantityOf_keys]

/-- **The total of an offer** is the quantity of the lines tracked, as far as quantities go. -/
theorem totalQuantity_of_offer? {b : Basket} {o : Offer} (h : b.offer? = some o) :
    o.totalQuantity = saturate b.trackedQuantity := by
  rw [Offer.totalQuantity, Quantity.total_eq_saturate, saturate_sum_products h]

end Basket
end Eligibility
