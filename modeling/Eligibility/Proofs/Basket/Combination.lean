import Eligibility.Proofs.Basket.Reduction
import Eligibility.Proofs.Decimal.Representable
/-!
# Offers over the same articles add up

Quantities with their saturating sum are a commutative monoid.  An offer that tracks some articles is a table over them
(`Tracks.products_eq`), so offers that track the same ones add up article by article, and are a commutative monoid as
long as their money is one: where no sum rounds (`combine?_laws`).  Of other offers a sum keeps the articles of the
first.
-/
namespace Eligibility

open Decimal (Representable maxPlaces)
open Quantity (saturate)

namespace Quantity

theorem value_zero : zero.value = 0 := rfl

theorem add_zero (q : Quantity) : q.add zero = q := by
  have hlt := q.value_lt
  apply eq_of_value
  rw [value_add, value_zero]
  omega

theorem add_comm (p q : Quantity) : p.add q = q.add p := by
  apply eq_of_value
  rw [value_add, value_add, Nat.add_comm]

theorem zero_add (q : Quantity) : zero.add q = q := by rw [add_comm, add_zero]

theorem add_assoc (p q r : Quantity) : (p.add q).add r = p.add (q.add r) := by
  apply eq_of_value
  simp only [value_add]
  omega

end Quantity

namespace Offer

/-- The quantity of an article; there is none of one that is not tracked. -/
def quantity (o : Offer) (sku : String) : Quantity := (o.products.get? sku).getD .zero

variable {skus : List String} {a b c : Offer}

theorem quantity_zero (skus : List String) (k : String) : (zero skus).quantity k = .zero := by
  rw [quantity, products_zero, Table.get?_tabulate]
  split <;> rfl

namespace Tracks

theorem keys_eq (h : Tracks skus a) : a.products.keys = (zero skus).products.keys :=
  Table.keys_eq_of_mem_iff h.sorted (tracks_zero skus).sorted fun k => by rw [h.mem_keys, mem_keys_zero]

theorem products_eq (h : Tracks skus a) : a.products = Table.tabulate (zero skus).products.keys a.quantity := by
  have hnodup : a.products.keys.Nodup := h.sorted.imp fun h => String.ne_of_lt h
  rw [← h.keys_eq]
  exact Table.eq_tabulate_getD .zero hnodup

end Tracks

theorem eqv_of_scaled (hproducts : a.products = b.products)
    (hspend : a.spend.scaled maxPlaces = b.spend.scaled maxPlaces) : a.eqv b = true := by
  rw [eqv, hproducts, Decimal.eqv, hspend, beq_self_eq_true, beq_self_eq_true]
  rfl

/-- What the sum of two offers is, where there is one. -/
structure IsSum (a b c : Offer) : Prop where
  products_eq : c.products = a.products.mapValues fun k q => q.add (b.quantity k)
  scaled_eq : c.spend.scaled maxPlaces = a.spend.scaled maxPlaces + b.spend.scaled maxPlaces

theorem keys_combine? (a b : Offer) : (a.combine? b).map (fun o => o.products.keys) =
    (a.spend.add? b.spend).map fun _ => a.products.keys := by
  rw [combine?]
  cases a.spend.add? b.spend with
  | none => rfl
  | some spend => simp

/-- **Offers have a sum if no rounding is needed for that of their money.** -/
theorem exists_isSum (h : Representable (a.spend.scaled maxPlaces + b.spend.scaled maxPlaces)) :
    ∃ c, a.combine? b = some c ∧ IsSum a b c := by
  obtain ⟨spend, hspend, hscaled⟩ := Decimal.add?_of_representable h
  exact ⟨_, by rw [combine?, hspend]; rfl, rfl, hscaled⟩

namespace IsSum

theorem keys_eq (h : IsSum a b c) : c.products.keys = a.products.keys := by rw [h.products_eq, Table.keys_mapValues]

theorem tracks (h : IsSum a b c) (ha : Tracks skus a) : Tracks skus c := ha.of_keys_eq h.keys_eq

/-- **The quantities of a sum are the sums of the quantities.** -/
theorem products_eq_tabulate (h : IsSum a b c) (ha : Tracks skus a) :
    c.products = Table.tabulate (zero skus).products.keys fun k => (a.quantity k).add (b.quantity k) := by
  rw [h.products_eq, ha.products_eq, Table.mapValues_tabulate]

theorem quantity_eq (h : IsSum a b c) (ha : Tracks skus a) {k : String} (hk : k ∈ (zero skus).products.keys) :
    c.quantity k = (a.quantity k).add (b.quantity k) := by
  rw [quantity, h.products_eq_tabulate ha, Table.get?_tabulate, if_pos hk, Option.getD_some]

end IsSum

theorem combine?_comm (ha : Tracks skus a) (hb : Tracks skus b)
    (h : Representable (a.spend.scaled maxPlaces + b.spend.scaled maxPlaces)) :
    ∃ ab ba, a.combine? b = some ab ∧ b.combine? a = some ba ∧ Tracks skus ab ∧ ab.eqv ba = true := by
  obtain ⟨ab, hab, hsum⟩ := exists_isSum h
  rw [Int.add_comm] at h
  obtain ⟨ba, hba, hsum'⟩ := exists_isSum h
  refine ⟨ab, ba, hab, hba, hsum.tracks ha, eqv_of_scaled ?_ ?_⟩
  · rw [hsum.products_eq_tabulate ha, hsum'.products_eq_tabulate hb]
    exact Table.tabulate_congr fun k _ => Quantity.add_comm _ _
  · rw [hsum.scaled_eq, hsum'.scaled_eq, Int.add_comm]

theorem combine?_assoc (ha : Tracks skus a) (hb : Tracks skus b)
    (hab : Representable (a.spend.scaled maxPlaces + b.spend.scaled maxPlaces))
    (hbc : Representable (b.spend.scaled maxPlaces + c.spend.scaled maxPlaces))
    (habc : Representable (a.spend.scaled maxPlaces + b.spend.scaled maxPlaces + c.spend.scaled maxPlaces)) :
    ∃ ab bc left right, a.combine? b = some ab ∧ b.combine? c = some bc ∧ ab.combine? c = some left ∧
      a.combine? bc = some right ∧ left.eqv right = true := by
  obtain ⟨ab, hab, hsum⟩ := exists_isSum hab
  obtain ⟨bc, hbc, hsum'⟩ := exists_isSum hbc
  obtain ⟨left, hleft, hsumleft⟩ := exists_isSum (a := ab) (b := c) (by rw [hsum.scaled_eq]; exact habc)
  obtain ⟨right, hright, hsumright⟩ := exists_isSum (a := a) (b := bc)
    (by rw [hsum'.scaled_eq, ← Int.add_assoc]; exact habc)
  refine ⟨ab, bc, left, right, hab, hbc, hleft, hright, eqv_of_scaled ?_ ?_⟩
  · rw [hsumleft.products_eq_tabulate (hsum.tracks ha), hsumright.products_eq_tabulate ha]
    apply Table.tabulate_congr
    intro k hk
    rw [hsum.quantity_eq ha hk, hsum'.quantity_eq hb hk, Quantity.add_assoc]
  · rw [hsumleft.scaled_eq, hsumright.scaled_eq, hsum.scaled_eq, hsum'.scaled_eq, Int.add_assoc]

theorem scaled_spend_zero (skus : List String) : (zero skus).spend.scaled maxPlaces = 0 := Decimal.scaled_zero maxPlaces

/-- Nothing of whatever articles, added to an offer, leaves it as it is. -/
theorem combine?_zero (a : Offer) (skus : List String) :
    ∃ o, a.combine? (zero skus) = some o ∧ o.products = a.products ∧ o.eqv a = true := by
  obtain ⟨o, ho, hsum⟩ := exists_isSum (a := a) (b := zero skus)
    ⟨a.spend, by rw [scaled_spend_zero, Int.add_zero]⟩
  have hproducts : o.products = a.products := by
    rw [hsum.products_eq]
    simp only [Table.mapValues, quantity_zero, Quantity.add_zero, Prod.mk.eta, List.map_id_fun', id]
  exact ⟨o, ho, hproducts, eqv_of_scaled hproducts (by rw [hsum.scaled_eq, scaled_spend_zero, Int.add_zero])⟩

theorem zero_combine? (ha : Tracks skus a) : ∃ o, (zero skus).combine? a = some o ∧ o.eqv a = true := by
  obtain ⟨o, ho, hsum⟩ := exists_isSum (a := zero skus) (b := a) ⟨a.spend, by rw [scaled_spend_zero, Int.zero_add]⟩
  refine ⟨o, ho, eqv_of_scaled ?_ (by rw [hsum.scaled_eq, scaled_spend_zero, Int.zero_add])⟩
  rw [hsum.products_eq_tabulate (tracks_zero skus), ha.products_eq]
  apply Table.tabulate_congr
  intro k _
  rw [quantity_zero, Quantity.zero_add]

/-- **The sum of offers over the same articles is commutative and associative**, with nothing of these articles as its
neutral element, as far as no sum of money has to be rounded.  For any offers the sum is over the articles of the first,
and missing only where that of the money is; nothing of any articles leaves the first as it is. -/
theorem combine?_laws :
    (∀ {skus : List String} {a b : Offer}, Tracks skus a → Tracks skus b →
      Representable (a.spend.scaled maxPlaces + b.spend.scaled maxPlaces) →
      ∃ ab ba, a.combine? b = some ab ∧ b.combine? a = some ba ∧ Tracks skus ab ∧ ab.eqv ba = true) ∧
    (∀ {skus : List String} {a b c : Offer}, Tracks skus a → Tracks skus b →
      Representable (a.spend.scaled maxPlaces + b.spend.scaled maxPlaces) →
      Representable (b.spend.scaled maxPlaces + c.spend.scaled maxPlaces) →
      Representable (a.spend.scaled maxPlaces + b.spend.scaled maxPlaces + c.spend.scaled maxPlaces) →
      ∃ ab bc left right, a.combine? b = some ab ∧ b.combine? c = some bc ∧ ab.combine? c = some left ∧
        a.combine? bc = some right ∧ left.eqv right = true) ∧
    (∀ {skus : List String} {a : Offer}, Tracks skus a → ∃ o, (zero skus).combine? a = some o ∧ o.eqv a = true) ∧
    (∀ a b : Offer, (a.combine? b).map (fun o => o.products.keys) =
      (a.spend.add? b.spend).map fun _ => a.products.keys) ∧
    ∀ (a : Offer) (skus : List String),
      ∃ o, a.combine? (zero skus) = some o ∧ o.products = a.products ∧ o.eqv a = true :=
  ⟨combine?_comm, combine?_assoc, zero_combine?, keys_combine?, combine?_zero⟩

/-- Three offers over two articles.  Each article saturates once, and the sum of all money gives up a place. -/
theorem combine?_laws_of_three :
    let skus := ["tea", "oat", "tea"]
    let half (n : Nat) (h : n < 79_228_162_514_264_337_593_543_950_336) : Decimal := ⟨false, n, 1, h, by decide⟩
    let refund : Decimal := ⟨true, 2000, 2, by decide, by decide⟩
    let most := half 79_228_162_514_264_337_593_543_950_335 (by decide)
    let a : Offer := ⟨[("oat", saturate 1), ("tea", saturate (2 ^ 64))], most⟩
    let b : Offer := ⟨[("oat", saturate 2), ("tea", saturate 5)], most⟩
    let c : Offer := ⟨[("oat", saturate (2 ^ 64)), ("tea", saturate 0)], refund⟩
    (Tracks skus a ∧ Tracks skus b ∧ Tracks skus c) ∧
    (∃ ab ba, a.combine? b = some ab ∧ b.combine? a = some ba ∧ Tracks skus ab ∧ ab.eqv ba = true) ∧
    (∃ ab bc left right, a.combine? b = some ab ∧ b.combine? c = some bc ∧ ab.combine? c = some left ∧
      a.combine? bc = some right ∧ left.eqv right = true) ∧
    ∃ o, (zero skus).combine? c = some o ∧ o.eqv c = true := by
  intro skus half refund most a b c
  have htracks : ∀ (p q : Quantity) (spend : Decimal), Tracks skus ⟨[("oat", p), ("tea", q)], spend⟩ := by
    intro p q spend
    have hsorted : List.Pairwise (· < ·) ["oat", "tea"] := by decide
    refine ⟨hsorted, fun k => ?_⟩
    show k ∈ ["oat", "tea"] ↔ k ∈ ["tea", "oat", "tea"]
    grind
  have hab : Representable (a.spend.scaled maxPlaces + b.spend.scaled maxPlaces) :=
    ⟨⟨false, 15_845_632_502_852_867_518_708_790_067, 0, by decide, by decide⟩, by decide +kernel⟩
  have hbc : Representable (b.spend.scaled maxPlaces + c.spend.scaled maxPlaces) :=
    ⟨half 79_228_162_514_264_337_593_543_950_135 (by decide), by decide +kernel⟩
  have habc : Representable (a.spend.scaled maxPlaces + b.spend.scaled maxPlaces + c.spend.scaled maxPlaces) :=
    ⟨⟨false, 15_845_632_502_852_867_518_708_790_047, 0, by decide, by decide⟩, by decide +kernel⟩
  obtain ⟨hcomm, hassoc, hzero, -⟩ := combine?_laws
  exact ⟨⟨htracks _ _ _, htracks _ _ _, htracks _ _ _⟩, hcomm (htracks _ _ _) (htracks _ _ _) hab,
    hassoc (htracks _ _ _) (htracks _ _ _) hab hbc habc, hzero (htracks _ _ _)⟩

end Offer
end Eligibility
