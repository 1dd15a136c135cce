import Eligibility.Proofs.Basket.Mounting
import Eligibility.Proofs.Decimal.Real
import Eligibility.Proofs.Json.Number
/-!
# Where rules find an offer

A rule asks for the offer of a partner by a path below the partner's name.  The name and the articles are keys of
mappings, while a path is cut at its points, so the path of a name leads to the offer exactly as far as there are no
points in them (`resolve_partnerPath`).
-/
namespace Eligibility
namespace Offer

open Json.Path (lookup? resolve steps)
open Quantity (saturate)

/-- A path below the name of a partner. -/
def partnerPath (partner rest : String) : String := "partners" ++ "." ++ partner ++ "." ++ rest

def quantityPath (sku : String) : String := "products" ++ "." ++ sku

theorem steps_partnerPath (partner rest : String) :
    steps (partnerPath partner rest) = "partners" :: (steps partner ++ steps rest) := by
  rw [partnerPath, Json.Path.steps_append, Json.Path.steps_append]
  rfl

variable {partner : String} (o : Offer) (context : Json)

/-- **A path below a name without a point is a path in the offer.** -/
theorem lookup?_partnerPath (h : '.' ∉ partner.toList) (rest : String) :
    lookup? (partnerPath partner rest) (o.mergeInto partner context) = lookup? rest o.toContext := by
  rw [lookup?, steps_partnerPath, Json.Path.steps_of_not_mem h, List.singleton_append, walk?_mergeInto]
  rfl

theorem resolve_partnerPath_of_lookup? (h : '.' ∉ partner.toList) {rest : String} {v : Json}
    (hv : lookup? rest o.toContext = some v) (hnull : v.isNull = false) :
    resolve (partnerPath partner rest) (o.mergeInto partner context) = .ok v :=
  Json.Path.resolve_of_lookup? ((lookup?_partnerPath o context h rest).trans hv) hnull

theorem lookup?_quantityPath (sku : String) :
    lookup? (quantityPath sku) o.toContext = lookup? sku o.productsJson := by
  rw [quantityPath, Json.Path.lookup?_append]
  rfl

theorem lookup?_productsJson {sku : String} (h : '.' ∉ sku.toList) :
    lookup? sku o.productsJson = (o.products.get? sku).map Quantity.toJson := by
  rw [lookup?, Json.Path.steps_of_not_mem h]
  simp only [Json.Path.walk?, productsJson, Json.Path.step?, Table.get?_mapValues]
  cases o.products.get? sku <;> rfl

theorem lookup?_productsJson_of_mem {sku : String} (h : '.' ∈ sku.toList) : lookup? sku o.productsJson = none := by
  obtain ⟨first, second, rest, hsteps⟩ := Json.Path.exists_steps_of_mem h
  -- a quantity has no members, so the path ends there if not before
  rw [lookup?, hsteps]
  simp only [Json.Path.walk?, productsJson, Json.Path.step?, Table.get?_mapValues]
  cases o.products.get? first <;> rfl

/-- **A path below a name with a point leads past the offer**, to what the other partners of the context hold. -/
theorem lookup?_partnerPath_of_mem (h : '.' ∈ partner.toList) (rest : String) :
    lookup? (partnerPath partner rest) (o.mergeInto partner context) =
      lookup? (partner ++ "." ++ rest) (.object (partnersIn context)) := by
  obtain ⟨first, second, others, hsteps⟩ := Json.Path.exists_steps_of_mem h
  have hne : first ≠ partner := by
    rintro rfl
    exact Json.Path.not_mem_of_mem_steps (hsteps ▸ List.mem_cons_self) h
  rw [lookup?, lookup?, steps_partnerPath, Json.Path.steps_append, hsteps, mergeInto_eq]
  simp only [Json.Path.walk?, Json.Path.step?, List.cons_append, Table.get?_insert_self, Option.bind_some,
    Table.get?_insert_of_ne hne]

theorem exists_asReal_spendJson :
    ∃ x y, o.spend.toReal = .finite x ∧ o.spendJson.asReal = some y ∧ y.toInt = x.toInt := by
  obtain ⟨x, hx⟩ := Decimal.exists_toReal_eq o.spend
  obtain ⟨y, hy, hvalue⟩ := Json.asReal_of_ofBinary64? (x := x) rfl
  exact ⟨x, y, hx, by rw [spendJson, hx]; exact hy, hvalue⟩

/-- **Where a rule finds the offer of a partner.**  Below a name without a point it finds the quantities, the spend as a
number, and the quantity of each article tracked whose name has no point; there is no path to one that has.  Below a
name with a point it finds what the partners had there before the offer. -/
theorem resolve_partnerPath (o : Offer) (partner : String) (context : Json) :
    ('.' ∉ partner.toList →
      resolve (partnerPath partner "products") (o.mergeInto partner context) = .ok o.productsJson ∧
      resolve (partnerPath partner "spend") (o.mergeInto partner context) = .ok o.spendJson ∧
      (∃ x y, o.spend.toReal = .finite x ∧ o.spendJson.asReal = some y ∧ y.toInt = x.toInt) ∧
      ∀ sku q, o.products.get? sku = some q →
        resolve (partnerPath partner (quantityPath sku)) (o.mergeInto partner context) =
          if '.' ∈ sku.toList then .error (.unresolvedPath (partnerPath partner (quantityPath sku)))
          else .ok q.toJson) ∧
    ('.' ∈ partner.toList → ∀ rest, lookup? (partnerPath partner rest) (o.mergeInto partner context) =
      lookup? (partner ++ "." ++ rest) (.object (partnersIn context))) := by
  refine ⟨?_, lookup?_partnerPath_of_mem o context⟩
  intro h
  obtain ⟨x, y, hx, hy, hvalue⟩ := exists_asReal_spendJson o
  have hspend : resolve (partnerPath partner "spend") (o.mergeInto partner context) = .ok o.spendJson :=
    resolve_partnerPath_of_lookup? o context h rfl (Json.isNull_of_asReal hy)
  refine ⟨resolve_partnerPath_of_lookup? o context h rfl rfl, hspend, ⟨x, y, hx, hy, hvalue⟩, ?_⟩
  intro sku q hq
  split
  · rename_i hsku
    apply Json.Path.resolve_of_lookup?_none
    rw [lookup?_partnerPath o context h, lookup?_quantityPath, lookup?_productsJson_of_mem o hsku]
  · rename_i hsku
    refine resolve_partnerPath_of_lookup? o context h ?_ rfl
    rw [lookup?_quantityPath, lookup?_productsJson o hsku, hq]
    rfl

/-- A partner without a name, and two articles, one of them with a point. -/
theorem resolve_partnerPath_of_empty_name :
    let o : Offer := ⟨[("a.b", saturate 3), ("tea", saturate 2)], .zero⟩
    let after := o.mergeInto "" (.array [])
    '.' ∉ "".toList ∧ o.products.get? "tea" = some (saturate 2) ∧ o.products.get? "a.b" = some (saturate 3) ∧
    resolve "partners..products" after = .ok o.productsJson ∧
    resolve "partners..products.tea" after = .ok (saturate 2).toJson ∧
    resolve "partners..products.a.b" after = .error (.unresolvedPath "partners..products.a.b") := by
  intro o after
  obtain ⟨hproducts, -, -, hquantity⟩ := (resolve_partnerPath o "" (.array [])).1 (by decide)
  exact ⟨by decide, rfl, rfl, hproducts, hquantity "tea" _ rfl, hquantity "a.b" _ rfl⟩

/-- A point in the name of a partner leads to what another partner has there, and one in the name of an article leads
nowhere, although both offers track these articles. -/
theorem resolve_partnerPath_of_points :
    let nine : Json := .number (.integer ⟨9, by decide⟩)
    let others : Json := .object [("partners", .object [("acme", .object [("co", .object [("products", .object
      [("tea", nine)])])])])]
    let o : Offer := ⟨[("a.b", saturate 3), ("tea", saturate 2)], .zero⟩
    o.products.get? "tea" = some (saturate 2) ∧ (saturate 2).toJson ≠ nine ∧
    resolve "partners.acme.co.products.tea" (o.mergeInto "acme.co" others) = .ok nine ∧
    o.products.get? "a.b" = some (saturate 3) ∧
    resolve "partners.acme.products.a.b" (o.mergeInto "acme" others) =
      .error (.unresolvedPath "partners.acme.products.a.b") := by
  refine ⟨rfl, ?_, rfl, rfl, rfl⟩
  intro h
  cases h

end Offer
end Eligibility
