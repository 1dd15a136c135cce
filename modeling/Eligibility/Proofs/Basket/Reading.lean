import Eligibility.Basket.Source
import Eligibility.Proofs.Decimal.Text
import Eligibility.Proofs.Json.Text
import Eligibility.Proofs.Table.Sorted
import Mathlib.Data.List.Forall2
import Mathlib.Data.Option.Basic
/-!
# Baskets, written and read again

A source shows values if their parts can be found in its nodes (`Source.Shows`): values themselves do, and so do
texts.  From any such source the value of a line, a basket or an offer is read as what it was made of, but for the
signs of zeros (`Source.Shows.line?_toJson`, `Source.Shows.basket?_members`, `Source.Shows.offer?_toJson`), and those
do not show in the offer of a basket (`Basket.offer?_withoutZeroSigns`).
-/
namespace Eligibility

/-! ## Sources that show values -/

variable {δ : Type} {s : Source δ} {shows : Json → δ → Prop}

/-- **A source in which nodes show values.** -/
structure Source.Shows (s : Source δ) (shows : Json → δ → Prop) : Prop where
  object {members : List (String × Json)} {d : δ} (h : shows (.object members) d) : ∃ parts,
    s.parts? d = some (.named parts) ∧ List.Forall₂ (fun m p => p.1 = m.1 ∧ shows m.2 p.2) members parts
  array {items : List Json} {d : δ} (h : shows (.array items) d) : ∃ ds,
    s.list? d = some ds ∧ List.Forall₂ shows items ds
  string {t : String} {d : δ} (h : shows (.string t) d) :
    s.text? d = some t ∧ s.money? d = Decimal.read? t ∧ s.optional? d = some (some d)
  quantity {q : Quantity} {d : δ} (h : shows q.toJson d) : s.quantity? d = some q
  null {d : δ} (h : shows .null d) : s.optional? d = some none

namespace Json

theorem quantity?_toJson (q : Quantity) : quantity? q.toJson = some q := by
  have hpositive : ¬ (q.value : Int) < 0 := by omega
  rw [Quantity.toJson, quantity?, if_neg hpositive]
  exact q.ofNat?_value

/-- **A value shows itself.** -/
theorem source_shows : source.Shows Eq where
  object := by
    rintro members _ rfl
    exact ⟨members, rfl, List.forall₂_same.2 fun _ _ => ⟨rfl, rfl⟩⟩
  array := by
    rintro items _ rfl
    exact ⟨items, rfl, List.forall₂_same.2 fun _ _ => rfl⟩
  string := by
    rintro t _ rfl
    exact ⟨rfl, rfl, rfl⟩
  quantity := by
    rintro q _ rfl
    exact quantity?_toJson q
  null := by
    rintro _ rfl
    rfl

namespace Written

theorem forall₂_of_itemsOfJson? : ∀ {items : List Json} {ws : List Written}, itemsOfJson? items = some ws →
    List.Forall₂ (fun v w => ofJson? v = some w) items ws
  | [], _, h => by
    cases h
    exact .nil
  | v :: rest, _, h => by
    obtain ⟨w, hw, h⟩ := Option.bind_eq_some_iff.1 h
    obtain ⟨ws, hws, rfl⟩ := Option.map_eq_some_iff.1 h
    exact .cons hw (forall₂_of_itemsOfJson? hws)

theorem forall₂_of_membersOfJson? : ∀ {members : List (String × Json)} {ws : List (Option String × Written)},
    membersOfJson? members = some ws → ∃ parts,
      ws.mapM (fun (m : Option String × Written) => m.1.map fun k => (k, m.2)) = some parts ∧
        List.Forall₂ (fun m p => p.1 = m.1 ∧ ofJson? m.2 = some p.2) members parts
  | [], _, h => by
    cases h
    exact ⟨[], rfl, .nil⟩
  | (k, v) :: rest, _, h => by
    obtain ⟨w, hw, h⟩ := Option.bind_eq_some_iff.1 h
    obtain ⟨ws, hws, rfl⟩ := Option.map_eq_some_iff.1 h
    obtain ⟨parts, hparts, hall⟩ := forall₂_of_membersOfJson? hws
    exact ⟨(k, w) :: parts, by simp [hparts], .cons ⟨rfl, hw⟩ hall⟩

theorem atom?_ofInteger (n : Integer) : atom? (.number (.ofInteger n)) = some (.number (.integer n)) := by
  rw [atom?, NumberText.toNumber?_ofInteger, Option.map_some]

/-- **A text shows the value that it writes.** -/
theorem source_shows : source.Shows fun v w => ofJson? v = some w where
  object := by
    intro members d h
    obtain ⟨ws, hws, rfl⟩ := Option.map_eq_some_iff.1 h
    obtain ⟨parts, hparts, hall⟩ := forall₂_of_membersOfJson? hws
    exact ⟨parts, by simp [source, hparts], hall⟩
  array := by
    intro items d h
    obtain ⟨ws, hws, rfl⟩ := Option.map_eq_some_iff.1 h
    exact ⟨ws, rfl, forall₂_of_itemsOfJson? hws⟩
  string := by
    rintro t _ ⟨⟩
    exact ⟨rfl, rfl, rfl⟩
  quantity := by
    intro q d h
    have hq := quantity?_toJson q
    rw [Quantity.toJson] at h hq
    generalize (⟨q.value, _⟩ : Integer) = n at h hq
    cases h
    show (atom? (.number (.ofInteger n))).bind Json.quantity? = some q
    rw [atom?_ofInteger]
    exact hq
  null := by
    rintro _ ⟨⟩
    rfl

end Written
end Json

/-! ## Reading -/

theorem Parts.part?_of_mem {parts : List (String × δ)} {name : String} {d : δ} (hnodup : (parts.map Prod.fst).Nodup)
    (h : (name, d) ∈ parts) (place : Nat) : (Parts.named parts).part? place name = some (some d) := by
  have hfilter : (parts.filter fun e => e.1 == name) = [(name, d)] := by
    induction parts with
    | nil => cases h
    | cons e rest ih =>
      obtain ⟨hname, hrest⟩ := List.nodup_cons.1 hnodup
      rcases List.mem_cons.1 h with rfl | h
      · have hnone : (rest.filter fun e => e.1 == name) = [] := by
          rw [List.filter_eq_nil_iff]
          intro e he heq
          exact hname (List.mem_map.2 ⟨e, he, by simpa using heq⟩)
        simp [hnone]
      · have hne : e.1 ≠ name := by
          rintro rfl
          exact hname (List.mem_map.2 ⟨_, h, rfl⟩)
        simp [hne, ih hrest h]
  rw [part?, hfilter]

theorem exists_mem_of_forall₂ {α β : Type} {R : α → β → Prop} {as : List α} {bs : List β} {a : α}
    (h : List.Forall₂ R as bs) (ha : a ∈ as) : ∃ b ∈ bs, R a b := by
  induction h with
  | nil => cases ha
  | cons hab _ ih =>
    rcases List.mem_cons.1 ha with rfl | ha
    · exact ⟨_, List.mem_cons_self, hab⟩
    · obtain ⟨b, hb, hab⟩ := ih ha
      exact ⟨b, List.mem_cons_of_mem _ hb, hab⟩

theorem mapM_eq_some_map {α β : Type} {f : δ → Option β} {g : α → β} {as : List α} {ds : List δ}
    (h : List.Forall₂ (fun a d => f d = some (g a)) as ds) : ds.mapM f = some (as.map g) := by
  induction h with
  | nil => rfl
  | cons hd _ ih => simp [hd, ih]

/-- The line, without signs of zeros. -/
def BasketLine.withoutZeroSigns (l : BasketLine) : BasketLine :=
  { l with unitPrice := l.unitPrice.withoutZeroSign, total := l.total.withoutZeroSign }

/-- The basket, without signs of zeros. -/
def Basket.withoutZeroSigns (b : Basket) : Basket := { b with lines := b.lines.map .withoutZeroSigns }

/-- The offer, without the sign of a zero. -/
def Offer.withoutZeroSign (o : Offer) : Offer := { o with spend := o.spend.withoutZeroSign }

namespace Source.Shows

theorem money? (h : s.Shows shows) {x : Decimal} {d : δ} (hd : shows (.string x.text) d) :
    s.money? d = some x.withoutZeroSign := by rw [(h.string hd).2.1, Decimal.read?_text]

/-- **A member of a value is found** as the part of its name. -/
theorem exists_part (h : s.Shows shows) {members : List (String × Json)} {d : δ} (hd : shows (.object members) d)
    (hnodup : (members.map Prod.fst).Nodup) : ∃ parts, s.parts? d = some (.named parts) ∧
      ∀ name v place, (name, v) ∈ members → ∃ e, (Parts.named parts).part? place name = some (some e) ∧ shows v e := by
  obtain ⟨parts, hparts, hall⟩ := h.object hd
  have hnames : members.map Prod.fst = parts.map Prod.fst := by
    rw [← List.forall₂_eq_eq_eq, List.forall₂_map_left_iff, List.forall₂_map_right_iff]
    exact hall.imp fun _ _ hm => hm.1.symm
  refine ⟨parts, hparts, fun name v place hv => ?_⟩
  obtain ⟨⟨_, e⟩, he, rfl, hshows⟩ := exists_mem_of_forall₂ hall hv
  exact ⟨e, Parts.part?_of_mem (hnames ▸ hnodup) he place, hshows⟩

/-- **A line is read as it was.** -/
theorem line?_toJson (h : s.Shows shows) {l : BasketLine} {d : δ} (hd : shows l.toJson d) :
    s.line? d = some l.withoutZeroSigns := by
  obtain ⟨ds, hds, hall⟩ := h.array hd
  obtain - | @⟨_, quantity, _, _, hquantity, hall⟩ := hall
  obtain - | @⟨_, sku, _, _, hsku, hall⟩ := hall
  obtain - | @⟨_, unitPrice, _, _, hunitPrice, hall⟩ := hall
  obtain - | @⟨_, total, _, _, htotal, ⟨⟩⟩ := hall
  simp [line?, hds, h.quantity hquantity, (h.string hsku).1, h.money? hunitPrice, h.money? htotal,
    BasketLine.withoutZeroSigns]

theorem lines?_toJson (h : s.Shows shows) {lines : List BasketLine} {d : δ}
    (hd : shows (.array (lines.map BasketLine.toJson)) d) : s.lines? d = some (lines.map .withoutZeroSigns) := by
  obtain ⟨ds, hds, hall⟩ := h.array hd
  rw [List.forall₂_map_left_iff] at hall
  rw [lines?, hds, Option.bind_some]
  exact mapM_eq_some_map (hall.imp fun _ _ => h.line?_toJson)

theorem texts?_toJson (h : s.Shows shows) {texts : List String} {d : δ}
    (hd : shows (.array (texts.map Json.string)) d) : s.texts? d = some texts := by
  obtain ⟨ds, hds, hall⟩ := h.array hd
  rw [List.forall₂_map_left_iff] at hall
  rw [texts?, hds, Option.bind_some, mapM_eq_some_map (g := id) (hall.imp fun _ _ ht => (h.string ht).1), List.map_id]

theorem name?_toJson (h : s.Shows shows) {name : Option String} {d : δ}
    (hd : shows ((name.map Json.string).getD .null) d) : s.name? d = some name := by
  cases name with
  | none => rw [name?, h.null hd]; rfl
  | some t =>
    obtain ⟨htext, -, hpresent⟩ := h.string hd
    rw [name?, hpresent]
    simp [htext]

/-- **A basket is read as it was**, in whatever order its members stand. -/
theorem basket?_members (h : s.Shows shows) {b : Basket} {members : List (String × Json)} {d : δ}
    (hperm : members.Perm b.toJson.members) (hd : shows (.object members) d) :
    s.basket? d = some b.withoutZeroSigns := by
  have hnodup : (members.map Prod.fst).Nodup := by
    have hnames : b.toJson.members.map Prod.fst = ["partner", "offer_skus", "items"] := rfl
    rw [(hperm.map Prod.fst).nodup_iff, hnames]
    decide
  obtain ⟨parts, hparts, hfound⟩ := h.exists_part hd hnodup
  obtain ⟨partner, hpartner, hname⟩ := hfound "partner" _ 0 (hperm.mem_iff.2 (.head _))
  obtain ⟨skus, hskus, htexts⟩ := hfound "offer_skus" _ 1 (hperm.mem_iff.2 (.tail _ (.head _)))
  obtain ⟨items, hitems, hlines⟩ := hfound "items" _ 2 (hperm.mem_iff.2 (.tail _ (.tail _ (.head _))))
  simp [basket?, hparts, Parts.fits, Parts.optional, hpartner, hskus, hitems, h.name?_toJson hname,
    h.texts?_toJson htexts, h.lines?_toJson hlines, Basket.withoutZeroSigns]

theorem products?_toJson (h : s.Shows shows) {o : Offer} {d : δ} (hsorted : o.products.Sorted)
    (hd : shows o.productsJson d) : s.products? d = some o.products := by
  obtain ⟨parts, hparts, hall⟩ := h.object hd
  have hentries : parts.mapM (fun e => (s.quantity? e.2).map fun q => (e.1, q)) = some o.products := by
    rw [Table.mapValues, List.forall₂_map_left_iff] at hall
    conv => rhs; rw [← List.map_id o.products]
    refine mapM_eq_some_map (hall.imp fun m p hm => ?_)
    rw [h.quantity hm.2, hm.1]
    rfl
  simp [products?, hparts, hentries, Table.ofEntries_of_sorted hsorted]

/-- **An offer is read as it was.** -/
theorem offer?_toJson (h : s.Shows shows) {o : Offer} {d : δ} (hsorted : o.products.Sorted) (hd : shows o.toJson d) :
    s.offer? d = some o.withoutZeroSign := by
  have hnodup : (o.toJson.members.map Prod.fst).Nodup := by
    have hnames : o.toJson.members.map Prod.fst = ["products", "spend"] := rfl
    rw [hnames]
    decide
  obtain ⟨parts, hparts, hfound⟩ := h.exists_part hd hnodup
  obtain ⟨products, hproducts, hquantities⟩ := hfound "products" _ 0 (.head _)
  obtain ⟨spend, hspend, hmoney⟩ := hfound "spend" _ 1 (.tail _ (.head _))
  simp [offer?, hparts, Parts.fits, Parts.required, hproducts, hspend, h.products?_toJson hsorted hquantities,
    h.money? hmoney, Offer.withoutZeroSign]

end Source.Shows

/-! ## Equality -/

/-- Whether two lines are equal, with prices and totals of one value. -/
def BasketLine.Eqv (a b : BasketLine) : Prop :=
  a.quantity = b.quantity ∧ a.sku = b.sku ∧ a.unitPrice.eqv b.unitPrice = true ∧ a.total.eqv b.total = true

/-- Whether two baskets are equal, line by line. -/
def Basket.Eqv (a b : Basket) : Prop :=
  a.partner = b.partner ∧ a.offerSkus = b.offerSkus ∧ List.Forall₂ BasketLine.Eqv a.lines b.lines

theorem BasketLine.eqv_withoutZeroSigns (l : BasketLine) : l.Eqv l.withoutZeroSigns :=
  ⟨rfl, rfl, l.unitPrice.eqv_withoutZeroSign, l.total.eqv_withoutZeroSign⟩

theorem Basket.eqv_withoutZeroSigns (b : Basket) : b.Eqv b.withoutZeroSigns := by
  refine ⟨rfl, rfl, ?_⟩
  rw [withoutZeroSigns, List.forall₂_map_right_iff]
  exact List.forall₂_same.2 fun l _ => l.eqv_withoutZeroSigns

namespace Offer

theorem eqv_of_withoutZeroSign {a b : Offer} (h : a.withoutZeroSign = b.withoutZeroSign) : a.eqv b = true := by
  obtain ⟨hproducts, hspend⟩ := Offer.mk.inj h
  have hscaled := congrArg (Decimal.scaled · Decimal.maxPlaces) hspend
  simp only [Decimal.scaled_withoutZeroSign] at hscaled
  simp [eqv, hproducts, Decimal.eqv, hscaled]

theorem eqv_withoutZeroSign (o : Offer) : o.eqv o.withoutZeroSign = true :=
  eqv_of_withoutZeroSign (by simp [withoutZeroSign])

theorem combine?_withoutZeroSign (a b : Offer) :
    (a.withoutZeroSign.combine? b.withoutZeroSign).map withoutZeroSign = (a.combine? b).map withoutZeroSign := by
  let products := a.products.mapValues fun sku q => q.add ((b.products.get? sku).getD .zero)
  have hmap : ∀ spend? : Option Decimal, (spend?.map fun spend => (⟨products, spend⟩ : Offer)).map withoutZeroSign =
      (spend?.map Decimal.withoutZeroSign).map fun spend => ⟨products, spend⟩ := by
    intro spend?
    cases spend? <;> rfl
  calc (a.withoutZeroSign.combine? b.withoutZeroSign).map withoutZeroSign
      = ((a.spend.withoutZeroSign.add? b.spend.withoutZeroSign).map Decimal.withoutZeroSign).map
          fun spend => ⟨products, spend⟩ := hmap _
    _ = ((a.spend.add? b.spend).map Decimal.withoutZeroSign).map fun spend => ⟨products, spend⟩ := by
        rw [Decimal.add?_withoutZeroSign]
    _ = (a.combine? b).map withoutZeroSign := (hmap _).symm

theorem ofLine_withoutZeroSigns (zero : Offer) (l : BasketLine) :
    (ofLine zero l.withoutZeroSigns).withoutZeroSign = (ofLine zero l).withoutZeroSign := by
  unfold ofLine
  by_cases h : zero.products.contains l.sku = true <;> simp [h, BasketLine.withoutZeroSigns, withoutZeroSign]

theorem rel_of_map_eq {α β : Type} {f : α → β} {x y : Option α} (h : x.map f = y.map f) :
    Option.Rel (fun a b => f a = f b) x y := by
  cases x with
  | none =>
    rw [Option.map_none, eq_comm, Option.map_eq_none_iff] at h
    rw [h]
    exact .none
  | some a =>
    rw [Option.map_some, eq_comm, Option.map_eq_some_iff] at h
    obtain ⟨b, rfl, hab⟩ := h
    exact .some hab.symm

/-- **Sums of lines do not show signs of zeros.** -/
theorem addLines?_withoutZeroSigns (zero : Offer) : ∀ (lines : List BasketLine) {sum sum' : Offer},
    sum.withoutZeroSign = sum'.withoutZeroSign →
      Option.Rel (fun o o' => o.withoutZeroSign = o'.withoutZeroSign) (addLines? zero sum lines)
        (addLines? zero sum' (lines.map .withoutZeroSigns))
  | [], _, _, h => .some h
  | l :: rest, sum, sum', h => by
    have hstep : (sum.combine? (ofLine zero l)).map withoutZeroSign =
        (sum'.combine? (ofLine zero l.withoutZeroSigns)).map withoutZeroSign := by
      rw [← combine?_withoutZeroSign sum, ← combine?_withoutZeroSign sum', h, ofLine_withoutZeroSigns]
    have hrel := rel_of_map_eq hstep
    rw [List.map_cons, addLines?, addLines?]
    generalize sum.combine? (ofLine zero l) = next at hrel ⊢
    generalize sum'.combine? (ofLine zero l.withoutZeroSigns) = next' at hrel ⊢
    cases hrel with
    | none => exact .none
    | some hnext => exact addLines?_withoutZeroSigns zero rest hnext

end Offer

/-- **The offer of a basket does not show signs of zeros.** -/
theorem Basket.offer?_withoutZeroSigns (b : Basket) :
    Option.Rel (fun o o' => o.eqv o' = true) b.offer? b.withoutZeroSigns.offer? := by
  have hrel : Option.Rel (fun o o' => o.withoutZeroSign = o'.withoutZeroSign) b.offer? b.withoutZeroSigns.offer? :=
    Offer.addLines?_withoutZeroSigns (.zero b.offerSkus) b.lines rfl
  generalize b.offer? = o at hrel ⊢
  generalize b.withoutZeroSigns.offer? = o' at hrel ⊢
  cases hrel with
  | none => exact .none
  | some h => exact .some (Offer.eqv_of_withoutZeroSign h)

/-! ## Written and read again -/

/-- **Whether reading gives `a`** from a value itself, and from its text. -/
def Json.ReadsAs {α : Type} (v : Json) (read : {δ : Type} → Source δ → δ → Option α) (a : α) : Prop :=
  read Json.source v = some a ∧ (Json.Written.read? (Json.compact v)).bind (read Json.Written.source) = some a

theorem Json.readsAs_of_shows {α : Type} {v : Json} {read : {δ : Type} → Source δ → δ → Option α} {a : α}
    (hwritten : (Written.ofJson? v).isSome)
    (h : ∀ {δ : Type} {s : Source δ} {shows : Json → δ → Prop}, s.Shows shows → ∀ {d : δ}, shows v d → read s d = some a) :
    v.ReadsAs read a := by
  obtain ⟨w, hw⟩ := Option.isSome_iff_exists.1 hwritten
  refine ⟨h source_shows rfl, ?_⟩
  rw [Written.read?_compact hw]
  exact h Written.source_shows hw

open Json.Written (isSome_ofJson?_array isSome_ofJson?_object)

theorem BasketLine.isSome_ofJson? (l : BasketLine) : (Json.Written.ofJson? l.toJson).isSome := by
  refine isSome_ofJson?_array fun v hv => ?_
  simp only [List.mem_cons, List.not_mem_nil, or_false] at hv
  rcases hv with rfl | rfl | rfl | rfl <;> rfl

theorem Offer.isSome_ofJson? (o : Offer) : (Json.Written.ofJson? o.toJson).isSome := by
  refine isSome_ofJson?_object fun m hm => ?_
  rcases List.mem_pair.1 hm with rfl | rfl
  · refine isSome_ofJson?_object fun m hm => ?_
    obtain ⟨e, -, rfl⟩ := List.mem_map.1 hm
    rfl
  · rfl

theorem Basket.isSome_ofJson? {b : Basket} {members : List (String × Json)} (hperm : members.Perm b.toJson.members) :
    (Json.Written.ofJson? (.object members)).isSome := by
  refine isSome_ofJson?_object fun m hm => ?_
  have hmember : m ∈ [("partner", (b.partner.map Json.string).getD .null),
      ("offer_skus", .array (b.offerSkus.map .string)), ("items", .array (b.lines.map BasketLine.toJson))] :=
    hperm.mem_iff.1 hm
  simp only [List.mem_cons, List.not_mem_nil, or_false] at hmember
  rcases hmember with rfl | rfl | rfl
  · cases b.partner <;> rfl
  · refine isSome_ofJson?_array fun v hv => ?_
    obtain ⟨sku, -, rfl⟩ := List.mem_map.1 hv
    rfl
  · refine isSome_ofJson?_array fun v hv => ?_
    obtain ⟨l, -, rfl⟩ := List.mem_map.1 hv
    exact l.isSome_ofJson?

/-- **What is written of baskets is read again.**  A line, an offer and a basket, whose members may stand in any order,
are read as equal ones, both from values and from texts; and the basket that is read has an equal offer, or none if
there was none. -/
theorem Basket.readsAs_toJson :
    (∀ l : BasketLine, ∃ l', l.toJson.ReadsAs Source.line? l' ∧ l.Eqv l') ∧
    (∀ o : Offer, o.products.Sorted → ∃ o', o.toJson.ReadsAs Source.offer? o' ∧ o.eqv o' = true) ∧
    ∀ (b : Basket) (members : List (String × Json)), members.Perm b.toJson.members →
      ∃ b', (Json.object members).ReadsAs Source.basket? b' ∧ b.Eqv b' ∧
        Option.Rel (fun o o' => o.eqv o' = true) b.offer? b'.offer? := by
  refine ⟨?_, ?_, ?_⟩
  · intro l
    exact ⟨l.withoutZeroSigns, Json.readsAs_of_shows l.isSome_ofJson? fun h _ => h.line?_toJson, l.eqv_withoutZeroSigns⟩
  · intro o hsorted
    exact ⟨o.withoutZeroSign, Json.readsAs_of_shows o.isSome_ofJson? fun h _ => h.offer?_toJson hsorted,
      o.eqv_withoutZeroSign⟩
  · intro b members hperm
    exact ⟨b.withoutZeroSigns, Json.readsAs_of_shows (isSome_ofJson? hperm) fun h _ => h.basket?_members hperm,
      b.eqv_withoutZeroSigns, b.offer?_withoutZeroSigns⟩

/-- The greatest quantity, a price with all the digits and places that there may be, a total that is zero with a sign,
and an article whose name needs escapes.  The members of the basket stand in another order. -/
theorem Basket.readsAs_toJson_of_greatest :
    let l : BasketLine := ⟨⟨18_446_744_073_709_551_615, by decide⟩, "tea \"x\"\n",
      ⟨true, 79_228_162_514_264_337_593_543_950_335, 28, by decide, by decide⟩, ⟨true, 0, 2, by decide, by decide⟩⟩
    let o : Offer := ⟨[("oat", .zero), (l.sku, l.quantity)], l.unitPrice⟩
    let b : Basket := ⟨none, [l.sku, "oat"], [l, l]⟩
    let members := [("items", .array [l.toJson, l.toJson]), ("offer_skus", .array [.string l.sku, .string "oat"]),
      ("partner", .null)]
    (∃ l', l.toJson.ReadsAs Source.line? l' ∧ l.Eqv l') ∧
      (o.products.Sorted ∧ ∃ o', o.toJson.ReadsAs Source.offer? o' ∧ o.eqv o' = true) ∧
      members.Perm b.toJson.members ∧ ∃ b', (Json.object members).ReadsAs Source.basket? b' ∧ b.Eqv b' ∧
        Option.Rel (fun o o' => o.eqv o' = true) b.offer? b'.offer? := by
  intro l o b members
  obtain ⟨hline, hoffer, hbasket⟩ := readsAs_toJson
  have hsorted : o.products.Sorted := by
    refine Table.sorted_cons.2 ⟨?_, Table.sorted_cons.2 ⟨nofun, .nil⟩⟩
    intro other hother
    obtain rfl := List.mem_singleton.1 hother
    decide +kernel
  have hperm : members.Perm b.toJson.members :=
    ((List.Perm.swap _ _ _).trans ((List.Perm.swap _ _ _).cons _)).trans (List.Perm.swap _ _ _)
  exact ⟨hline l, ⟨hsorted, hoffer o hsorted⟩, hperm, hbasket b members hperm⟩

end Eligibility
