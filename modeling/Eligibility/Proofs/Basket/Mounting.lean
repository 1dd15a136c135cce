import Eligibility.Basket.Offer
import Eligibility.Proofs.Json.Path
import Eligibility.Proofs.Table.Sorted
/-!
# Offers in a context

Whatever a context was before, the offer that is put into it stands under the name of its partner
(`walk?_mergeInto`).  All else in the context stays as it was (`lookup?_mergeInto_of_ne`); a later offer of the same
partner takes the place of an earlier one, and offers of different partners may be put in in either order
(`mergeInto_update`).
-/
namespace Eligibility

/-- The member of a name; what is no mapping has none. -/
def Json.member? (name : String) (v : Json) : Option Json := Table.get? name v.members

namespace Offer

/-- **The offer stands in the context**, under the name of the partner. -/
theorem walk?_mergeInto (o : Offer) (partner : String) (context : Json) (rest : List String) :
    Json.Path.walk? (o.mergeInto partner context) ("partners" :: partner :: rest) =
      Json.Path.walk? o.toContext rest := by
  rw [mergeInto]
  simp only [Json.Path.walk?, Json.Path.step?, Table.get?_insert_self, Option.bind_some]

/-- The offers of partners that a context holds already. -/
def partnersIn (context : Json) : Table Json := ((context.member? "partners").getD .null).members

theorem mergeInto_eq (o : Offer) (partner : String) (context : Json) : o.mergeInto partner context =
    .object (context.members.insert "partners" (.object ((partnersIn context).insert partner o.toContext))) := rfl

theorem members_mergeInto (o : Offer) (partner : String) (context : Json) : (o.mergeInto partner context).members =
    context.members.insert "partners" (.object ((partnersIn context).insert partner o.toContext)) := rfl

theorem get?_partnersIn (name : String) (context : Json) :
    (partnersIn context).get? name = (context.member? "partners").bind (Json.member? name) := by
  rw [partnersIn]
  cases context.member? "partners" <;> rfl

theorem partnersIn_mergeInto (o : Offer) (partner : String) (context : Json) :
    partnersIn (o.mergeInto partner context) = (partnersIn context).insert partner o.toContext := by
  rw [partnersIn, Json.member?, members_mergeInto, Table.get?_insert_self]
  rfl

/-- **A path that does not lead to the partner leads where it led before**, but for the mapping of partners itself. -/
theorem lookup?_mergeInto_of_ne (o : Offer) {partner path : String} {context : Json}
    (hcontext : context.isObject = true)
    (hpartners : ∀ v, context.member? "partners" = some v → v.isObject = true) (hbare : path ≠ "partners")
    (hne : ∀ rest, Json.Path.steps path ≠ "partners" :: partner :: rest) :
    Json.Path.lookup? path (o.mergeInto partner context) = Json.Path.lookup? path context := by
  obtain ⟨members, rfl⟩ : ∃ members, context = .object members := by
    cases context with
    | object members => exact ⟨members, rfl⟩
    | null | bool _ | number _ | string _ | array _ => cases hcontext
  rw [mergeInto_eq, Json.Path.lookup?, Json.Path.lookup?, Json.members]
  rcases hsteps : Json.Path.steps path with _ | ⟨first, _ | ⟨second, rest⟩⟩
  · exact absurd hsteps (Json.Path.steps_ne_nil path)
  · have hfirst : first ≠ "partners" := fun h => hbare (h ▸ Json.Path.eq_of_steps_eq_singleton hsteps)
    simp only [Json.Path.walk?, Json.Path.step?, Table.get?_insert_of_ne hfirst]
  · by_cases hfirst : first = "partners"
    · subst hfirst
      have hsecond : second ≠ partner := fun h => hne rest (by rw [hsteps, h])
      simp only [Json.Path.walk?, Json.Path.step?, Table.get?_insert_self, Option.bind_some,
        Table.get?_insert_of_ne hsecond, get?_partnersIn, Json.member?, Json.members]
      cases hold : Table.get? "partners" members with
      | none => rfl
      | some v =>
        have hv := hpartners v hold
        cases v with
        | object old => rfl
        | null | bool _ | number _ | string _ | array _ => cases hv
    · simp only [Json.Path.walk?, Json.Path.step?, Table.get?_insert_of_ne hfirst]

theorem mergeInto_twice (o second : Offer) (partner other : String) (context : Json) :
    second.mergeInto other (o.mergeInto partner context) = .object (context.members.insert "partners"
      (.object (((partnersIn context).insert partner o.toContext).insert other second.toContext))) := by
  rw [mergeInto_eq, partnersIn_mergeInto, members_mergeInto, Table.insert_insert_self]

theorem mergeInto_mergeInto (o second : Offer) (partner : String) (context : Json) :
    second.mergeInto partner (o.mergeInto partner context) = second.mergeInto partner context := by
  rw [mergeInto_twice, Table.insert_insert_self, mergeInto_eq]

theorem mergeInto_comm (o second : Offer) {partner other : String} (h : other ≠ partner) (context : Json) :
    second.mergeInto other (o.mergeInto partner context) = o.mergeInto partner (second.mergeInto other context) := by
  rw [mergeInto_twice, mergeInto_twice, Table.insert_comm h]

/-- **Putting an offer into a context is an update of one place.**  It leaves a mapping with a mapping of partners, in
which the partner has the offer; the other members of both stay, as far as there was a mapping.  So paths that do not
lead to the partner lead where they led before.  The last offer of a partner stays, in whatever order those of others
are put in. -/
theorem mergeInto_update (o : Offer) (partner : String) (context : Json) :
    (∃ members partners, o.mergeInto partner context = .object members ∧
      Table.get? "partners" members = some (.object partners) ∧ Table.get? partner partners = some o.toContext ∧
      (∀ key, key ≠ "partners" → Table.get? key members = context.member? key) ∧
      ∀ other, other ≠ partner → Table.get? other partners = (context.member? "partners").bind (Json.member? other)) ∧
    (context.isObject = true → (∀ v, context.member? "partners" = some v → v.isObject = true) →
      ∀ path, path ≠ "partners" → (∀ rest, Json.Path.steps path ≠ "partners" :: partner :: rest) →
        Json.Path.lookup? path (o.mergeInto partner context) = Json.Path.lookup? path context) ∧
    (∀ second : Offer, second.mergeInto partner (o.mergeInto partner context) = second.mergeInto partner context) ∧
    ∀ (second : Offer) (other : String), other ≠ partner →
      second.mergeInto other (o.mergeInto partner context) = o.mergeInto partner (second.mergeInto other context) := by
  refine ⟨⟨_, _, mergeInto_eq o partner context, Table.get?_insert_self _ _ _, Table.get?_insert_self _ _ _, ?_, ?_⟩,
    fun hcontext hpartners _ => lookup?_mergeInto_of_ne o hcontext hpartners,
    fun second => mergeInto_mergeInto o second partner context,
    fun second _ h => mergeInto_comm o second h context⟩
  · intro key hkey
    exact Table.get?_insert_of_ne hkey _ _
  · intro other hother
    rw [Table.get?_insert_of_ne hother, get?_partnersIn]

/-- A partner whose name has a point, in a context where the path that its name makes leads to another's. -/
theorem mergeInto_update_of_point :
    let context : Json := .object [("partners", .object [("acme", .object [("co", .bool true)])]), ("shop", .null)]
    let o := zero ["tea"]
    context.isObject = true ∧ (∀ v, context.member? "partners" = some v → v.isObject = true) ∧
    (∀ rest, Json.Path.steps "partners.acme.co" ≠ "partners" :: "acme.co" :: rest) ∧
    Json.Path.lookup? "partners.acme.co" (o.mergeInto "acme.co" context) = some (.bool true) ∧
    (zero []).mergeInto "acme" (o.mergeInto "acme.co" context) =
      o.mergeInto "acme.co" ((zero []).mergeInto "acme" context) := by
  intro context o
  have hsteps : Json.Path.steps "partners.acme.co" = ["partners", "acme", "co"] := by rfl
  have hpartners : ∀ v, context.member? "partners" = some v → v.isObject = true := by
    rintro v ⟨⟩
    rfl
  have hne : ∀ rest, Json.Path.steps "partners.acme.co" ≠ "partners" :: "acme.co" :: rest := by
    intro rest
    rw [hsteps]
    simp
  obtain ⟨-, hlookup, -, hcomm⟩ := mergeInto_update o "acme.co" context
  refine ⟨rfl, hpartners, hne, ?_, hcomm (zero []) "acme" (by decide)⟩
  rw [hlookup rfl hpartners "partners.acme.co" (by decide) hne]
  rfl

end Offer
end Eligibility
