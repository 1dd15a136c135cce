import Eligibility.Proofs.Evaluation.Dependence
import Eligibility.Proofs.Json.Path
/-!
# Operands that are moved into the context

An operand may be resolved beforehand, its value put into the context under a key, and a reference to the key written
where it stood.  The rule comes to the same (`evaluate_within_template`), whatever the value is: what is taken from a
context is not looked at as a rule.  Nothing else may read the key, so that all other references lead to where they led
before (`resolve_insert_of_ne`).
-/
namespace Eligibility

/-- A mapping around an operand: its operator, and the operands on both sides. -/
structure Json.Layer where
  name : String
  before : List Json
  after : List Json

/-- An operand within mappings, the outermost of them first. -/
def Json.within : List Json.Layer → Json → Json
  | [], v => v
  | l :: rest, v => .call l.name (l.before ++ within rest v :: l.after)

namespace Json.Path

theorem resolve_insert_self {key : String} (h : '.' ∉ key.toList) {v : Json} (hv : v.isNull = false)
    (members : Table Json) : resolve key (.object (members.insert key v)) = .ok v := by
  have hstep : lookup? key (.object (members.insert key v)) = some v := by
    rw [lookup?, steps_of_not_mem h]
    simp only [walk?, step?, Table.get?_insert_self, Option.bind_some]
  exact resolve_of_lookup? hstep hv

/-- **A path that starts with another key does not see an entry.** -/
theorem resolve_insert_of_ne {path key : String} (h : (steps path).head? ≠ some key) (v : Json)
    (members : Table Json) : resolve path (.object (members.insert key v)) = resolve path (.object members) := by
  have hlookup : lookup? path (.object (members.insert key v)) = lookup? path (.object members) := by
    unfold lookup?
    cases hsteps : steps path with
    | nil => exact absurd hsteps (steps_ne_nil path)
    | cons first rest =>
      have hne : first ≠ key := fun heq => h (by rw [hsteps, heq]; rfl)
      simp only [walk?, step?, Table.get?_insert_of_ne hne]
  rw [resolve, resolve, hlookup]

end Json.Path

namespace Evaluator

open Rule (Node passes)

variable {e : Evaluator} {c₁ c₂ : Json}

theorem outcome_resolve_layer {l : Json.Layer} {v w : Json} {depth : Nat}
    (h : ∀ o, e.operatorAt (depth + 1) l.name = .ok o →
      (e.resolve c₁ (depth + 1) (.ofJson v)).outcome = (e.resolve c₂ (depth + 1) (.ofJson w)).outcome ∧
        ∀ u ∈ l.before ++ l.after,
          (e.resolve c₁ (depth + 1) (.ofJson u)).outcome = (e.resolve c₂ (depth + 1) (.ofJson u)).outcome) :
    (e.resolve c₁ depth (.ofJson (.call l.name (l.before ++ v :: l.after)))).outcome =
      (e.resolve c₂ depth (.ofJson (.call l.name (l.before ++ w :: l.after)))).outcome := by
  rw [Rule.ofJson_call, Rule.ofJson_call]
  cases ho : e.operatorAt (depth + 1) l.name with
  | error failure => rw [resolve_call_error ho, resolve_call_error ho]
  | ok o =>
    obtain ⟨hinner, hbeside⟩ := h o ho
    have hbefore : ∀ u ∈ l.before, _ := fun u hu => hbeside u (List.mem_append_left _ hu)
    have hafter : ∀ u ∈ l.after, _ := fun u hu => hbeside u (List.mem_append_right _ hu)
    rw [outcome_resolve_call ho, outcome_resolve_call ho]
    simp only [List.map_append, List.map_cons, List.map_map, Function.comp_def, hinner]
    rw [List.map_congr_left hbefore, List.map_congr_left hafter]

/-- **Mappings around an operand see its outcome only.**  Operands that come to the same in two contexts may stand for
one another there, if all references of the one rule lead to the same. -/
theorem outcome_resolve_within {s t : Json} : ∀ (layers : List Json.Layer) (above : List Rule),
    passes e.operators e.maxDepth above = true →
    (∀ n ∈ (Rule.ofJson (.within layers s)).nodes above, n.SameReferences c₁ c₂) →
    (e.resolve c₁ (above.length + layers.length) (.ofJson s)).outcome =
      (e.resolve c₂ (above.length + layers.length) (.ofJson t)).outcome →
    (e.resolve c₁ above.length (.ofJson (.within layers s))).outcome =
      (e.resolve c₂ above.length (.ofJson (.within layers t))).outcome
  | [], above, _, _, h => h
  | l :: rest, above, hpasses, hreferences, h => by
    apply outcome_resolve_layer
    intro o ho
    rw [Json.within, Rule.ofJson_call] at hreferences
    generalize hoperands : (l.before ++ Json.within rest s :: l.after).map Rule.ofJson = operands at hreferences
    have hreached : Node.reached e.operators e.maxDepth ⟨.call l.name operands, above⟩ = true :=
      (reached_call_iff hpasses l.name operands).2 ⟨o, ho⟩
    have hmem : ∀ u ∈ l.before ++ Json.within rest s :: l.after, Rule.ofJson u ∈ operands := by
      intro u hu
      rw [← hoperands]
      exact List.mem_map_of_mem hu
    constructor
    · have hdepth : above.length + (l :: rest).length = above.length + 1 + rest.length := by
        rw [List.length_cons]
        omega
      rw [hdepth] at h
      have hinner := hmem (.within rest s) (by simp)
      exact outcome_resolve_within rest (.call l.name operands :: above) hreached
        (fun n hn => hreferences n (Rule.mem_nodes_operand hinner hn)) h
    · -- what stands beside the operand reads no other references than the rule
      intro u hu
      have hoperand : Rule.ofJson u ∈ operands := by
        apply hmem
        rw [List.mem_append, List.mem_cons]
        exact (List.mem_append.1 hu).imp_right .inr
      have hresolve : e.resolve c₁ (above.length + 1) (.ofJson u) = e.resolve c₂ (above.length + 1) (.ofJson u) := by
        apply resolve_congr (.ofJson u) (.call l.name operands :: above) hreached (fun _ _ _ _ => rfl)
        · exact fun n hn _ => hreferences n (Rule.mem_nodes_operand hoperand hn)
        · rintro path hpath
          exact hreferences _ (Rule.self_mem_nodes above rfl) path (hpath ▸ hoperand)
      rw [hresolve]

/-- **An operand may be moved into the context.**  If it has a value where it stands, that is not null, the rule comes
to the same with a reference in its place, in the context with the value under the key.  No other reference of the
rule may start with the key; whether the context had it before is of no matter. -/
theorem evaluate_within_template (e : Evaluator) {layers : List Json.Layer} (hlayers : layers ≠ [])
    {s v : Json} {members : Table Json} {key : String} (hkey : '.' ∉ key.toList)
    (hs : (e.resolve (.object members) layers.length (.ofJson s)).outcome = .ok v) (hv : v.isNull = false)
    (hfirst : ∀ n ∈ (Rule.ofJson (.within layers s)).nodes [], ∀ path, .reference path ∈ n.rule.operands →
      (Json.Path.steps path).head? ≠ some key) :
    e.evaluate (.within layers (.template key)) (.object (members.insert key v)) =
      e.evaluate (.within layers s) (.object members) := by
  obtain ⟨l, rest, rfl⟩ := List.exists_cons_of_ne_nil hlayers
  have hmapping : ∀ u : Json, (Rule.ofJson (.within (l :: rest) u)).isMapping = true := by
    intro u
    rw [Json.within, Rule.ofJson_call]
    rfl
  have htemplate : (e.resolve (.object (members.insert key v)) (l :: rest).length (.ofJson (.template key))).outcome =
      .ok v := by
    rw [Rule.ofJson_template, resolve]
    exact Json.Path.resolve_insert_self hkey hv members
  rw [evaluate, evaluate, run_of_isMapping e _ (hmapping _), run_of_isMapping e _ (hmapping _)]
  refine (outcome_resolve_within (l :: rest) [] rfl ?_ ?_).symm
  · intro n hn path hpath
    exact (Json.Path.resolve_insert_of_ne (hfirst n hn path hpath) v members).symm
  · rw [List.length_nil, Nat.zero_add, hs, htemplate]

/-- An operand two mappings deep comes to what could be a rule itself.  It is handed on as it is, from where it stood
and from under the key. -/
theorem evaluate_within_template_of_mapping :
    let last : Operator := ⟨"last", [.anything, .anything], .binary fun _ v => .ok v, rfl⟩
    let e : Evaluator := ⟨⟨.standard, [("last", last)]⟩, 3, []⟩
    let layers : List Json.Layer := [⟨"last", [.template "age"], []⟩, ⟨"last", [.bool true], []⟩]
    let operand : Json := .call "last" [.template "age", .template "offer.rule"]
    let found : Json := .call "last" [.template "secret", .null]
    let members : Table Json := [("age", .bool false), ("offer", .object [("rule", found)])]
    e.evaluate (.within layers operand) (.object members) = .ok found ∧
      e.evaluate (.within layers (.template "taken")) (.object (members.insert "taken" found)) = .ok found := by
  intro last e layers operand found members
  have hvalue : e.evaluate (.within layers operand) (.object members) = .ok found := rfl
  have hfirst : ∀ n ∈ (Rule.ofJson (.within layers operand)).nodes [], ∀ path, .reference path ∈ n.rule.operands →
      (Json.Path.steps path).head? ≠ some "taken" := by
    intro n hn path hpath
    let inner : Rule := .call "last" [.reference "age", .reference "offer.rule"]
    let middle : Rule := .call "last" [.literal (.bool true), inner]
    let outer : Rule := .call "last" [.reference "age", middle]
    have hnodes : (Rule.ofJson (.within layers operand)).nodes [] =
        [⟨inner, [middle, outer]⟩, ⟨middle, [outer]⟩, ⟨outer, []⟩] := rfl
    have hpaths : path = "age" ∨ path = "offer.rule" := by
      rw [hnodes, List.mem_cons, List.mem_cons, List.mem_singleton] at hn
      rcases hn with rfl | rfl | rfl
      · simpa [inner, Rule.operands] using hpath
      · simp [middle, inner, Rule.operands] at hpath
      · exact .inl (by simpa [outer, middle, Rule.operands] using hpath)
    rcases hpaths with rfl | rfl <;> decide
  exact ⟨hvalue, (evaluate_within_template e (by simp) (by decide) rfl rfl hfirst).trans hvalue⟩

end Evaluator
end Eligibility
