import Eligibility.Proofs.Engine.Change
import Eligibility.Proofs.Evaluation.Dependence
/-!
# What registrations leave as it is

An engine evaluates a rule with the operators that it has for the names in the rule, each with the types that it was
registered with.  So registrations of types and operators are not seen by rules that do not name one of the operators
(`seenAlike_after`), whether or not types are replaced that operators were registered with.
-/
namespace Eligibility
namespace Engine

/-- Whether a change is the registration of a type or of an operator. -/
def Change.isRegistration : Change → Bool
  | type _ | operator .. => true
  | maxDepth _ | sink _ => false

/-- Whether a mapping of a rule names an operator. -/
def Names (rule : Json) (name : String) : Prop := ∃ n ∈ (Rule.ofJson rule).nodes [], n.rule.key? = some name

/-- Whether nothing tells two engines apart that is seen of the evaluation of a rule. -/
def SeenAlike (rule context : Json) (e next : Engine) : Prop :=
  next.evaluate rule context = e.evaluate rule context ∧
    next.evaluator.notices rule context = e.evaluator.notices rule context

theorem evaluator_change {c : Change} (h : c.isRegistration = true) (e : Engine) :
    (e.change c).evaluator = e.evaluator.withOperators (e.change c).operators := by
  cases c with
  | type v => rfl
  | operator name operation typeNames =>
    obtain ⟨o, hregister, -⟩ | hregister := registerOperator_cases e name operation typeNames
    all_goals
      rw [change_operator hregister]
      rfl
  | maxDepth limit => cases h
  | sink s => cases h

theorem evaluator_after : ∀ {history : List Change} (e : Engine), (∀ c ∈ history, c.isRegistration = true) →
    (e.after history).evaluator = e.evaluator.withOperators (e.after history).operators
  | [], _, _ => rfl
  | c :: rest, e, h => by
    have hrest := evaluator_after (e.change c) fun d hd => h d (List.mem_cons_of_mem c hd)
    rw [evaluator_change (h c List.mem_cons_self)] at hrest
    exact hrest

/-- **Registrations are not seen by a rule that names none of the operators registered.** -/
theorem seenAlike_after (history : List Change) (h : ∀ c ∈ history, c.isRegistration = true) {rule : Json} {e : Engine}
    (hnames : ∀ name, Names rule name → ¬ e.Registers name history) (context : Json) :
    SeenAlike rule context e (e.after history) := by
  have hsame := Evaluator.notices_congr e.evaluator (e.after history).operators rule context context
    (fun n hn name hname => get?_after (hnames name ⟨n, hn, hname⟩)) (fun _ _ _ _ => rfl)
  rw [← evaluator_after e h] at hsame
  exact ⟨hsame.1.symm, hsame.2.symm⟩

theorem registers_singleton {e : Engine} {name : String} {c : Change} : e.Registers name [c] ↔ e.Accepts name c := by
  rw [registers_cons]
  exact or_iff_left (not_registers_nil _ name)

/-- **Types and operators may be registered without a rule being touched.**  What is seen of its evaluation is the same
after the registration of any type, after that of an operator which fails, and after any other of an operator that it
does not name; and so it is after any number of these. -/
theorem registrations_not_seen (e : Engine) (rule context : Json) :
    (∀ v, SeenAlike rule context e (e.registerType v)) ∧
      (∀ name operation typeNames failure next, e.registerOperator name operation typeNames = (.error failure, next) →
        SeenAlike rule context e next) ∧
      (∀ name operation typeNames text next, e.registerOperator name operation typeNames = (.ok text, next) →
        ¬ Names rule name → SeenAlike rule context e next) ∧
      ∀ history : List Change, (∀ c ∈ history, c.isRegistration = true) →
        (∀ name, Names rule name → ¬ e.Registers name history) → SeenAlike rule context e (e.after history) := by
  have hone : ∀ c : Change, c.isRegistration = true → (∀ name, Names rule name → ¬ e.Accepts name c) →
      SeenAlike rule context e (e.change c) := by
    intro c hc hnames
    refine seenAlike_after [c] (fun d hd => List.mem_singleton.1 hd ▸ hc) ?_ context
    exact fun name hname => mt registers_singleton.1 (hnames name hname)
  refine ⟨?_, ?_, ?_, ?_⟩
  · intro v
    refine hone (.type v) rfl ?_
    rintro name - ⟨operation, typeNames, text, next, hchange, -⟩
    cases hchange
  · intro name operation typeNames failure next herror
    rw [← change_operator herror]
    refine hone (.operator name operation typeNames) rfl ?_
    rintro other - ⟨operation', typeNames', text, next', hchange, hok⟩
    cases hchange
    cases herror.symm.trans hok
  · intro name operation typeNames text next hok hname
    rw [← change_operator hok]
    refine hone (.operator name operation typeNames) rfl ?_
    rintro other hother ⟨operation', typeNames', text', next', hchange, -⟩
    cases hchange
    exact hname hother
  · intro history hregistrations hnames
    exact seenAlike_after history hregistrations hnames context

/-- The booleans are replaced by a type that accepts nothing, the conjunction fails to be replaced and the disjunction
is replaced; a conjunction is still one of booleans. -/
theorem registrations_not_seen_by_conjunction :
    let e : Engine := .standard [⟨1, true⟩]
    let rule : Json := .object [("and", .array [.bool true, .string "!member"])]
    let context : Json := .object [("member", .bool true)]
    let never : Validator := .root "Boolean" "Boolean" fun _ => false
    let first : Operation := .binary fun a _ => .ok a
    let e₁ := e.registerType never
    let history : List Change :=
      [.type never, .operator "and" first ["Real", "Lost"], .operator "or" first ["Real", "Real"]]
    (e₁.registerOperator "and" first ["Real", "Lost"]).1.isOk = false ∧
      (e₁.registerOperator "or" first ["Real", "Real"]).1.isOk = true ∧
      (e.after history).evaluate rule context = .ok (.bool true) ∧ SeenAlike rule context e (e.after history) := by
  intro e rule context never first e₁ history
  have hfails : (e₁.registerOperator "and" first ["Real", "Lost"]).1.isOk = false := by
    decide +kernel +revert
  have hsucceeds : (e₁.registerOperator "or" first ["Real", "Real"]).1.isOk = true := by
    decide +kernel +revert
  have hand : ∀ name, Names rule name → name = "and" := by
    rintro name ⟨n, hn, hname⟩
    obtain rfl := List.mem_singleton.1 hn
    exact (Option.some.inj hname).symm
  have hnames : ∀ name, Names rule name → ¬ e.Registers name history := by
    intro name hname
    rw [hand name hname, registers_cons, registers_cons, registers_singleton]
    rintro (⟨_, _, _, _, hchange, -⟩ | ⟨_, _, text, next, hchange, hok⟩ | ⟨_, _, _, _, hchange, -⟩)
    · cases hchange
    · obtain ⟨-, rfl, rfl⟩ := Change.operator.inj hchange
      rw [show e.change (.type never) = e₁ from rfl] at hok
      rw [hok] at hfails
      cases hfails
    · exact absurd (Change.operator.inj hchange).1 (by decide)
  have hseen := (registrations_not_seen e rule context).2.2.2 history (by decide) hnames
  exact ⟨hfails, hsucceeds, hseen.1.trans rfl, hseen⟩

end Engine
end Eligibility
