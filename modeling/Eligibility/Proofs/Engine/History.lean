import Eligibility.Proofs.Engine.Change
import Eligibility.Proofs.Evaluation.Depth
import Eligibility.Proofs.Operator.Shape
import Mathlib.Data.List.Forall2
/-!
# Engines and their histories

Engines can be cloned.  Of several engines, each is what its own history made of the first one
(`family_eq_map_after`), and what an engine knows is read off its history (`Follows`): an operator is that of the last
registration under its name that succeeded, with the types that their names stood for at that point, and what happens
to these names later does not reach it.
-/
namespace Eligibility
namespace Engine

/-- What is done where there are several engines: one of them is changed or cloned. -/
inductive Action where
  | change (k : Nat) (c : Change)
  | clone (k : Nat)

/-- A change is made to one of several things only; a clone is put behind them. -/
def Action.perform {α : Type} (change : α → Change → α) (xs : List α) : Action → List α
  | .change k c => xs.modify k (change · c)
  | .clone k => xs ++ xs[k]?.toList

def family (start : Engine) (actions : List Action) : List Engine :=
  actions.foldl (Action.perform change) [start]

/-- The changes made to each of the engines, those before it was cloned included. -/
def histories (actions : List Action) : List (List Change) :=
  actions.foldl (Action.perform fun history c => history ++ [c]) [[]]

theorem map_modify {α β : Type} {f : α → β} {g : α → α} {g' : β → β} (h : ∀ x, g' (f x) = f (g x)) (k : Nat)
    (xs : List α) : (xs.map f).modify k g' = (xs.modify k g).map f := by
  apply List.ext_getElem?
  intro j
  rw [List.getElem?_modify, List.getElem?_map, List.getElem?_map, List.getElem?_modify]
  cases xs[j]? with
  | none => rfl
  | some x =>
    by_cases hj : k = j
    · simp only [hj, if_true, Option.map_some, Option.map_eq_map, h]
    · simp only [hj, if_false, Option.map_some, Option.map_eq_map]

theorem perform_map {α β : Type} {f : α → β} {change : α → Change → α} {change' : β → Change → β}
    (h : ∀ x c, change' (f x) c = f (change x c)) (xs : List α) (a : Action) :
    a.perform change' (xs.map f) = (a.perform change xs).map f := by
  cases a with
  | change k c => exact map_modify (fun x => h x c) k xs
  | clone k =>
    show xs.map f ++ (xs.map f)[k]?.toList = (xs ++ xs[k]?.toList).map f
    rw [List.getElem?_map, List.map_append]
    cases xs[k]? <;> rfl

theorem after_concat (e : Engine) (history : List Change) (c : Change) :
    e.after (history ++ [c]) = (e.after history).change c := by
  rw [after, List.foldl_append]
  rfl

/-- **Each engine is what its own history makes of the first one**, whatever is done to the others. -/
theorem family_eq_map_after (start : Engine) (actions : List Action) :
    start.family actions = (histories actions).map start.after := by
  show actions.foldl (Action.perform change) ([[]].map start.after) = _
  refine List.foldl_hom (List.map start.after) fun xs a => ?_
  exact perform_map (fun history c => (after_concat start history c).symm) xs a

inductive Base where
  | standard
  | types (t : TypeTable)

def Base.engine (sinks : List Sink) : Base → Engine
  | .standard => .standard sinks
  | .types t => .ofTypes t sinks

theorem Base.types_eq (b : Base) (sinks : List Sink) : (b.engine sinks).operators.types = (b.engine sinks).types := by
  cases b <;> rfl

theorem Base.ownNames (b : Base) (sinks : List Sink) : (b.engine sinks).OwnNames := by
  intro name o ho
  cases b with
  | standard => exact (OperatorTable.mem_standard_of_get? ho).2
  | types t => cases ho

/-- The engine whose operations do something else with a wrong number of arguments. -/
def otherwise (f : List Json → Outcome Json) (e : Engine) : Engine :=
  { e with operators := e.operators.otherwise f }

theorem evaluate_otherwise (f : List Json → Outcome Json) (e : Engine) (rule context : Json) :
    (e.otherwise f).evaluate rule context = e.evaluate rule context := by
  have halike : (e.operators.otherwise f).Alike e.operators := by
    intro name
    rw [OperatorTable.get?_otherwise, Option.map_map]
    congr 1
    funext o
    exact (Operator.invoke_otherwise f o).symm
  exact Evaluator.evaluate_congr (e.otherwise f).evaluator e.evaluator halike rfl rule context

/-- **What an engine is by its history.** -/
structure Follows (start : Engine) (history : List Change) (e : Engine) : Prop where
  oneTable : e.operators.types = e.types
  /-- A name of a type stands for the type that was last registered under it. -/
  types : ∀ name, e.types.get? name = lastType start.types history name
  known : ∀ name, (e.operators.get? name).isSome ↔ (start.operators.get? name).isSome ∨ start.Registers name history
  /-- An operator that no registration replaced is that of the start. -/
  kept : ∀ name, ¬ start.Registers name history → e.operators.get? name = start.operators.get? name
  /-- Any other is that of the last registration that succeeded, with the types of that time. -/
  last : ∀ name before operation typeNames rest text next,
    history = before ++ .operator name operation typeNames :: rest →
    (start.after before).registerOperator name operation typeNames = (.ok text, next) → ¬ next.Registers name rest →
    typeNames.length = operation.arity ∧ ∃ o, e.operators.get? name = some o ∧ o.operation = operation ∧
      o.params.map some = typeNames.map (lastType start.types before)
  names : ∀ name o, e.operators.get? name = some o → o.name = name
  arity : ∀ name o, e.operators.get? name = some o → o.params.length = o.operation.arity
  /-- No operation is seen to get a wrong number of arguments. -/
  invoke : ∀ f name operands, (e.operators.otherwise f).invoke name operands = e.operators.invoke name operands
  evaluate : ∀ f rule context, (e.otherwise f).evaluate rule context = e.evaluate rule context

theorem follows_after {start : Engine} (htypes : start.operators.types = start.types) (hnames : start.OwnNames)
    (history : List Change) : start.Follows history (start.after history) where
  oneTable := (types_after history start htypes).1
  types := get?_types_after htypes history
  known name := isSome_get?_after name history start
  kept _ h := get?_after h
  last := by
    rintro name before operation typeNames rest text next rfl hok hlater
    obtain ⟨o, ho, hentry⟩ := get?_of_registerOperator hok
    have hsplit : start.after (before ++ .operator name operation typeNames :: rest) = next.after rest := by
      rw [after, List.foldl_append, List.foldl_cons, ← change_operator hok]
      rfl
    have htime : (start.after before).operators.types.get? = lastType start.types before := by
      funext typeName
      rw [(types_after before start htypes).1, get?_types_after htypes]
    refine ⟨?_, o, ?_, hentry.operation_eq, htime ▸ hentry.params_eq⟩
    · have hlength := congrArg List.length hentry.params_eq
      rw [List.length_map, List.length_map, o.arity_eq, hentry.operation_eq] at hlength
      exact hlength.symm
    · rw [hsplit, get?_after hlater, ho]
  names := ownNames_after history hnames
  arity _ o _ := o.arity_eq
  invoke f name operands := OperatorTable.invoke_otherwise f _ name operands
  evaluate f rule context := evaluate_otherwise f _ rule context

/-- **Engines follow their histories.**  From a standard engine, or one with types only, each engine that is reached by
registrations, limits, sinks and clones is what its own history says.  What `otherwise` is about is, for an operation
of one, two or three arguments, the failure that it was given another number of them. -/
theorem family_follows_histories (b : Base) (sinks : List Sink) (actions : List Action) :
    List.Forall₂ (b.engine sinks).Follows (histories actions) ((b.engine sinks).family actions) ∧
      ∀ (operation : Operation) (args : List Json), operation.Shaped → args.length ≠ operation.arity →
        operation.body args = .error (Operation.wrongCount operation.arity args.length) := by
  refine ⟨?_, fun operation args hshaped hlen => Operation.body_of_shaped hshaped hlen⟩
  rw [family_eq_map_after, List.forall₂_map_right_iff, List.forall₂_same]
  intro history _
  exact follows_after (b.types_eq sinks) (b.ownNames sinks) history

/-- A type is registered again after an operator named it, and the operator again with a type that is not known; the
clone keeps the first type, and both keep the operator as it was. -/
theorem family_follows_histories_small :
    let small : Validator := .refine .real "Small" "Small Number" Json.isNull
    let same : Operation := .unary .ok
    let actions : List Action := [.change 0 (.type small), .change 0 (.operator "same" same ["Small"]), .clone 0,
      .change 0 (.type (.any "Small")), .change 0 (.operator "same" same ["Large"])]
    ∃ e₀ e₁ o₀ o₁, (Engine.ofTypes .empty []).family actions = [e₀, e₁] ∧
      e₀.types.get? "Small" = some (.any "Small") ∧ e₁.types.get? "Small" = some small ∧
      e₀.operators.get? "same" = some o₀ ∧ o₀.params.map some = [some small] ∧
      e₁.operators.get? "same" = some o₁ ∧ o₁.params.map some = [some small] := by
  intro small same actions
  let start : Engine := .ofTypes .empty []
  obtain ⟨e₀, e₁, hfamily⟩ : ∃ e₀ e₁, start.family actions = [e₀, e₁] := ⟨_, _, rfl⟩
  have hfollows := (family_follows_histories (.types .empty) [] actions).1
  rw [show Base.engine [] (.types .empty) = start from rfl, hfamily] at hfollows
  obtain ⟨text, next, hok⟩ :
    ∃ text next, (start.after [.type small]).registerOperator "same" same ["Small"] = (.ok text, next) := ⟨_, _, rfl⟩
  have hlater : ¬ next.Registers "same" [.type (.any "Small"), .operator "same" same ["Large"]] := by
    cases hok
    rw [registers_cons, registers_cons]
    rintro (⟨_, _, _, _, hchange, -⟩ | ⟨_, _, _, _, hchange, hfails⟩ | hrest)
    · cases hchange
    · cases hchange
      cases hfails
    · exact not_registers_nil _ _ hrest
  cases hfollows with
  | cons h₀ hrest =>
    cases hrest with
    | cons h₁ _ =>
      obtain ⟨-, o₀, hget₀, -, hparams₀⟩ := h₀.last "same" [.type small] same ["Small"] _ text next rfl hok hlater
      obtain ⟨-, o₁, hget₁, -, hparams₁⟩ :=
        h₁.last "same" [.type small] same ["Small"] [] text next rfl hok (not_registers_nil next "same")
      exact ⟨e₀, e₁, o₀, o₁, hfamily, (h₀.types "Small").trans rfl, (h₁.types "Small").trans rfl, hget₀, hparams₀,
        hget₁, hparams₁⟩

end Engine
end Eligibility
