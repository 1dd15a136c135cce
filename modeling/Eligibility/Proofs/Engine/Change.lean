import Eligibility.Engine
import Eligibility.Proofs.Operator.Registration
/-!
# What is done to an engine

A change is the registration of a type or of an operator, a limit or a sink.  The types of an engine are those of the
table to begin with and of the registrations since (`get?_types_after`).  The registration of an operator succeeds, or
it leaves the engine as it is (`registerOperator_cases`).  So an operator is touched by a registration under its name
that succeeds and by nothing else (`get?_change`), and no name is ever given up (`isSome_get?_after`).
-/
namespace Eligibility
namespace Engine

inductive Change where
  | type (v : Validator)
  | operator (name : String) (operation : Operation) (typeNames : List String)
  | maxDepth (limit : Nat)
  | sink (s : Sink)

def change (e : Engine) : Change → Engine
  | .type v => e.registerType v
  | .operator name operation typeNames => (e.registerOperator name operation typeNames).2
  | .maxDepth limit => e.withMaxDepth limit
  | .sink s => e.withSink s

/-- The engine after changes, the earliest first. -/
def after (e : Engine) (history : List Change) : Engine := history.foldl change e

def typesOf (history : List Change) : List Validator :=
  history.filterMap fun
    | .type v => some v
    | _ => none

/-- **What a name of a type stands for after a history**: the type last registered under it, or else what it stood for
at the start. -/
def lastType (start : TypeTable) (history : List Change) (name : String) : Option Validator :=
  ((typesOf history).reverse.find? fun v => v.name == name).or (start.get? name)

/-- **What the registration of an operator does**: it puts one operator into the table, or nothing. -/
theorem registerOperator_cases (e : Engine) (name : String) (operation : Operation) (typeNames : List String) :
    (∃ o, e.registerOperator name operation typeNames = (.ok (OperatorTable.registrationText name),
        { e with operators := { e.operators with operators := e.operators.operators.insert name o } }) ∧
      e.operators.Entry name operation typeNames o) ∨
    e.registerOperator name operation typeNames =
      (.error (.registrationArity name typeNames.length operation.arity), e) := by
  rw [registerOperator]
  obtain ⟨o, hregister, hentry⟩ | hregister := OperatorTable.register_cases name operation typeNames e.operators
  · exact .inl ⟨o, by rw [hregister], hentry⟩
  · exact .inr (by rw [hregister])

theorem change_operator {e next : Engine} {name : String} {operation : Operation} {typeNames : List String}
    {answer : Outcome String} (h : e.registerOperator name operation typeNames = (answer, next)) :
    e.change (.operator name operation typeNames) = next := by
  rw [change, h]

/-- Only the registration of a type touches the types, and it touches both copies of them. -/
theorem types_change (e : Engine) (h : e.operators.types = e.types) (c : Change) :
    (e.change c).operators.types = (e.change c).types ∧
      (e.change c).types = (typesOf [c]).foldl (fun t v => t.register v) e.types := by
  cases c with
  | type v => exact ⟨rfl, rfl⟩
  | operator name operation typeNames =>
    obtain ⟨o, hregister, -⟩ | hregister := registerOperator_cases e name operation typeNames
    all_goals
      rw [change_operator hregister]
      exact ⟨h, rfl⟩
  | maxDepth limit => exact ⟨h, rfl⟩
  | sink s => exact ⟨h, rfl⟩

theorem types_after : ∀ (history : List Change) (e : Engine), e.operators.types = e.types →
    (e.after history).operators.types = (e.after history).types ∧
      (e.after history).types = (typesOf history).foldl (fun t v => t.register v) e.types
  | [], e, h => ⟨h, rfl⟩
  | c :: rest, e, h => by
    obtain ⟨hone, htypes⟩ := types_change e h c
    obtain ⟨hone', htypes'⟩ := types_after rest (e.change c) hone
    have hcons : typesOf (c :: rest) = typesOf [c] ++ typesOf rest := List.filterMap_append (l := [c])
    refine ⟨hone', ?_⟩
    rw [hcons, List.foldl_append, ← htypes]
    exact htypes'

/-- **The type last registered under a name is the one that the table has for it.** -/
theorem get?_foldl_register (name : String) : ∀ (vs : List Validator) (t : TypeTable),
    (vs.foldl (fun t v => t.register v) t).get? name = (vs.reverse.find? fun v => v.name == name).or (t.get? name)
  | [], t => by simp
  | v :: rest, t => by
    rw [List.foldl_cons, get?_foldl_register name rest, List.reverse_cons, List.find?_append, Option.or_assoc,
      TypeTable.register, Table.get?_insert]
    by_cases hv : v.name = name
    · simp [hv]
    · simp [hv, Ne.symm hv]

theorem get?_types_after {start : Engine} (h : start.operators.types = start.types) (history : List Change)
    (name : String) : (start.after history).types.get? name = lastType start.types history name := by
  rw [(types_after history start h).2, get?_foldl_register, lastType]

/-- Whether a change is a registration under this name that succeeds. -/
def Accepts (e : Engine) (name : String) (c : Change) : Prop :=
  ∃ operation typeNames text next, c = .operator name operation typeNames ∧
    e.registerOperator name operation typeNames = (.ok text, next)

/-- Whether a registration under this name succeeds in a history. -/
def Registers (e : Engine) (name : String) (history : List Change) : Prop :=
  ∃ before c rest, history = before ++ c :: rest ∧ (e.after before).Accepts name c

theorem not_registers_nil (e : Engine) (name : String) : ¬ e.Registers name [] := by
  rintro ⟨before, c, rest, hsplit, -⟩
  cases before <;> cases hsplit

theorem registers_cons {e : Engine} {name : String} {c : Change} {rest : List Change} :
    e.Registers name (c :: rest) ↔ e.Accepts name c ∨ (e.change c).Registers name rest := by
  constructor
  · rintro ⟨before, d, rest', hsplit, haccepts⟩
    cases before with
    | nil =>
      cases hsplit
      exact .inl haccepts
    | cons first before =>
      cases hsplit
      exact .inr ⟨before, d, rest', rfl, haccepts⟩
  · rintro (haccepts | ⟨before, d, rest', rfl, haccepts⟩)
    · exact ⟨[], c, rest, rfl, haccepts⟩
    · exact ⟨c :: before, d, rest', rfl, haccepts⟩

/-- **Only a registration under its name that succeeds touches an operator.** -/
theorem get?_change {e : Engine} {name : String} {c : Change} (h : ¬ e.Accepts name c) :
    (e.change c).operators.get? name = e.operators.get? name := by
  cases c with
  | type v => rfl
  | operator other operation typeNames =>
    obtain ⟨o, hregister, -⟩ | hregister := registerOperator_cases e other operation typeNames
    · have hne : name ≠ other := by
        rintro rfl
        exact h ⟨operation, typeNames, _, _, rfl, hregister⟩
      rw [change_operator hregister]
      exact Table.get?_insert_of_ne hne o _
    · rw [change_operator hregister]
  | maxDepth limit => rfl
  | sink s => rfl

theorem get?_of_registerOperator {e next : Engine} {name text : String} {operation : Operation}
    {typeNames : List String} (h : e.registerOperator name operation typeNames = (.ok text, next)) :
    ∃ o, next.operators.get? name = some o ∧ e.operators.Entry name operation typeNames o := by
  obtain ⟨o, hregister, hentry⟩ | hregister := registerOperator_cases e name operation typeNames
  · cases hregister.symm.trans h
    exact ⟨o, Table.get?_insert_self name o _, hentry⟩
  · cases hregister.symm.trans h

theorem get?_after : ∀ {history : List Change} {e : Engine} {name : String}, ¬ e.Registers name history →
    (e.after history).operators.get? name = e.operators.get? name
  | [], _, _, _ => rfl
  | c :: rest, e, name, h => by
    rw [registers_cons, not_or] at h
    have hrest := get?_after h.2
    exact hrest.trans (get?_change h.1)

theorem get?_change_of_accepts {e : Engine} {name : String} {c : Change} (h : e.Accepts name c) :
    ∃ o, (e.change c).operators.get? name = some o ∧ o.name = name := by
  obtain ⟨operation, typeNames, text, next, rfl, hok⟩ := h
  obtain ⟨o, ho, hentry⟩ := get?_of_registerOperator hok
  rw [change_operator hok]
  exact ⟨o, ho, hentry.name_eq⟩

/-- **What is registered stays registered.** -/
theorem isSome_get?_after (name : String) : ∀ (history : List Change) (e : Engine),
    ((e.after history).operators.get? name).isSome ↔ (e.operators.get? name).isSome ∨ e.Registers name history
  | [], e => ⟨.inl, fun h => h.resolve_right (not_registers_nil e name)⟩
  | c :: rest, e => by
    have ih := isSome_get?_after name rest (e.change c)
    rw [registers_cons, ← or_assoc]
    show (((e.change c).after rest).operators.get? name).isSome ↔ _
    rw [ih]
    apply or_congr_left
    by_cases hc : e.Accepts name c
    · obtain ⟨o, ho, -⟩ := get?_change_of_accepts hc
      simp [ho, hc]
    · rw [get?_change hc]
      simp [hc]

def OwnNames (e : Engine) : Prop := ∀ name o, e.operators.get? name = some o → o.name = name

theorem ownNames_change {e : Engine} (h : e.OwnNames) (c : Change) : (e.change c).OwnNames := by
  intro name o ho
  by_cases hc : e.Accepts name c
  · obtain ⟨p, hp, hname⟩ := get?_change_of_accepts hc
    rw [ho] at hp
    cases hp
    exact hname
  · rw [get?_change hc] at ho
    exact h name o ho

theorem ownNames_after : ∀ (history : List Change) {e : Engine}, e.OwnNames → (e.after history).OwnNames
  | [], _, h => h
  | c :: rest, _, h => ownNames_after rest (ownNames_change h c)

end Engine
end Eligibility
