import Eligibility.Audit.Event
import Eligibility.Operator.Table
import Mathlib.Data.List.Basic
/-!
# Registrations of operators

A registration does one of two things (`register_cases`).  If every type is known and there is one for each argument, it
puts one operator into the table, under its own name and with the types that were named; otherwise it fails with the
number of types named, and the table is the one before.  `outcome_of_registration` says so of the operators that can be
found, and that each unknown name is warned of once.  The standard operators are those registered by the names of the
standard types (`registerAll_standard`).
-/
namespace Eligibility

theorem map_some_filterMap_of_length {α β : Type} {f : α → Option β} {xs : List α}
    (h : (xs.filterMap f).length = xs.length) : (xs.filterMap f).map some = xs.map f := by
  have hsome : ∀ x ∈ xs, (f x).isSome = true := List.filterMap_length_eq_length.1 h
  rw [List.map_filterMap_some_eq_filter_map_isSome, List.filter_eq_self]
  intro b hb
  obtain ⟨x, hx, rfl⟩ := List.mem_map.1 hb
  exact hsome x hx

theorem getElem?_of_map_some {α β : Type} {f : α → Option β} {xs : List α} {ys : List β}
    (h : ys.map some = xs.map f) (i : Nat) : ys[i]? = xs[i]?.bind f := by
  have hi : (ys.map some)[i]? = (xs.map f)[i]? := by rw [h]
  rw [List.getElem?_map, List.getElem?_map] at hi
  cases hy : ys[i]? <;> cases hx : xs[i]? <;> simp_all

/-- The events of a log that are warnings. -/
def Event.warnings (events : List Event) : List Event := events.filter fun e => e.level = .warn

theorem Event.warnings_append (es fs : List Event) : warnings (es ++ fs) = warnings es ++ warnings fs :=
  List.filter_append ..

namespace OperatorTable

/-- Whether every type named is known, and one is named for each argument. -/
def Fits (t : OperatorTable) (operation : Operation) (typeNames : List String) : Prop :=
  (∀ typeName ∈ typeNames, (t.types.get? typeName).isSome = true) ∧ typeNames.length = operation.arity

/-- What a registration puts into the table: the operation under its name, with the types that were named. -/
structure Entry (t : OperatorTable) (name : String) (operation : Operation) (typeNames : List String)
    (o : Operator) : Prop where
  name_eq : o.name = name
  operation_eq : o.operation = operation
  params_eq : o.params.map some = typeNames.map t.types.get?

variable {t : OperatorTable} {operation : Operation} {typeNames : List String}

theorem register_of_fits (name : String) (h : t.Fits operation typeNames) : ∃ o,
    t.register name operation typeNames =
      (.ok (registrationText name), { t with operators := t.operators.insert name o }) ∧
    t.Entry name operation typeNames o := by
  obtain ⟨hknown, hlen⟩ := h
  have hfound : (typeNames.filterMap t.types.get?).length = typeNames.length := List.filterMap_length_eq_length.2 hknown
  refine ⟨⟨name, typeNames.filterMap t.types.get?, operation, hfound.trans hlen⟩, ?_, ⟨rfl, rfl, ?_⟩⟩
  · rw [register, if_pos hfound, Operator.ofParams, dif_pos (hfound.trans hlen)]
  · exact map_some_filterMap_of_length hfound

/-- **A registration that fails says how many types were named**, known or not, and changes nothing. -/
theorem register_of_not_fits (name : String) (h : ¬ t.Fits operation typeNames) :
    t.register name operation typeNames =
      (.error (.registrationArity name typeNames.length operation.arity), t) := by
  rw [register]
  split
  · rename_i hfound
    have hlen : (typeNames.filterMap t.types.get?).length ≠ operation.arity := by
      intro hlen
      exact h ⟨List.filterMap_length_eq_length.1 hfound, hfound.symm.trans hlen⟩
    rw [Operator.ofParams, dif_neg hlen, hfound]
  · rfl

/-- **What a registration does**: it puts one operator into the table, with the types that were named, or nothing. -/
theorem register_cases (name : String) (operation : Operation) (typeNames : List String) (t : OperatorTable) :
    (∃ o, t.register name operation typeNames =
        (.ok (registrationText name), { t with operators := t.operators.insert name o }) ∧
      t.Entry name operation typeNames o) ∨
    t.register name operation typeNames =
      (.error (.registrationArity name typeNames.length operation.arity), t) := by
  by_cases hfits : t.Fits operation typeNames
  · exact .inl (register_of_fits name hfits)
  · exact .inr (register_of_not_fits name hfits)

/-- An operator is registered as it is, where the names of its types stand for these types. -/
theorem register_of_named {o : Operator} (h : ∀ type ∈ o.params, t.types.get? type.name = some type) :
    t.register o.name o.operation (o.params.map Validator.name) =
      (.ok (registrationText o.name), { t with operators := t.operators.insert o.name o }) := by
  have hfound : (o.params.map Validator.name).filterMap t.types.get? = o.params := by
    rw [List.filterMap_map]
    exact (List.filterMap_congr h).trans List.filterMap_some
  have hlen : o.params.length = (o.params.map Validator.name).length := (List.length_map _).symm
  rw [register, hfound, if_pos hlen, Operator.ofParams, dif_pos o.arity_eq]

/-- **Operators are registered one after the other**, where the names of their types stand for these types. -/
theorem registerAll_of_named : ∀ (os : List Operator) (t : OperatorTable),
    (∀ o ∈ os, ∀ type ∈ o.params, t.types.get? type.name = some type) →
      registerAll os t = (.ok (), { t with operators := os.foldl (fun ops o => ops.insert o.name o) t.operators })
  | [], _, _ => rfl
  | o :: rest, t, h => by
    rw [registerAll, register_of_named (h o List.mem_cons_self)]
    -- what is registered leaves the types as they are
    exact registerAll_of_named rest _ fun o' ho' => h o' (List.mem_cons_of_mem o ho')

theorem get?_name_of_mem_standard : ∀ o ∈ Operator.standard, ∀ type ∈ o.params,
    TypeTable.standard.get? type.name = some type := by
  have hboolean : TypeTable.standard.get? Validator.boolean.name = some .boolean := rfl
  have hreal : TypeTable.standard.get? Validator.real.name = some .real := rfl
  have hwhole : TypeTable.standard.get? Validator.whole.name = some .whole := rfl
  have hanything : TypeTable.standard.get? Validator.anything.name = some .anything := rfl
  intro o ho
  rcases Operator.mem_standard_iff.1 ho with rfl | rfl | rfl | rfl | rfl | rfl | rfl | rfl
  · simp [Operator.conjunction, hboolean]
  · simp [Operator.disjunction, hboolean]
  · simp [Operator.greater, hreal]
  · simp [Operator.less, hreal]
  · simp [Operator.atLeast, hreal]
  · simp [Operator.atMost, hreal]
  · simp [Operator.inRange, hwhole]
  · simp [Operator.sum, hanything]

/-- **The standard operators are registered by the names of the standard types**, and none of them fails. -/
theorem registerAll_standard : registerAll Operator.standard (ofTypes .standard) = (.ok (), standard) :=
  registerAll_of_named Operator.standard (ofTypes .standard) get?_name_of_mem_standard

-- the names under which the operators and their types are registered, written out
example : (Operator.standard.map fun o => (o.name, o.params.map Validator.name)) =
    [("and", ["Boolean", "Boolean"]), ("or", ["Boolean", "Boolean"]), ("gt", ["Real", "Real"]),
      ("lt", ["Real", "Real"]), ("gte", ["Real", "Real"]), ("lte", ["Real", "Real"]),
      ("inrange", ["Whole", "Whole", "Whole"]), ("sum", ["Any"])] := rfl

/-- **Each unknown name is warned of**, as often as it occurs, whether or not the registration succeeds. -/
theorem warnings_ofRegistration (name : String) :
    Event.warnings (Event.ofRegistration name operation typeNames t) =
      (typeNames.filter fun typeName => (t.types.get? typeName).isNone).map (.unknownType name) := by
  have hunknown : t.unknownTypes typeNames = typeNames.filter fun typeName => (t.types.get? typeName).isNone := by
    simp [unknownTypes, Table.contains]
  have hmapped : ∀ names : List String,
      Event.warnings (names.map (.unknownType name)) = names.map (.unknownType name) := by
    intro names
    simp [Event.warnings, Event.level]
  rw [Event.ofRegistration, Event.warnings_append, hmapped, hunknown]
  cases (t.register name operation typeNames).1 <;> simp [Event.warnings, Event.level]

/-- **A registration succeeds if its types are known and as many as the arguments**, and only then.  It then puts the
operator under its name, with the types that the names stand for; otherwise it says how many types were named and leaves
the table as it was.  In either case each occurrence of an unknown name is warned of, in the order of the names. -/
theorem outcome_of_registration (t : OperatorTable) (name : String) (operation : Operation) (typeNames : List String) :
    let answer := (t.register name operation typeNames).1
    let after := (t.register name operation typeNames).2
    (answer.isOk = true ↔
        (∀ typeName ∈ typeNames, (t.types.get? typeName).isSome = true) ∧ typeNames.length = operation.arity) ∧
      (∀ text, answer = .ok text → text = registrationText name ∧ after.types = t.types ∧
        (∃ o : Operator, after.get? name = some o ∧ o.name = name ∧ o.operation = operation ∧
          ∀ i : Nat, o.params[i]? = typeNames[i]?.bind t.types.get?) ∧
        ∀ other, other ≠ name → after.get? other = t.get? other) ∧
      (∀ e, answer = .error e → e = .registrationArity name typeNames.length operation.arity ∧ after = t) ∧
      Event.warnings (Event.ofRegistration name operation typeNames t) =
        (typeNames.filter fun typeName => (t.types.get? typeName).isNone).map (.unknownType name) := by
  intro answer after
  by_cases hfits : t.Fits operation typeNames
  · obtain ⟨o, hregister, hentry⟩ := register_of_fits name hfits
    have hanswer : answer = .ok (registrationText name) := congrArg Prod.fst hregister
    have hafter : after = { t with operators := t.operators.insert name o } := congrArg Prod.snd hregister
    rw [hanswer, hafter]
    refine ⟨iff_of_true rfl hfits, ?_, nofun, warnings_ofRegistration name⟩
    rintro text ⟨⟩
    refine ⟨rfl, rfl, ⟨o, Table.get?_insert_self _ _ _, hentry.name_eq, hentry.operation_eq, ?_⟩, ?_⟩
    · exact getElem?_of_map_some hentry.params_eq
    · exact fun other hother => Table.get?_insert_of_ne hother _ _
  · have hregister := register_of_not_fits name hfits
    have hanswer : answer = .error (.registrationArity name typeNames.length operation.arity) :=
      congrArg Prod.fst hregister
    have hafter : after = t := congrArg Prod.snd hregister
    rw [hanswer, hafter]
    refine ⟨iff_of_false Bool.false_ne_true hfits, nofun, ?_, warnings_ofRegistration name⟩
    rintro e ⟨⟩
    exact ⟨rfl, rfl⟩

/-- Three types are named for two arguments and one of them is not known, which leaves as many as there are arguments:
`gt` is not replaced.  Then it is, by an operator of three arguments two of which have one type. -/
theorem outcome_of_registration_of_gt :
    let t : OperatorTable := .standard
    let first : Operation := .binary fun a _ => .ok a
    let last : Operation := .ternary fun _ _ c => .ok c
    let fails := t.register "gt" first ["Lost", "Real", "Boolean"]
    let succeeds := t.register "gt" last ["Real", "Boolean", "Real"]
    fails.1 = .error (.registrationArity "gt" 3 2) ∧ fails.2 = t ∧
      Event.warnings (Event.ofRegistration "gt" first ["Lost", "Real", "Boolean"] t) = [.unknownType "gt" "Lost"] ∧
      succeeds.1 = .ok "Successfully added Function: gt" ∧
      (∃ o, succeeds.2.get? "gt" = some o ∧ o.params[0]? = some .real ∧ o.params[1]? = some .boolean ∧
        o.params[2]? = some .real) ∧
      succeeds.2.get? "lt" = t.get? "lt" := by
  intro t first last fails succeeds
  have hreal : t.types.get? "Real" = some .real := rfl
  have hboolean : t.types.get? "Boolean" = some .boolean := rfl
  have hlost : t.types.get? "Lost" = none := rfl
  obtain ⟨-, -, herror, hwarnings⟩ := outcome_of_registration t "gt" first ["Lost", "Real", "Boolean"]
  obtain ⟨hiff, hok, -, -⟩ := outcome_of_registration t "gt" last ["Real", "Boolean", "Real"]
  have hisOk : succeeds.1.isOk = true := hiff.2 ⟨by simp [hreal, hboolean], rfl⟩
  obtain ⟨text, htext⟩ : ∃ text, succeeds.1 = .ok text := by
    cases h : succeeds.1 with
    | ok text => exact ⟨text, rfl⟩
    | error e =>
      rw [h] at hisOk
      cases hisOk
  obtain ⟨rfl, -, ⟨o, ho, -, -, hparams⟩, hother⟩ := hok text htext
  obtain ⟨e, he⟩ : ∃ e, fails.1 = .error e := ⟨_, rfl⟩
  obtain ⟨rfl, hafter⟩ := herror e he
  refine ⟨he, hafter, ?_, htext, ⟨o, ho, ?_, ?_, ?_⟩, hother "lt" (by decide)⟩
  · rw [hwarnings]
    simp [hreal, hboolean, hlost]
  · exact (hparams 0).trans hreal
  · exact (hparams 1).trans hboolean
  · exact (hparams 2).trans hreal

end OperatorTable
end Eligibility
