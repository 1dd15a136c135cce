import Eligibility.Operator.Table
import Eligibility.Proofs.Operator.Invocation
import Eligibility.Proofs.Table.Sorted
import Eligibility.Proofs.Validator.Levels
/-!
# Where failures come from

The failure of an operator is that of its number of operands, of one of the operands, of the type of an argument, or
of the operation itself (`error_of_invoke`).  A type fails as a mismatch only (`Validator.error_of_validate`), and the
operations of the standard operators fail as operations only (`failsAsItself_of_mem_standard`).
-/
namespace Eligibility

/-- **A type fails as a mismatch with the type asked for**, whichever level rejects the value. -/
theorem Validator.error_of_validate {type : Validator} {v : Json} {e : RuleError} (h : type.validate v = .error e) :
    ∃ failed, e = .typeMismatch type.name type.label v.display failed := by
  rw [validate_eq] at h
  split at h
  · cases h
    exact ⟨_, rfl⟩
  · rw [accept] at h
    split at h <;> cases h
    exact ⟨none, rfl⟩

namespace Operator

theorem error_of_sequence {types : List Validator} {os : List (Outcome Json)} {e : RuleError}
    (h : Outcome.sequence (validated types os) = .error e) :
    .error e ∈ os ∨ ∃ type ∈ types, ∃ a, type.validate a = .error e := by
  obtain ⟨i, ⟨type, operand, htype, hoperand, hfails⟩, -⟩ := failsAt_of_sequence h
  rcases hfails with rfl | ⟨a, -, ha⟩
  · exact .inl (List.mem_of_getElem? hoperand)
  · exact .inr ⟨type, List.mem_of_getElem? htype, a, ha⟩

/-- **A failure of an operator** is that of the number of its operands, of an operand, of the type of an argument, or
of the operation when it was run on arguments of its types. -/
theorem error_of_invoke {o : Operator} {operands : List (Outcome Json)} {e : RuleError}
    (h : o.invoke operands = .error e) :
    e = .callArity o.name o.arity operands.length ∨ .error e ∈ operands ∨
      (∃ type ∈ o.params, ∃ a, type.validate a = .error e) ∨
      ∃ args, List.Forall₂ Validator.Accepts o.params args ∧ o.operation.body args = .error e := by
  rw [invoke] at h
  split at h
  · rename_i hlen
    rcases Outcome.chain_eq_error_iff.1 h with h | ⟨args, hargs, h⟩
    · rcases error_of_sequence h with h | h
      · exact .inr (.inl h)
      · exact .inr (.inr (.inl h))
    · exact .inr (.inr (.inr ⟨args, accepts_of_sequence hlen hargs, h⟩))
  · cases h
    exact .inl rfl

end Operator

def Operation.FailsAsItself (operation : Operation) : Prop :=
  ∀ args e, operation.body args = .error e → e.kind = .operationFailed

namespace Operation

theorem failsAsItself_unary {f : Json → Outcome Json} (h : ∀ a e, f a = .error e → e.kind = .operationFailed) :
    (unary f).FailsAsItself := by
  intro args e hargs
  match args with
  | [a] => exact h a e hargs
  | [] | _ :: _ :: _ =>
    cases hargs
    rfl

theorem failsAsItself_binary {f : Json → Json → Outcome Json}
    (h : ∀ a b e, f a b = .error e → e.kind = .operationFailed) : (binary f).FailsAsItself := by
  intro args e hargs
  match args with
  | [a, b] => exact h a b e hargs
  | [] | [_] | _ :: _ :: _ :: _ =>
    cases hargs
    rfl

theorem failsAsItself_ternary {f : Json → Json → Json → Outcome Json}
    (h : ∀ a b c e, f a b c = .error e → e.kind = .operationFailed) : (ternary f).FailsAsItself := by
  intro args e hargs
  match args with
  | [a, b, c] => exact h a b c e hargs
  | [] | [_] | [_, _] | _ :: _ :: _ :: _ :: _ =>
    cases hargs
    rfl

end Operation

namespace Operator

theorem error_of_boolean {name : String} {v : Json} {e : RuleError} (h : boolean name v = .error e) :
    ∃ message, e = .operationFailed name message := by
  cases v <;> cases h <;> exact ⟨_, rfl⟩

theorem error_of_real {name : String} {v : Json} {e : RuleError} (h : real name v = .error e) :
    ∃ message, e = .operationFailed name message := by
  rw [real] at h
  split at h <;> cases h
  exact ⟨_, rfl⟩

theorem error_of_collection {v : Json} {e : RuleError} (h : collection v = .error e) :
    ∃ message, e = .operationFailed "sum" message := by
  cases v <;> cases h <;> exact ⟨_, rfl⟩

theorem error_of_addAll : ∀ {vs : List Json} {total : Binary64} {e : RuleError}, addAll total vs = .error e →
    ∃ message, e = .operationFailed "sum" message
  | [], _, _, h => by cases h
  | v :: rest, total, e, h => by
    rw [addAll, Outcome.chain_eq_error_iff] at h
    rcases h with h | ⟨x, -, h⟩
    · exact error_of_real h
    · exact error_of_addAll h

/-- **The sum fails under its own name.** -/
theorem error_of_total {v : Json} {e : RuleError} (h : total.body [v] = .error e) :
    ∃ message, e = .operationFailed "sum" message := by
  simp only [total, Operation.unary, Outcome.bind_eq_chain, Outcome.chain_eq_error_iff] at h
  rcases h with h | ⟨vs, -, h | ⟨sum, -, h⟩⟩
  · exact error_of_collection h
  · exact error_of_addAll h
  · split at h <;> cases h
    exact ⟨_, rfl⟩

theorem kind_of_operationFailed {name : String} {e : RuleError} (h : ∃ message, e = .operationFailed name message) :
    e.kind = .operationFailed := by
  obtain ⟨message, rfl⟩ := h
  rfl

theorem failsAsItself_logical (name : String) (f : Bool → Bool → Bool) : (logical name f).FailsAsItself := by
  refine Operation.failsAsItself_binary fun a b e h => ?_
  simp only [Outcome.bind_eq_chain, Outcome.chain_eq_error_iff] at h
  rcases h with h | ⟨_, -, h | ⟨_, -, h⟩⟩
  · exact kind_of_operationFailed (error_of_boolean h)
  · exact kind_of_operationFailed (error_of_boolean h)
  · cases h

theorem failsAsItself_compare (name : String) (f : Binary64.Finite → Binary64.Finite → Bool) :
    (compare name f).FailsAsItself := by
  refine Operation.failsAsItself_binary fun a b e h => ?_
  simp only [Outcome.bind_eq_chain, Outcome.chain_eq_error_iff] at h
  rcases h with h | ⟨_, -, h | ⟨_, -, h⟩⟩
  · exact kind_of_operationFailed (error_of_real h)
  · exact kind_of_operationFailed (error_of_real h)
  · cases h

theorem failsAsItself_range : range.FailsAsItself := by
  refine Operation.failsAsItself_ternary fun a b c e h => ?_
  simp only [Outcome.bind_eq_chain, Outcome.chain_eq_error_iff] at h
  rcases h with h | ⟨_, -, h | ⟨_, -, h | ⟨_, -, h⟩⟩⟩
  · exact kind_of_operationFailed (error_of_real h)
  · exact kind_of_operationFailed (error_of_real h)
  · exact kind_of_operationFailed (error_of_real h)
  · cases h

theorem failsAsItself_total : total.FailsAsItself :=
  Operation.failsAsItself_unary fun _ _ h => kind_of_operationFailed (error_of_total h)

/-- **The standard operations fail as operations only.** -/
theorem failsAsItself_of_mem_standard {o : Operator} (h : o ∈ standard) : o.operation.FailsAsItself := by
  rcases mem_standard_iff.1 h with rfl | rfl | rfl | rfl | rfl | rfl | rfl | rfl
  · exact failsAsItself_logical _ _
  · exact failsAsItself_logical _ _
  · exact failsAsItself_compare _ _
  · exact failsAsItself_compare _ _
  · exact failsAsItself_compare _ _
  · exact failsAsItself_compare _ _
  · exact failsAsItself_range
  · exact failsAsItself_total

end Operator

namespace OperatorTable

/-- **The standard table has the standard operators**, each under its own name. -/
theorem mem_standard_of_get? {name : String} {o : Operator} (h : standard.get? name = some o) :
    o ∈ Operator.standard ∧ o.name = name := by
  have hentries : standard.operators = Table.ofEntries (Operator.standard.map fun o => (o.name, o)) := by
    rw [Table.ofEntries, List.foldl_map]
    rfl
  rw [get?, hentries] at h
  obtain ⟨p, hp, hpo⟩ := List.mem_map.1 (Table.mem_of_mem_ofEntries (Table.mem_of_get? h))
  cases hpo
  exact ⟨hp, rfl⟩

end OperatorTable
end Eligibility
