import Eligibility.Proofs.Operator.Arguments
import Eligibility.TypeTable
/-!
# What an operator makes of its operands

Operands fail by position: as they are, or because their value is not of the type of the position (`FailsAt`).  The
operands of an operator fail as the least position does (`failsAt_of_sequence`), and if no position fails the operation
is run on just their values (`sequence_of_not_failsAt`).
-/
namespace Eligibility
namespace Operator

/-- Whether the operand at a position fails, or has a value that is not of the type there. -/
def FailsAt (types : List Validator) (operands : List (Outcome Json)) (i : Nat) (e : RuleError) : Prop :=
  ∃ type operand, types[i]? = some type ∧ operands[i]? = some operand ∧
    (operand = .error e ∨ ∃ a, operand = .ok a ∧ type.validate a = .error e)

/-- The operator with another operation of as many arguments. -/
def withBody (body : List Json → Outcome Json) (o : Operator) : Operator :=
  { o with operation := ⟨o.operation.arity, body⟩, arity_eq := o.arity_eq }

variable {type : Validator} {types : List Validator} {operand : Outcome Json} {operands : List (Outcome Json)}

theorem failsAt_zero {e : RuleError} :
    FailsAt (type :: types) (operand :: operands) 0 e ↔ operand.chain type.validate = .error e := by
  rw [Outcome.chain_eq_error_iff]
  simp [FailsAt]

theorem failsAt_succ {i : Nat} {e : RuleError} :
    FailsAt (type :: types) (operand :: operands) (i + 1) e ↔ FailsAt types operands i e := by
  simp [FailsAt]

/-- **Operands fail as the least position that fails.** -/
theorem failsAt_of_sequence : ∀ {types : List Validator} {operands : List (Outcome Json)} {e : RuleError},
    Outcome.sequence (validated types operands) = .error e →
    ∃ i, FailsAt types operands i e ∧ ∀ j < i, ∀ f, ¬ FailsAt types operands j f
  | [], _, _, h => by cases h
  | _ :: _, [], _, h => by cases h
  | type :: types, operand :: operands, e, h => by
    rw [sequence_validated_cons, Outcome.chain_eq_error_iff] at h
    rcases h with h | ⟨a, ha, h⟩
    · exact ⟨0, failsAt_zero.2 h, fun j hj => absurd hj (Nat.not_lt_zero j)⟩
    · rcases Outcome.chain_eq_error_iff.1 h with h | ⟨as, -, h⟩
      · obtain ⟨i, hi, hleast⟩ := failsAt_of_sequence h
        refine ⟨i + 1, failsAt_succ.2 hi, ?_⟩
        intro j hj f hf
        cases j with
        | zero =>
          rw [failsAt_zero, ha] at hf
          cases hf
        | succ j => exact hleast j (Nat.lt_of_succ_lt_succ hj) f (failsAt_succ.1 hf)
      · cases h

theorem not_failsAt_of_sequence {args : List Json} (h : Outcome.sequence (validated types operands) = .ok args)
    (i : Nat) (e : RuleError) : ¬ FailsAt types operands i e := by
  rintro ⟨type, operand, htype, hoperand, hfails⟩
  obtain ⟨a, rfl, ha⟩ := valid_of_sequence_ok types operands args h i type operand htype hoperand
  rcases hfails with hfails | ⟨b, hb, hfails⟩
  · cases hfails
  · cases hb
    rw [ha] at hfails
    cases hfails

theorem sequence_of_not_failsAt (hlen : operands.length = types.length) (h : ∀ i e, ¬ FailsAt types operands i e) :
    ∃ args, operands = args.map .ok ∧ Outcome.sequence (validated types operands) = .ok args := by
  cases hs : Outcome.sequence (validated types operands) with
  | error e =>
    obtain ⟨i, hi, -⟩ := failsAt_of_sequence hs
    exact absurd hi (h i e)
  | ok args => exact ⟨args, (arguments_of_sequence hlen hs).1, rfl⟩

theorem invoke_of_sequence_error {o : Operator} {e : RuleError} (hlen : operands.length = o.arity)
    (h : Outcome.sequence (validated o.params operands) = .error e) : o.invoke operands = .error e := by
  rw [invoke, if_pos hlen, h, Outcome.chain]

/-- **The result of an operator by its operands.**  A wrong number of them is the failure, whatever they are.  Else the
least position that fails decides, whatever the operation is; and if none does, the operation is run on their values. -/
theorem invoke_by_position (o : Operator) (operands : List (Outcome Json)) :
    (operands.length ≠ o.arity → o.invoke operands = .error (.callArity o.name o.arity operands.length)) ∧
      (operands.length = o.arity → (∃ i e, FailsAt o.params operands i e) →
        ∃ i e, FailsAt o.params operands i e ∧ (∀ j < i, ∀ f, ¬ FailsAt o.params operands j f) ∧
          o.invoke operands = .error e ∧ ∀ body, (o.withBody body).invoke operands = .error e) ∧
      (operands.length = o.arity → (∀ i e, ¬ FailsAt o.params operands i e) →
        ∃ args, operands = args.map .ok ∧ o.invoke operands = o.operation.body args) := by
  refine ⟨?_, ?_, ?_⟩
  · intro hlen
    rw [invoke, if_neg hlen]
  · rintro hlen ⟨i, e, hfails⟩
    cases hs : Outcome.sequence (validated o.params operands) with
    | error failure =>
      obtain ⟨least, hleast, hbefore⟩ := failsAt_of_sequence hs
      refine ⟨least, failure, hleast, hbefore, invoke_of_sequence_error hlen hs, ?_⟩
      intro body
      exact invoke_of_sequence_error (o := o.withBody body) hlen hs
    | ok args => exact absurd hfails (not_failsAt_of_sequence hs i e)
  · intro hlen hnone
    obtain ⟨args, hargs, hs⟩ := sequence_of_not_failsAt hlen hnone
    exact ⟨args, hargs, invoke_of_sequence hlen hs⟩

/-- A text where a boolean belongs comes before an operand that failed on its own; a single operand that failed is one
operand too few by two; and three booleans are the arguments. -/
theorem invoke_by_position_of_booleans :
    let second : Operator := ⟨"second", [.boolean, .boolean, .boolean], .ternary fun _ b _ => .ok b, rfl⟩
    let never : List Json → Outcome Json := fun _ => .error .notARule
    let mixed : List (Outcome Json) := [.ok (.bool true), .ok (.string "a"), .error .nullOperand]
    let mismatch : RuleError := .typeMismatch "Boolean" "Boolean" "a" none
    second.invoke mixed = .error mismatch ∧ (second.withBody never).invoke mixed = .error mismatch ∧
      second.invoke [.error .nullOperand] = .error (.callArity "second" 3 1) ∧
      second.invoke [.ok (.bool true), .ok (.bool false), .ok (.bool true)] = .ok (.bool false) := by
  intro second never mixed mismatch
  obtain ⟨-, hmixed, -⟩ := invoke_by_position second mixed
  obtain ⟨hcount, -, -⟩ := invoke_by_position second [.error .nullOperand]
  obtain ⟨-, -, hbooleans⟩ := invoke_by_position second [.ok (.bool true), .ok (.bool false), .ok (.bool true)]
  have htext : FailsAt second.params mixed 1 mismatch := ⟨.boolean, .ok (.string "a"), rfl, rfl, .inr ⟨_, rfl, rfl⟩⟩
  obtain ⟨i, e, hi, hleast, hinvoke, hbody⟩ := hmixed rfl ⟨1, mismatch, htext⟩
  have he : e = mismatch := by
    match i with
    | 0 =>
      rw [failsAt_zero] at hi
      cases hi
    | 1 =>
      rw [failsAt_succ, failsAt_zero] at hi
      cases hi
      rfl
    | i + 2 => exact absurd htext (hleast 1 (by omega) mismatch)
  subst he
  refine ⟨hinvoke, hbody never, hcount (by decide), ?_⟩
  have hvalues : Outcome.sequence (validated second.params [.ok (.bool true), .ok (.bool false), .ok (.bool true)]) =
      .ok [.bool true, .bool false, .bool true] := rfl
  obtain ⟨args, hargs, hvalue⟩ := hbooleans rfl (not_failsAt_of_sequence hvalues)
  rw [hvalue]
  match args with
  | [a, b, c] =>
    cases hargs
    rfl

end Operator
end Eligibility
