import Eligibility.RuleError
/-!
# Outcomes

A value or the reason why there is none.  `apply` reports the function's failure before the argument's, so `sequence`
fails as the leftmost of its outcomes that fails.
-/

namespace Eligibility

/-- A value, or the reason why there is none. -/
abbrev Outcome (α : Type) := Except RuleError α

namespace Outcome

variable {α β : Type}

/-- A function's outcome applied to an argument's. -/
def apply : Outcome (α → β) → Outcome α → Outcome β
  | .ok f, .ok a => .ok (f a)
  | .error e, _ => .error e
  | .ok _, .error e => .error e

/-- Goes on with the value, if there is one. -/
def chain (o : Outcome α) (f : α → Outcome β) : Outcome β :=
  match o with
  | .ok a => f a
  | .error e => .error e

/-- **All values, or the leftmost failure.** -/
def sequence : List (Outcome α) → Outcome (List α)
  | [] => .ok []
  | o :: rest => apply (apply (.ok List.cons) o) (sequence rest)

@[simp] theorem sequence_nil : sequence ([] : List (Outcome α)) = .ok [] := rfl

@[simp] theorem sequence_ok_cons (a : α) (rest : List (Outcome α)) :
    sequence (.ok a :: rest) = (sequence rest).map (a :: ·) := by
  cases h : sequence rest <;> simp [sequence, apply, h, Except.map]

@[simp] theorem sequence_error_cons (e : RuleError) (rest : List (Outcome α)) :
    sequence (.error e :: rest) = .error e := by
  cases h : sequence rest <;> simp [sequence, apply]

theorem sequence_map_ok : ∀ values : List α, sequence (values.map .ok) = .ok values
  | [] => rfl
  | a :: rest => by rw [List.map_cons, sequence_ok_cons, sequence_map_ok rest]; rfl

end Outcome
end Eligibility
