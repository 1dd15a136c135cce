import Eligibility.Operator.Basic
import Mathlib.Data.List.Forall2
/-!
# Arguments of operators

A type gives back the values that it accepts (`eq_of_validate_ok`).  The operands of an operator are checked as if
from left to right, each only if those before it are of their types (`sequence_validated_cons`), so an operator that
gives a value has had one of its type for each of its parameters (`valid_of_invoke_ok`), and its operation is run on
just these values (`arguments_of_sequence`).
-/
namespace Eligibility

/-- Whether a value is of a type. -/
def Validator.Accepts (type : Validator) (v : Json) : Prop := type.validate v = .ok v

theorem Validator.accept_of_accepts {accepts : Json → Bool} {v : Json} (h : accepts v = true) (name label : String) :
    accept name label accepts v = .ok v := by
  rw [accept, if_pos h]

theorem Validator.eq_of_accept_ok {name label : String} {accepts : Json → Bool} {v w : Json}
    (h : accept name label accepts v = .ok w) : w = v := by
  unfold accept at h
  split at h
  · cases h
    rfl
  · cases h

theorem Validator.accepts_of_accept_ok {name label : String} {accepts : Json → Bool} {v w : Json}
    (h : accept name label accepts v = .ok w) : accepts v = true := by
  rw [accept] at h
  split at h
  · assumption
  · cases h

theorem Validator.validate_refine {parent : Validator} {v a : Json} (h : parent.validate v = .ok a)
    (name label : String) (accepts : Json → Bool) :
    (parent.refine name label accepts).validate v = accept name label accepts a := by
  rw [validate, h]
  rfl

/-- **A type changes no value.** -/
theorem Validator.eq_of_validate_ok : ∀ (type : Validator) (v w : Json), type.validate v = .ok w → w = v
  | .root name label accepts, v, w, h => eq_of_accept_ok h
  | .refine parent name label accepts, v, w, h => by
    cases hp : parent.validate v with
    | error failure =>
      rw [validate, hp] at h
      cases h
    | ok a =>
      have ha : a = v := eq_of_validate_ok parent v a hp
      rw [validate_refine hp] at h
      exact (eq_of_accept_ok h).trans ha

theorem Outcome.chain_eq_ok_iff {α β : Type} {o : Outcome α} {f : α → Outcome β} {b : β} :
    o.chain f = .ok b ↔ ∃ a, o = .ok a ∧ f a = .ok b := by
  cases o with
  | error failure => simp [chain]
  | ok a => simp [chain]

theorem Outcome.chain_eq_error_iff {α β : Type} {o : Outcome α} {f : α → Outcome β} {e : RuleError} :
    o.chain f = .error e ↔ o = .error e ∨ ∃ a, o = .ok a ∧ f a = .error e := by
  cases o with
  | error failure => simp [chain]
  | ok a => simp [chain]

theorem Outcome.bind_eq_chain {α β : Type} (o : Outcome α) (f : α → Outcome β) : (o >>= f) = o.chain f := by
  cases o <;> rfl

namespace Operator

/-- **The leftmost failure decides**: what follows an operand is only looked at if it has a value of its type. -/
theorem sequence_validated_cons (type : Validator) (types : List Validator) (o : Outcome Json)
    (rest : List (Outcome Json)) :
    Outcome.sequence (validated (type :: types) (o :: rest)) =
      (o.chain type.validate).chain fun a =>
        (Outcome.sequence (validated types rest)).chain fun as => .ok (a :: as) := by
  rw [validated, List.zipWith_cons_cons, ← validated]
  cases o.chain type.validate with
  | error failure => rw [Outcome.sequence_error_cons]; rfl
  | ok a =>
    rw [Outcome.sequence_ok_cons]
    cases Outcome.sequence (validated types rest) <;> rfl

theorem valid_of_sequence_ok : ∀ (types : List Validator) (os : List (Outcome Json)) (as : List Json),
    Outcome.sequence (validated types os) = .ok as → ∀ (i : Nat) (type : Validator) (o : Outcome Json),
      types[i]? = some type → os[i]? = some o → ∃ a, o = .ok a ∧ type.validate a = .ok a
  | [], _, _, _, i, _, _, ht, _ => by cases ht
  | _ :: _, [], _, _, i, _, _, _, ho => by cases ho
  | type₀ :: types, o₀ :: os, as, h, i, type, o, ht, ho => by
    rw [sequence_validated_cons] at h
    obtain ⟨a, ha, hrest⟩ := Outcome.chain_eq_ok_iff.1 h
    cases i with
    | zero =>
      obtain ⟨b, hb, hv⟩ := Outcome.chain_eq_ok_iff.1 ha
      obtain rfl : a = b := type₀.eq_of_validate_ok b a hv
      cases ht
      cases ho
      exact ⟨a, hb, hv⟩
    | succ i =>
      obtain ⟨bs, hbs, -⟩ := Outcome.chain_eq_ok_iff.1 hrest
      exact valid_of_sequence_ok types os bs hbs i type o (by simpa using ht) (by simpa using ho)

/-- **Arguments are the values of the operands**, in their order, and have the types of the operator. -/
theorem arguments_of_sequence : ∀ {types : List Validator} {os : List (Outcome Json)} {as : List Json},
    os.length = types.length → Outcome.sequence (validated types os) = .ok as →
    os = as.map .ok ∧ List.Forall₂ Validator.Accepts types as
  | [], [], as, _, h => by
    cases h
    exact ⟨rfl, .nil⟩
  | [], _ :: _, _, hlen, _ => by cases hlen
  | _ :: _, [], _, hlen, _ => by cases hlen
  | type :: types, o :: os, as, hlen, h => by
    rw [sequence_validated_cons] at h
    obtain ⟨a, ha, hrest⟩ := Outcome.chain_eq_ok_iff.1 h
    obtain ⟨b, rfl, hv⟩ := Outcome.chain_eq_ok_iff.1 ha
    obtain rfl : a = b := type.eq_of_validate_ok b a hv
    obtain ⟨bs, hbs, has⟩ := Outcome.chain_eq_ok_iff.1 hrest
    cases has
    obtain ⟨hvalues, haccepts⟩ := arguments_of_sequence (Nat.succ.inj hlen) hbs
    exact ⟨by rw [List.map_cons, ← hvalues], .cons hv haccepts⟩

theorem accepts_of_sequence {types : List Validator} {os : List (Outcome Json)} {as : List Json}
    (hlen : os.length = types.length) (h : Outcome.sequence (validated types os) = .ok as) :
    List.Forall₂ Validator.Accepts types as := (arguments_of_sequence hlen h).2

/-- **An operator that gives a value had an operand for each parameter**, with a value of its type. -/
theorem valid_of_invoke_ok {o : Operator} {operands : List (Outcome Json)} {v : Json}
    (h : o.invoke operands = .ok v) :
    operands.length = o.arity ∧ ∀ (i : Nat) (type : Validator) (operand : Outcome Json),
      o.params[i]? = some type → operands[i]? = some operand → ∃ a, operand = .ok a ∧ type.validate a = .ok a := by
  rw [invoke] at h
  split at h
  · rename_i hlen
    obtain ⟨as, has, -⟩ := Outcome.chain_eq_ok_iff.1 h
    exact ⟨hlen, valid_of_sequence_ok o.params operands as has⟩
  · cases h

/-- **The value of an operator is that of its operation**, run on arguments of its types. -/
theorem body_of_invoke_ok {o : Operator} {operands : List (Outcome Json)} {v : Json} (h : o.invoke operands = .ok v) :
    ∃ args, List.Forall₂ Validator.Accepts o.params args ∧ o.operation.body args = .ok v := by
  rw [invoke] at h
  split at h
  · rename_i hlen
    obtain ⟨args, hargs, hbody⟩ := Outcome.chain_eq_ok_iff.1 h
    exact ⟨args, accepts_of_sequence hlen hargs, hbody⟩
  · cases h

theorem invoke_of_sequence {o : Operator} {operands : List (Outcome Json)} {args : List Json}
    (hlen : operands.length = o.arity) (h : Outcome.sequence (validated o.params operands) = .ok args) :
    o.invoke operands = o.operation.body args := by
  rw [invoke, if_pos hlen, h, Outcome.chain]

end Operator
end Eligibility
