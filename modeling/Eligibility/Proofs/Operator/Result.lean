import Eligibility.Operator.Standard
import Eligibility.Proofs.Operator.Failure
/-!
# What the standard operations give

A value of the standard types is what their operations ask for once more: a boolean, or a number.  So on arguments of
their types they give a boolean without fail (`bool_of_mem_standard`), all but the sum.  The sum gives a number or fails
under its own name; its running total may become infinite, but never what is not a number (`addAll_ne_nan`).
-/
namespace Eligibility

open Binary64 (Finite)

namespace Validator

theorem Accepts.exists_real {v : Json} (h : real.Accepts v) : ∃ x, v.asReal = some x := by
  have hany : v.asReal.any (fun _ => true) = true := accepts_of_accept_ok h
  rw [Option.any_eq_true] at hany
  obtain ⟨x, hx, -⟩ := hany
  exact ⟨x, hx⟩

theorem Accepts.exists_real_of_whole {v : Json} (h : whole.Accepts v) : ∃ x, v.asReal = some x :=
  h.parent.parent.exists_real

theorem Accepts.exists_bool {v : Json} (h : boolean.Accepts v) : ∃ b, v = .bool b := by
  have hbool : v.isBool = true := accepts_of_accept_ok h
  cases v with
  | bool b => exact ⟨b, rfl⟩
  | null | number _ | string _ | array _ | object _ => cases hbool

end Validator

theorem Binary64.add_finite_ne_nan {t : Binary64} (h : t ≠ .nan) (x : Finite) : t.add (.finite x) ≠ .nan := by
  cases t with
  | finite y =>
    rw [add, Finite.add]
    split
    · exact nofun
    · rw [ofRatio]
      split <;> exact nofun
  -- an infinity meets no other infinity here, as what is added is finite
  | infinite negative => exact nofun
  | nan => exact absurd rfl h

namespace Operator

open Validator (Accepts)

theorem exists_real_eq_ok (name : String) {v : Json} (h : ∃ x, v.asReal = some x) : ∃ x, real name v = .ok x := by
  obtain ⟨x, hx⟩ := h
  exact ⟨x, by rw [real, hx]⟩

theorem bool_of_logical (name : String) (f : Bool → Bool → Bool) {args : List Json}
    (h : List.Forall₂ Accepts [.boolean, .boolean] args) : ∃ b, (logical name f).body args = .ok (.bool b) := by
  obtain _ | ⟨ha, _ | ⟨hb, _ | _⟩⟩ := h
  obtain ⟨a, rfl⟩ := ha.exists_bool
  obtain ⟨b, rfl⟩ := hb.exists_bool
  exact ⟨f a b, rfl⟩

theorem bool_of_compare (name : String) (f : Finite → Finite → Bool) {args : List Json}
    (h : List.Forall₂ Accepts [.real, .real] args) : ∃ b, (compare name f).body args = .ok (.bool b) := by
  obtain _ | ⟨ha, _ | ⟨hb, _ | _⟩⟩ := h
  obtain ⟨x, hx⟩ := exists_real_eq_ok name ha.exists_real
  obtain ⟨y, hy⟩ := exists_real_eq_ok name hb.exists_real
  refine ⟨f x y, ?_⟩
  dsimp only [compare, Operation.binary]
  rw [hx, hy]
  rfl

theorem bool_of_range {args : List Json} (h : List.Forall₂ Accepts [.whole, .whole, .whole] args) :
    ∃ b, range.body args = .ok (.bool b) := by
  obtain _ | ⟨ha, _ | ⟨hb, _ | ⟨hc, _ | _⟩⟩⟩ := h
  obtain ⟨x, hx⟩ := exists_real_eq_ok "inrange" ha.exists_real_of_whole
  obtain ⟨y, hy⟩ := exists_real_eq_ok "inrange" hb.exists_real_of_whole
  obtain ⟨z, hz⟩ := exists_real_eq_ok "inrange" hc.exists_real_of_whole
  refine ⟨x.le z && z.le y, ?_⟩
  dsimp only [range, Operation.ternary]
  rw [hx, hy, hz]
  rfl

/-- **On arguments of their types the standard operations give a boolean**, all but the sum. -/
theorem bool_of_mem_standard {o : Operator} (ho : o ∈ standard) (hname : o.name ≠ "sum") {args : List Json}
    (h : List.Forall₂ Accepts o.params args) : ∃ b, o.operation.body args = .ok (.bool b) := by
  rcases mem_standard_iff.1 ho with rfl | rfl | rfl | rfl | rfl | rfl | rfl | rfl
  · exact bool_of_logical _ _ h
  · exact bool_of_logical _ _ h
  · exact bool_of_compare _ _ h
  · exact bool_of_compare _ _ h
  · exact bool_of_compare _ _ h
  · exact bool_of_compare _ _ h
  · exact bool_of_range h
  · exact absurd rfl hname

theorem eq_sum_of_mem_standard {o : Operator} (ho : o ∈ standard) (hname : o.name = "sum") : o = sum := by
  rcases mem_standard_iff.1 ho with rfl | rfl | rfl | rfl | rfl | rfl | rfl | rfl
  iterate 7 exact absurd hname (by decide)
  rfl

theorem real_of_total {args : List Json} {v : Json} (h : total.body args = .ok v) : ∃ x, v.asReal = some x := by
  match args with
  | [a] =>
    simp only [total, Operation.unary, Outcome.bind_eq_chain, Outcome.chain_eq_ok_iff] at h
    obtain ⟨vs, -, sum, -, h⟩ := h
    cases sum with
    | finite x =>
      cases h
      exact ⟨_, rfl⟩
    | infinite _ | nan => cases h
  | [] | _ :: _ :: _ => cases h

theorem name_of_mem_standard : ∀ o ∈ standard,
    o.name = "sum" ∨ o.name ∈ ["and", "or", "gt", "lt", "gte", "lte", "inrange"] := by decide

/-- **A value of a standard operation** is a boolean, or a finite number if it is the sum. -/
theorem value_of_mem_standard {o : Operator} (ho : o ∈ standard) {args : List Json}
    (h : List.Forall₂ Accepts o.params args) {v : Json} (hv : o.operation.body args = .ok v) :
    o.name ∈ ["and", "or", "gt", "lt", "gte", "lte", "inrange"] ∧ (∃ b, v = .bool b) ∨
      o.name = "sum" ∧ ∃ x : Finite, v.asReal = some x := by
  by_cases hname : o.name = "sum"
  · obtain rfl := eq_sum_of_mem_standard ho hname
    exact .inr ⟨rfl, real_of_total hv⟩
  · obtain ⟨b, hb⟩ := bool_of_mem_standard ho hname h
    rw [hb] at hv
    cases hv
    exact .inl ⟨(name_of_mem_standard o ho).resolve_left hname, b, rfl⟩

/-- **Only the sum fails** on arguments of its types, and it fails under its own name. -/
theorem error_of_mem_standard {o : Operator} (ho : o ∈ standard) {args : List Json}
    (h : List.Forall₂ Accepts o.params args) {e : RuleError} (he : o.operation.body args = .error e) :
    ∃ message, e = .operationFailed "sum" message := by
  by_cases hname : o.name = "sum"
  · obtain rfl := eq_sum_of_mem_standard ho hname
    obtain _ | ⟨-, _ | _⟩ := h
    exact error_of_total he
  · obtain ⟨b, hb⟩ := bool_of_mem_standard ho hname h
    rw [hb] at he
    cases he

/-- **No running total is what is not a number.** -/
theorem addAll_ne_nan : ∀ {vs : List Json} {t total : Binary64}, t ≠ .nan → addAll t vs = .ok total → total ≠ .nan
  | [], t, total, ht, h => by
    cases h
    exact ht
  | v :: rest, t, total, ht, h => by
    obtain ⟨x, -, h⟩ := Outcome.chain_eq_ok_iff.1 h
    exact addAll_ne_nan (Binary64.add_finite_ne_nan ht x) h

end Operator
end Eligibility
