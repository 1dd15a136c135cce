import Eligibility.Json.Path
import Eligibility.Table
import Mathlib.Data.List.Forall2
/-!
# Values that agree

Values agree if they differ in how their numbers are written only: as an integer or with a point, with either zero,
or as integers that have one nearest binary64.  Failures agree if they differ in the texts of values only.  A path
leads to values that agree in contexts that do, or in both to nothing (`resolve_agree`).
-/
namespace Eligibility

/-- **Values that are equal up to how numbers are written.** -/
inductive Json.Agree : Json → Json → Prop
  | null : Agree .null .null
  | bool (b : Bool) : Agree (.bool b) (.bool b)
  | number {m n : Json.Number} (h : m.toFinite.toInt = n.toFinite.toInt) : Agree (.number m) (.number n)
  | string (s : String) : Agree (.string s) (.string s)
  | array {vs ws : List Json} (h : List.Forall₂ Agree vs ws) : Agree (.array vs) (.array ws)
  /-- The same keys in the same order, with values that agree. -/
  | object {ms ns : Table Json} (hkeys : ms.keys = ns.keys) (h : List.Forall₂ Agree ms.values ns.values) :
      Agree (.object ms) (.object ns)

/-- **Failures that are equal up to the texts of values.** -/
inductive RuleError.Agree : RuleError → RuleError → Prop
  | refl (e : RuleError) : Agree e e
  | typeMismatch (typeName label v w : String) (failed : Option String) :
      Agree (.typeMismatch typeName label v failed) (.typeMismatch typeName label w failed)
  | operationFailed (name s t : String) : Agree (.operationFailed name s) (.operationFailed name t)

/-- Outcomes with values that are related, or with failures that agree. -/
inductive Outcome.Agree {α β : Type} (R : α → β → Prop) : Outcome α → Outcome β → Prop
  | ok {a : α} {b : β} (h : R a b) : Agree R (.ok a) (.ok b)
  | error {e f : RuleError} (h : e.Agree f) : Agree R (.error e) (.error f)

theorem RuleError.Agree.ctorIdx_eq {e f : RuleError} (h : e.Agree f) : e.ctorIdx = f.ctorIdx ∧ e.kind = f.kind := by
  cases h <;> exact ⟨rfl, rfl⟩

namespace Outcome

variable {α β γ δ : Type} {R : α → β → Prop} {S : γ → δ → Prop}

theorem Agree.refl_error (e : RuleError) : Agree R (.error e) (.error e) := .error (.refl e)

theorem Agree.imp {R' : α → β → Prop} (hR : ∀ a b, R a b → R' a b) {o : Outcome α} {p : Outcome β} (h : Agree R o p) :
    Agree R' o p := by
  cases h with
  | ok h => exact .ok (hR _ _ h)
  | error h => exact .error h

theorem Agree.chain {o : Outcome α} {p : Outcome β} (h : Agree R o p) {f : α → Outcome γ} {g : β → Outcome δ}
    (hf : ∀ a b, R a b → Agree S (f a) (g b)) : Agree S (o.chain f) (p.chain g) := by
  cases h with
  | ok h => exact hf _ _ h
  | error h => exact .error h

end Outcome

namespace Json

mutual

theorem Agree.refl : (v : Json) → v.Agree v
  | .null => .null
  | .bool b => .bool b
  | .number _ => .number rfl
  | .string s => .string s
  | .array items => .array (agree_refl_items items)
  | .object members => .object rfl (agree_refl_values members)

theorem agree_refl_items : (vs : List Json) → List.Forall₂ Agree vs vs
  | [] => .nil
  | v :: rest => .cons (Agree.refl v) (agree_refl_items rest)

theorem agree_refl_values : (members : List (String × Json)) →
    List.Forall₂ Agree (Table.values members) (Table.values members)
  | [] => .nil
  | (_, v) :: rest => .cons (Agree.refl v) (agree_refl_values rest)

end

theorem Agree.isNull_eq {v w : Json} (h : v.Agree w) : v.isNull = w.isNull := by cases h <;> rfl

theorem Agree.isBool_eq {v w : Json} (h : v.Agree w) : v.isBool = w.isBool := by cases h <;> rfl

theorem Agree.asReal {v w : Json} (h : v.Agree w) :
    Option.Rel (fun x y => x.toInt = y.toInt) v.asReal w.asReal := by
  cases h with
  | number h => exact .some h
  | null | bool _ | string _ | array _ | object _ _ => exact .none

end Json

theorem rel_getElem?_of_forall₂ {α β : Type} {R : α → β → Prop} {xs : List α} {ys : List β}
    (h : List.Forall₂ R xs ys) : ∀ i : Nat, Option.Rel R xs[i]? ys[i]? := by
  induction h with
  | nil => exact fun _ => .none
  | cons hx _ ih =>
    intro i
    cases i with
    | zero => exact .some hx
    | succ i => simpa using ih i

/-- **Tables of the same keys have related values for each key**, or none. -/
theorem Table.get?_rel {α β : Type} {R : α → β → Prop} (key : String) : ∀ {t : Table α} {u : Table β},
    t.keys = u.keys → List.Forall₂ R t.values u.values → Option.Rel R (t.get? key) (u.get? key)
  | [], [], _, _ => .none
  | [], _ :: _, hkeys, _ => by cases hkeys
  | _ :: _, [], hkeys, _ => by cases hkeys
  | (k, v) :: t, (l, w) :: u, hkeys, h => by
    obtain ⟨rfl, hrest⟩ : k = l ∧ keys t = keys u := List.cons.inj hkeys
    cases h with
    | cons hv h =>
      rw [get?_cons, get?_cons]
      split
      · exact .some hv
      · exact get?_rel key hrest h

namespace Json.Path

theorem step?_agree {v w : Json} (h : v.Agree w) (name : String) : Option.Rel Agree (step? v name) (step? w name) := by
  cases h with
  | array h =>
    unfold step?
    cases Numeral.word? name.toList with
    | none => exact .none
    | some i => exact rel_getElem?_of_forall₂ h i
  | object hkeys h => exact Table.get?_rel name hkeys h
  | null | bool _ | number _ | string _ => exact .none

theorem walk?_agree : ∀ (names : List String) {v w : Json}, v.Agree w → Option.Rel Agree (walk? v names) (walk? w names)
  | [], _, _, h => .some h
  | name :: rest, v, w, h => by
    have hstep := step?_agree h name
    rw [walk?, walk?]
    cases hv : step? v name <;> cases hw : step? w name <;> rw [hv, hw] at hstep
    · exact .none
    · cases hstep
    · cases hstep
    · cases hstep with
      | some hnext => exact walk?_agree rest hnext

/-- **A path leads to values that agree** in contexts that do, or in both to nothing. -/
theorem resolve_agree {c₁ c₂ : Json} (h : c₁.Agree c₂) (path : String) :
    Outcome.Agree Json.Agree (resolve path c₁) (resolve path c₂) := by
  have hwalk := walk?_agree (steps path) h
  unfold resolve lookup?
  cases hv : walk? c₁ (steps path) <;> cases hw : walk? c₂ (steps path) <;> rw [hv, hw] at hwalk
  · exact .refl_error _
  · cases hwalk
  · cases hwalk
  · cases hwalk with
    | some hfound =>
      have hagree := hfound
      cases hfound with
      | null => exact .refl_error _
      | bool _ | number _ | string _ | array _ | object _ _ => exact .ok hagree

end Json.Path
end Eligibility
