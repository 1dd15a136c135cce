import Eligibility.Proofs.Json.Agree
import Eligibility.Proofs.Json.Normal
import Eligibility.Proofs.Operator.Failure
import Eligibility.Proofs.Operator.Shape
/-!
# Operators that do not look at how numbers are written

A type or an operation is uniform if it makes no difference between values that agree.  Uniform operators have one
result for operands that agree (`invoke_agree`), and the standard operators are uniform (`uniform_standard`): their
types ask for the binary64 of a number only, as their operations do.
-/
namespace Eligibility

open Binary64 (Finite SameValue)

namespace Validator

/-- Whether no level of a type makes a difference between values that agree. -/
def Uniform : Validator → Prop
  | root _ _ accepts => ∀ v w : Json, v.Agree w → accepts v = accepts w
  | refine parent _ _ accepts => parent.Uniform ∧ ∀ v w : Json, v.Agree w → accepts v = accepts w

theorem accept_agree (name label : String) {accepts : Json → Bool}
    (ha : ∀ v w : Json, v.Agree w → accepts v = accepts w) {v w : Json} (h : v.Agree w) :
    Outcome.Agree Json.Agree (accept name label accepts v) (accept name label accepts w) := by
  rw [accept, accept, ha v w h]
  split
  · exact .ok h
  · exact .error (.typeMismatch _ _ _ _ _)

theorem relabel_agree (name label : String) {e f : RuleError} (h : e.Agree f) :
    (relabel name label e).Agree (relabel name label f) := by
  cases h with
  | refl e => exact .refl _
  | typeMismatch _ _ v w _ => exact .typeMismatch _ _ v w _
  | operationFailed name s t => exact .operationFailed name s t

/-- **A uniform type accepts values that agree, or rejects them, alike.** -/
theorem validate_agree : ∀ {type : Validator}, type.Uniform → ∀ {v w : Json}, v.Agree w →
    Outcome.Agree Json.Agree (type.validate v) (type.validate w)
  | root name label accepts, ha, v, w, h => accept_agree name label ha h
  | refine parent name label accepts, ⟨hparent, ha⟩, v, w, h => by
    rw [validate, validate]
    refine Outcome.Agree.chain ?_ fun _ _ hab => accept_agree name label ha hab
    have hvalidate := validate_agree hparent h
    generalize parent.validate v = o at hvalidate ⊢
    generalize parent.validate w = p at hvalidate ⊢
    cases hvalidate with
    | ok hab => exact .ok hab
    | error hef => exact .error (relabel_agree name label hef)

theorem holdsOfReal_eq {p : Finite → Bool} (hp : ∀ x y : Finite, x.toInt = y.toInt → p x = p y) (v w : Json)
    (h : v.Agree w) : holdsOfReal p v = holdsOfReal p w := by
  have hreal := h.asReal
  unfold holdsOfReal
  generalize v.asReal = a at hreal ⊢
  generalize w.asReal = b at hreal ⊢
  cases hreal with
  | some hxy => exact hp _ _ hxy
  | none => rfl

theorem uniform_real : real.Uniform := holdsOfReal_eq fun _ _ _ => rfl

theorem uniform_whole : whole.Uniform := by
  refine ⟨⟨uniform_real, holdsOfReal_eq ?_⟩, holdsOfReal_eq ?_⟩
  · intro x y hxy
    rw [Bool.eq_iff_iff, Binary64.isWhole_iff, Binary64.isWhole_iff, hxy]
  · intro x y hxy
    rw [hxy]

theorem uniform_boolean : boolean.Uniform := fun _ _ h => h.isBool_eq

theorem uniform_anything : anything.Uniform := fun _ _ _ => rfl

end Validator

/-- Whether an operation has one outcome for arguments that agree. -/
def Operation.Uniform (operation : Operation) : Prop :=
  ∀ as bs, List.Forall₂ Json.Agree as bs → Outcome.Agree Eq (operation.body as) (operation.body bs)

theorem Operation.uniform_of_shaped {operation : Operation} (hshaped : operation.Shaped)
    (h : ∀ as bs, as.length = operation.arity → List.Forall₂ Json.Agree as bs →
      Outcome.Agree Eq (operation.body as) (operation.body bs)) : operation.Uniform := by
  intro as bs hab
  by_cases hlen : as.length = operation.arity
  · exact h as bs hlen hab
  -- both fail, and all that the failure tells of the arguments is how many they are
  · rw [body_of_shaped hshaped hlen, body_of_shaped hshaped (hab.length_eq ▸ hlen), hab.length_eq]
    exact .refl_error _

namespace Operator

/-- Whether the types and the operation of an operator are uniform. -/
structure Uniform (o : Operator) : Prop where
  params : ∀ type ∈ o.params, type.Uniform
  operation : o.operation.Uniform

theorem sequence_validated_agree : ∀ {types : List Validator} {os ps : List (Outcome Json)},
    (∀ type ∈ types, type.Uniform) → List.Forall₂ (Outcome.Agree Json.Agree) os ps →
    Outcome.Agree (List.Forall₂ Json.Agree) (Outcome.sequence (validated types os))
      (Outcome.sequence (validated types ps))
  | [], _, _, _, _ => .ok .nil
  | _ :: _, [], _, _, .nil => .ok .nil
  | type :: types, o :: os, p :: ps, ht, .cons hop h => by
    rw [sequence_validated_cons, sequence_validated_cons]
    have hfirst := hop.chain fun _ _ hab => Validator.validate_agree (ht type List.mem_cons_self) hab
    have hrest := sequence_validated_agree (fun t h => ht t (List.mem_cons_of_mem _ h)) h
    exact hfirst.chain fun _ _ hab => hrest.chain fun _ _ habs => .ok (.cons hab habs)

/-- **A uniform operator has one result for operands that agree.** -/
theorem invoke_agree {o : Operator} (ho : o.Uniform) {os ps : List (Outcome Json)}
    (h : List.Forall₂ (Outcome.Agree Json.Agree) os ps) : Outcome.Agree Eq (o.invoke os) (o.invoke ps) := by
  rw [invoke, invoke, h.length_eq]
  split
  · exact (sequence_validated_agree ho.params h).chain ho.operation
  · exact .refl_error _

theorem boolean_agree (name : String) {v w : Json} (h : v.Agree w) :
    Outcome.Agree Eq (boolean name v) (boolean name w) := by
  cases h with
  | bool b => exact .ok rfl
  | null | number _ | string _ | array _ | object _ _ => exact .error (.operationFailed _ _ _)

theorem real_agree (name : String) {v w : Json} (h : v.Agree w) :
    Outcome.Agree (fun x y => x.toInt = y.toInt) (real name v) (real name w) := by
  cases h with
  | number h => exact .ok h
  | null | bool _ | string _ | array _ | object _ _ => exact .error (.operationFailed _ _ _)

theorem uniform_logical (name : String) (f : Bool → Bool → Bool) : (logical name f).Uniform := by
  refine Operation.uniform_of_shaped (.binary _) ?_
  intro as bs hlen hab
  obtain _ | ⟨ha, _ | ⟨hb, _ | _⟩⟩ := hab <;> cases hlen
  simp only [logical, Operation.binary, Outcome.bind_eq_chain]
  refine (boolean_agree name ha).chain ?_
  rintro p _ rfl
  refine (boolean_agree name hb).chain ?_
  rintro q _ rfl
  exact .ok rfl

theorem uniform_compare (name : String) {f : Finite → Finite → Bool}
    (hf : ∀ x x' y y' : Finite, x.toInt = x'.toInt → y.toInt = y'.toInt → f x y = f x' y') :
    (compare name f).Uniform := by
  refine Operation.uniform_of_shaped (.binary _) ?_
  intro as bs hlen hab
  obtain _ | ⟨ha, _ | ⟨hb, _ | _⟩⟩ := hab <;> cases hlen
  simp only [compare, Operation.binary, Outcome.bind_eq_chain]
  refine (real_agree name ha).chain fun x x' hx => ?_
  refine (real_agree name hb).chain fun y y' hy => ?_
  exact .ok (by rw [hf x x' y y' hx hy])

theorem uniform_range : range.Uniform := by
  refine Operation.uniform_of_shaped (.ternary _) ?_
  intro as bs hlen hab
  obtain _ | ⟨ha, _ | ⟨hb, _ | ⟨hc, _ | _⟩⟩⟩ := hab <;> cases hlen
  simp only [range, Operation.ternary, Outcome.bind_eq_chain]
  refine (real_agree _ ha).chain fun x x' hx => ?_
  refine (real_agree _ hb).chain fun y y' hy => ?_
  refine (real_agree _ hc).chain fun z z' hz => ?_
  exact .ok (by rw [Finite.le_eq hx hz, Finite.le_eq hz hy])

theorem collection_agree {v w : Json} (h : v.Agree w) :
    Outcome.Agree (List.Forall₂ Json.Agree) (collection v) (collection w) := by
  cases h with
  | array h => exact .ok h
  | object _ h => exact .ok h
  | null | bool _ | number _ | string _ => exact .error (.operationFailed _ _ _)

/-- **Running totals of one value stay so** while values that agree are added. -/
theorem addAll_agree {vs ws : List Json} (hvs : List.Forall₂ Json.Agree vs ws) : ∀ {t u : Binary64}, SameValue t u →
    Outcome.Agree SameValue (addAll t vs) (addAll u ws) := by
  induction hvs with
  | nil => exact fun h => .ok h
  | cons hv _ ih =>
    intro t u h
    rw [addAll, addAll]
    exact (real_agree "sum" hv).chain fun x y hxy => ih (h.add hxy)

theorem uniform_total : total.Uniform := by
  refine Operation.uniform_of_shaped (.unary _) ?_
  intro as bs hlen hab
  obtain _ | ⟨ha, _ | _⟩ := hab <;> cases hlen
  simp only [total, Operation.unary, Outcome.bind_eq_chain]
  refine (collection_agree ha).chain fun vs ws hvs => ?_
  refine (addAll_agree hvs (.refl _)).chain fun t u htu => ?_
  rw [Json.ofBinary64?_of_sameValue htu]
  split
  · exact .ok rfl
  · exact .refl_error _

end Operator

def OperatorTable.Uniform (t : OperatorTable) : Prop := ∀ name o, t.get? name = some o → o.Uniform

namespace Operator

theorem uniform_of_mem_standard {o : Operator} (ho : o ∈ standard) : o.Uniform := by
  rcases mem_standard_iff.1 ho with rfl | rfl | rfl | rfl | rfl | rfl | rfl | rfl
  · exact ⟨by simp [conjunction, Validator.uniform_boolean], uniform_logical _ _⟩
  · exact ⟨by simp [disjunction, Validator.uniform_boolean], uniform_logical _ _⟩
  · exact ⟨by simp [greater, Validator.uniform_real], uniform_compare _ fun _ _ _ _ hx hy => Finite.lt_eq hy hx⟩
  · exact ⟨by simp [less, Validator.uniform_real], uniform_compare _ fun _ _ _ _ hx hy => Finite.lt_eq hx hy⟩
  · exact ⟨by simp [atLeast, Validator.uniform_real], uniform_compare _ fun _ _ _ _ hx hy => Finite.le_eq hy hx⟩
  · exact ⟨by simp [atMost, Validator.uniform_real], uniform_compare _ fun _ _ _ _ hx hy => Finite.le_eq hx hy⟩
  · exact ⟨by simp [inRange, Validator.uniform_whole], uniform_range⟩
  · exact ⟨by simp [sum, Validator.uniform_anything], uniform_total⟩

end Operator

/-- **The standard operators do not look at how numbers are written.** -/
theorem OperatorTable.uniform_standard : standard.Uniform := fun _ _ ho =>
  Operator.uniform_of_mem_standard (mem_standard_of_get? ho).1

end Eligibility
