import Eligibility.Proofs.Operator.Arguments
import Mathlib.Data.List.Basic
/-!
# Levels of a type

A type and the types that it refines are its levels, each with a predicate of its own.  A value passes a type if it
passes every level, and otherwise the rejecting level nearest the root decides (`validate_eq`).  So the levels below one
that rejects may be anything (`validate_revise`).
-/
namespace Eligibility
namespace Validator

/-- Whether a level lets a value pass, whatever the levels above it say. -/
def admits : Validator → Json → Bool
  | root _ _ accepts => accepts
  | refine _ _ _ accepts => accepts

/-- The types that a type refines, from the root down. -/
def ancestors : Validator → List Validator
  | root .. => []
  | refine parent .. => parent.ancestors ++ [parent]

/-- The levels of a type, from the root down to the type itself. -/
def levels (type : Validator) : List Validator := type.ancestors ++ [type]

/-- The type with other predicates; what becomes of one may depend on how far from the root it stands. -/
def revise (f : Nat → (Json → Bool) → Json → Bool) : Validator → Validator
  | root name label accepts => root name label (f 1 accepts)
  | refine parent name label accepts => refine (parent.revise f) name label (f (parent.depth + 1) accepts)

theorem validate_refine_error {parent : Validator} {v : Json} {e : RuleError} (h : parent.validate v = .error e)
    (name label : String) (accepts : Json → Bool) :
    (parent.refine name label accepts).validate v = .error (relabel name label e) := by
  rw [validate, h]
  rfl

theorem accept_of_rejects {accepts : Json → Bool} {v : Json} (h : accepts v = false) (name label : String) :
    accept name label accepts v = .error (.typeMismatch name label v.display none) := by
  simp [accept, h]

/-- **The rejecting ancestor nearest the root decides**; if there is none, the predicate of the type itself does. -/
theorem validate_eq (v : Json) : ∀ type : Validator, type.validate v =
    match type.ancestors.find? fun a => !a.admits v with
    | some a => .error (.typeMismatch type.name type.label v.display (some a.label))
    | none => accept type.name type.label type.admits v
  | root .. => rfl
  | refine parent name label accepts => by
    have ih := validate_eq v parent
    rw [ancestors, List.find?_append]
    cases hfind : parent.ancestors.find? fun a => !a.admits v with
    | some a =>
      rw [hfind] at ih
      rw [validate_refine_error ih]
      rfl
    | none =>
      rw [hfind] at ih
      by_cases hparent : parent.admits v = true
      · have hself : [parent].find? (fun a => !a.admits v) = none := by simp [hparent]
        rw [hself, validate_refine (ih.trans (accept_of_accepts hparent _ _))]
        rfl
      · rw [Bool.not_eq_true] at hparent
        have hself : [parent].find? (fun a => !a.admits v) = some parent := by simp [hparent]
        rw [hself, validate_refine_error (ih.trans (accept_of_rejects hparent _ _))]
        rfl

theorem validate_eq_accept {type : Validator} {v : Json} (h : ∀ a ∈ type.ancestors, a.admits v = true) :
    type.validate v = accept type.name type.label type.admits v := by
  have hfind : (type.ancestors.find? fun a => !a.admits v) = none := by simpa using h
  rw [validate_eq, hfind]

theorem validate_of_rejects {type level : Validator} {above below : List Validator} {v : Json}
    (hsplit : type.ancestors = above ++ level :: below) (habove : ∀ a ∈ above, a.admits v = true)
    (hlevel : level.admits v = false) :
    type.validate v = .error (.typeMismatch type.name type.label v.display (some level.label)) := by
  have hfind : (type.ancestors.find? fun a => !a.admits v) = some level :=
    List.find?_eq_some_iff_append.2 ⟨by simp [hlevel], above, below, hsplit, by simpa using habove⟩
  rw [validate_eq, hfind]

/-- **A value passes a type if it passes every level.** -/
theorem accepts_iff {type : Validator} {v : Json} : type.Accepts v ↔ ∀ level ∈ type.levels, level.admits v = true := by
  rw [levels, List.forall_mem_append, List.forall_mem_singleton]
  constructor
  · intro h
    rw [Accepts, validate_eq] at h
    cases hfind : type.ancestors.find? fun a => !a.admits v with
    | some a =>
      rw [hfind] at h
      cases h
    | none =>
      rw [hfind] at h
      exact ⟨by simpa using hfind, accepts_of_accept_ok h⟩
  · rintro ⟨hancestors, htype⟩
    rw [Accepts, validate_eq_accept hancestors]
    exact accept_of_accepts htype _ _

theorem accepts_root {name label : String} {accepts : Json → Bool} {v : Json} :
    (root name label accepts).Accepts v ↔ accepts v = true := by
  rw [accepts_iff]
  simp [levels, ancestors, admits]

/-- **A refinement accepts what its parent accepts and its own predicate admits.** -/
theorem accepts_refine {parent : Validator} {name label : String} {accepts : Json → Bool} {v : Json} :
    (parent.refine name label accepts).Accepts v ↔ parent.Accepts v ∧ accepts v = true := by
  have hlevels : (parent.refine name label accepts).levels = parent.levels ++ [parent.refine name label accepts] := rfl
  rw [accepts_iff, accepts_iff, hlevels, List.forall_mem_append, List.forall_mem_singleton, admits]

theorem Accepts.parent {parent : Validator} {name label : String} {accepts : Json → Bool} {v : Json}
    (h : (parent.refine name label accepts).Accepts v) : parent.Accepts v := (accepts_refine.1 h).1

theorem exists_error_of_rejects {type level : Validator} {v : Json} (hmem : level ∈ type.levels)
    (hlevel : level.admits v = false) : ∃ e, type.validate v = .error e := by
  cases h : type.validate v with
  | error e => exact ⟨e, rfl⟩
  | ok w =>
    obtain rfl := type.eq_of_validate_ok v w h
    have hadmits := accepts_iff.1 h level hmem
    rw [hlevel] at hadmits
    cases hadmits

theorem revise_eq_self {f : Nat → (Json → Bool) → Json → Bool} : ∀ {type : Validator}, (∀ i ≤ type.depth, f i = id) →
    type.revise f = type
  | root .., h => by
    rw [revise, h 1 (Nat.le_refl 1)]
    rfl
  | refine parent .., h => by
    rw [revise, revise_eq_self fun i hi => h i (Nat.le_succ_of_le hi), h (parent.depth + 1) (Nat.le_refl _)]
    rfl

/-- **Below a level that rejects, predicates may be anything.** -/
theorem validate_revise {level : Validator} {v : Json} (hlevel : level.admits v = false)
    {f : Nat → (Json → Bool) → Json → Bool} (hf : ∀ i ≤ level.depth, f i = id) :
    ∀ {type : Validator}, level ∈ type.ancestors → (type.revise f).validate v = type.validate v
  | refine parent name label accepts, hmem => by
    obtain ⟨e, he⟩ : ∃ e, parent.validate v = .error e := exists_error_of_rejects hmem hlevel
    -- the parent is as it was if it is the level that rejects, and fails as it did if that level is above it
    have hrevised : (parent.revise f).validate v = parent.validate v := by
      rcases List.mem_append.1 hmem with habove | hself
      · exact validate_revise hlevel hf habove
      · obtain rfl := List.mem_singleton.1 hself
        rw [revise_eq_self hf]
    rw [revise, validate_refine_error he, validate_refine_error (hrevised.trans he)]

/-- **The verdict of a type on a value.**  The value is given back if every level admits it.  Otherwise the failure names
the type asked for, and beside it the rejecting ancestor nearest the root, if an ancestor rejects the value; what the
levels below that one say makes no difference.  So a refinement accepts no more than its parent. -/
theorem verdict_of_levels (type : Validator) (v : Json) :
    (type.validate v = .ok v ↔ ∀ level ∈ type.levels, level.admits v = true) ∧
      ((∀ a ∈ type.ancestors, a.admits v = true) → type.admits v = false →
        type.validate v = .error (.typeMismatch type.name type.label v.display none)) ∧
      (∀ above level below, type.ancestors = above ++ level :: below → (∀ a ∈ above, a.admits v = true) →
        level.admits v = false →
        type.validate v = .error (.typeMismatch type.name type.label v.display (some level.label))) ∧
      (∀ level ∈ type.ancestors, level.admits v = false → ∀ f : Nat → (Json → Bool) → Json → Bool,
        (∀ i ≤ level.depth, f i = id) → (type.revise f).validate v = type.validate v) ∧
      ∀ name label accepts, (type.refine name label accepts).Accepts v → type.Accepts v := by
  refine ⟨accepts_iff, ?_, ?_, ?_, ?_⟩
  · intro hancestors htype
    rw [validate_eq_accept hancestors]
    exact accept_of_rejects htype _ _
  · intro above level below hsplit habove hlevel
    exact validate_of_rejects hsplit habove hlevel
  · intro level hmem hlevel f hf
    exact validate_revise hlevel hf hmem
  · intro name label accepts h
    exact h.parent

/-- The second of four levels rejects a list, and so would the third and the last, which asks for a boolean; the failure
is the same if these two accept all. -/
theorem verdict_of_levels_of_list :
    let anything : Validator := .any "Any"
    let scalar := anything.refine "Scalar" "Scalar" fun v => !v.isArray
    let never := scalar.refine "Never" "Nothing" fun _ => false
    let flag := never.refine "Flag" "Truth Value" Json.isBool
    let lenient : Nat → (Json → Bool) → Json → Bool := fun i accepts => if i ≤ 2 then accepts else fun _ => true
    let failure : RuleError := .typeMismatch "Flag" "Truth Value" "[]" (some "Scalar")
    flag.validate (.array []) = .error failure ∧ (flag.revise lenient).validate (.array []) = .error failure ∧
      flag.validate (.bool true) = .error (.typeMismatch "Flag" "Truth Value" "true" (some "Nothing")) ∧
      scalar.validate (.array []) = .error (.typeMismatch "Scalar" "Scalar" "[]" none) ∧
      scalar.validate (.bool true) = .ok (.bool true) ∧ anything.Accepts (.bool true) := by
  intro anything scalar never flag lenient failure
  have hlist := verdict_of_levels flag (.array [])
  have hsplit : flag.ancestors = [anything] ++ scalar :: [never] := rfl
  have hfails := hlist.2.2.1 [anything] scalar [never] hsplit (by simp [anything, any, admits]) rfl
  have hrevised := hlist.2.2.2.1 scalar (by simp [hsplit]) rfl lenient (by
    intro i hi
    have hdepth : i ≤ 2 := hi
    funext accepts
    exact if_pos hdepth)
  have hscalar : scalar.validate (.bool true) = .ok (.bool true) :=
    (verdict_of_levels scalar (.bool true)).1.2 (by
      simp [levels, scalar, anything, ancestors, any, admits, Json.isArray])
  refine ⟨hfails, hrevised.trans hfails, ?_, ?_, hscalar, ?_⟩
  · exact (verdict_of_levels flag (.bool true)).2.2.1 [anything, scalar] never [] rfl
      (by simp [anything, scalar, any, admits, Json.isArray]) rfl
  · exact (verdict_of_levels scalar (.array [])).2.1 (by simp [scalar, anything, ancestors, any, admits]) rfl
  · exact (verdict_of_levels anything (.bool true)).2.2.2.2 "Scalar" "Scalar" (fun v => !v.isArray) hscalar

end Validator
end Eligibility
