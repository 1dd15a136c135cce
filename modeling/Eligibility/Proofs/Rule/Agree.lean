import Eligibility.Proofs.Json.Agree
import Eligibility.Proofs.Rule.Reading
/-!
# Rules that agree

Rules agree if they differ in how their numbers are written only.  Values that agree are read as such rules
(`agree_ofJson`): neither operators nor paths have to do with numbers.
-/
namespace Eligibility
namespace Rule

/-- **Rules that are equal up to how numbers are written.** -/
inductive Agree : Rule → Rule → Prop
  | call (name : String) {rs ss : List Rule} (h : List.Forall₂ Agree rs ss) : Agree (.call name rs) (.call name ss)
  | uncallable (name : String) {v w : Json} (h : v.Agree w) : Agree (.uncallable name v) (.uncallable name w)
  | malformed {ms ns : Table Json} (hkeys : ms.keys = ns.keys) : Agree (.malformed ms) (.malformed ns)
  | reference (path : String) : Agree (.reference path) (.reference path)
  | null : Agree .null .null
  | literal {v w : Json} (h : v.Agree w) : Agree (.literal v) (.literal w)

theorem Agree.isMapping_eq {r s : Rule} (h : r.Agree s) : r.isMapping = s.isMapping := by cases h <;> rfl

theorem agree_ofString (s : String) : (ofString s).Agree (ofString s) := by
  unfold ofString
  cases reference? s with
  | none => exact .literal (.string s)
  | some path => exact .reference path

mutual

/-- **Values that agree are read as rules that agree.** -/
theorem agree_ofJson : (v : Json) → {w : Json} → v.Agree w → (ofJson v).Agree (ofJson w)
  | .object members, _, .object hkeys h => by
    rw [ofJson, ofJson]
    exact agree_ofMembers members hkeys h
  | .array _, _, .array h => by
    rw [ofJson, ofJson]
    exact .literal (.array h)
  | .number _, _, .number h => by
    rw [ofJson, ofJson]
    exact .literal (.number h)
  | .string s, _, .string _ => by
    rw [ofJson]
    exact agree_ofString s
  | .null, _, .null => .null
  | .bool b, _, .bool _ => .literal (.bool b)

theorem agree_ofMembers : (ms : Table Json) → {ns : Table Json} → ms.keys = ns.keys →
    List.Forall₂ Json.Agree ms.values ns.values → (ofMembers ms).Agree (ofMembers ns)
  | [], [], _, _ => by
    rw [ofMembers]
    exact .malformed rfl
  | [(name, operands)], [(other, operands')], hkeys, h => by
    obtain rfl : name = other := List.head_eq_of_cons_eq hkeys
    obtain _ | ⟨hoperands, -⟩ := h
    rw [ofMembers, ofMembers]
    exact agree_ofOperands name operands hoperands
  | m :: n :: rest, m' :: n' :: rest', hkeys, _ => by
    rw [ofMembers, ofMembers]
    exact .malformed hkeys
  | [], _ :: _, hkeys, _ | _ :: _, [], hkeys, _ | [_], _ :: _ :: _, hkeys, _ | _ :: _ :: _, [_], hkeys, _ =>
    absurd (congrArg List.length hkeys) (by simp [Table.keys])

theorem agree_ofOperands (name : String) : (v : Json) → {w : Json} → v.Agree w →
    (ofOperands name v).Agree (ofOperands name w)
  | .array operands, _, .array h => by
    rw [ofOperands, ofOperands]
    exact .call name (agree_ofJsons operands h)
  | .object _, _, .object hkeys h => by
    rw [ofOperands, ofOperands]
    exact .uncallable name (.object hkeys h)
  | .number _, _, .number h => by
    rw [ofOperands, ofOperands]
    exact .uncallable name (.number h)
  | .string s, _, .string _ => .uncallable name (.string s)
  | .null, _, .null => .uncallable name .null
  | .bool b, _, .bool _ => .uncallable name (.bool b)

theorem agree_ofJsons : (vs : List Json) → {ws : List Json} → List.Forall₂ Json.Agree vs ws →
    List.Forall₂ Agree (ofJsons vs) (ofJsons ws)
  | [], [], .nil => .nil
  | v :: rest, w :: rest', .cons hv h => by
    rw [ofJsons, ofJsons]
    exact .cons (agree_ofJson v hv) (agree_ofJsons rest h)

end

end Rule
end Eligibility
