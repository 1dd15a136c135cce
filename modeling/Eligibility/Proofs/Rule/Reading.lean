import Eligibility.Rule.Basic
/-!
# How values are read as rules

An object is read as a mapping and a string never is.  `Json.call` and `Json.template` are the values that are read as
an operator applied to operands and as a path.
-/
namespace Eligibility

/-- The mapping of an operator to operands. -/
def Json.call (name : String) (operands : List Json) : Json := .object [(name, .array operands)]

/-- The mark of a path, and the path. -/
def Json.template (path : String) : Json := .string ("!" ++ path)

namespace Rule

theorem reference?_mark (path : String) : Rule.reference? ("!" ++ path) = some path := by
  have htext : ("!" ++ path).toList = Rule.mark :: path.toList := by
    rw [String.toList_append]
    rfl
  rw [reference?, htext]
  dsimp only
  rw [if_pos rfl, String.ofList_toList]

theorem ofJson_template (path : String) : ofJson (.template path) = reference path := by
  rw [Json.template, ofJson, ofString, reference?_mark]

theorem ofJsons_eq_map (vs : List Json) : ofJsons vs = vs.map ofJson := by
  induction vs with
  | nil => rw [ofJsons, List.map_nil]
  | cons v rest ih => rw [ofJsons, List.map_cons, ih]

theorem length_ofJsons (vs : List Json) : (Rule.ofJsons vs).length = vs.length := by
  rw [ofJsons_eq_map, List.length_map]

/-- **A mapping of an operator to operands is the operator applied to what they are read as.** -/
theorem ofJson_call (name : String) (operands : List Json) :
    ofJson (.call name operands) = call name (operands.map ofJson) := by
  rw [Json.call, ofJson, ofMembers, ofOperands, ofJsons_eq_map]

theorem isMapping_ofMembers (members : List (String × Json)) : (Rule.ofMembers members).isMapping = true := by
  cases members with
  | nil => rfl
  | cons m rest =>
    cases rest with
    | nil => cases hm : m.2 <;> rw [Rule.ofMembers, hm] <;> rfl
    | cons n rest => rfl

theorem isMapping_ofString (s : String) : (Rule.ofString s).isMapping = false := by
  rw [Rule.ofString]
  cases Rule.reference? s <;> rfl

/-- **A value is read as a mapping exactly if it is an object.** -/
theorem isMapping_ofJson (v : Json) : (ofJson v).isMapping = v.isObject := by
  cases v with
  | object members => exact isMapping_ofMembers members
  | string s => exact isMapping_ofString s
  | null | bool _ | number _ | array _ => rfl

end Rule
end Eligibility
