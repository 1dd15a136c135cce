import Eligibility.Proofs.Rule.Reading
/-!
# How deep a rule nests

`nesting` is the length of the longest chain of mappings of which each stands among the operands of the one before.
What a list that stands for itself holds has no part in it.  `induct` is the induction over a rule in which the
operands of a mapping come with what is known of each of them.
-/
namespace Eligibility
namespace Rule

mutual

/-- How many mappings stand in one another at most. -/
def nesting : Rule → Nat
  | call _ operands => nestingAll operands + 1
  | uncallable .. | malformed _ => 1
  | reference _ | null | literal _ => 0

/-- The greatest nesting of operands. -/
def nestingAll : List Rule → Nat
  | [] => 0
  | r :: rest => max (nesting r) (nestingAll rest)

end

/-- **The nesting of a value as a rule**, which counts itself whatever it is. -/
def nestingOf (rule : Json) : Nat := max 1 (ofJson rule).nesting

theorem nesting_le_nestingAll {r : Rule} : ∀ {rules : List Rule}, r ∈ rules → r.nesting ≤ nestingAll rules
  | first :: rest, h => by
    rw [nestingAll]
    rcases List.mem_cons.1 h with rfl | h
    · exact Nat.le_max_left _ _
    · exact Nat.le_trans (nesting_le_nestingAll h) (Nat.le_max_right _ _)

theorem nesting_of_mem (name : String) {operands : List Rule} {r : Rule} (h : r ∈ operands) :
    r.nesting + 1 ≤ (call name operands).nesting := by
  rw [nesting]
  exact Nat.succ_le_succ (nesting_le_nestingAll h)

/-- What is one level deeper has one level less to nest in. -/
theorem nesting_operand_le {name : String} {operands : List Json} {depth limit : Nat}
    (h : depth + (ofJson (.call name operands)).nesting ≤ limit) {v : Json} (hv : v ∈ operands) :
    depth + 1 + (ofJson v).nesting ≤ limit := by
  rw [ofJson_call] at h
  have hle := nesting_of_mem name (List.mem_map_of_mem hv : ofJson v ∈ operands.map ofJson)
  omega

/-- **Induction over a rule**, with what is known of each operand of a mapping. -/
@[elab_as_elim]
theorem induct {motive : Rule → Prop}
    (call : ∀ name operands, (∀ r ∈ operands, motive r) → motive (.call name operands))
    (uncallable : ∀ name operands, motive (.uncallable name operands))
    (malformed : ∀ members, motive (.malformed members)) (reference : ∀ path, motive (.reference path))
    (null : motive .null) (literal : ∀ v, motive (.literal v)) : ∀ r : Rule, motive r
  | .call name operands => call name operands fun r _ => induct call uncallable malformed reference null literal r
  | .uncallable name operands => uncallable name operands
  | .malformed members => malformed members
  | .reference path => reference path
  | .null => null
  | .literal v => literal v

end Rule
end Eligibility
