import Eligibility.Operator.Table
import Eligibility.Proofs.Rule.Reading
/-!
# The mappings of a rule

`nodes` lists the mappings of a rule that stand as operands, or as the rule itself: those among the operands of a
mapping from left to right, and then the mapping.  Each comes with the mappings that it stands in, so that its depth
can be read off.  `reached` keeps those that are known operators with lists of operands within a limit of depth, and
stand in such only.
-/
namespace Eligibility
namespace Rule

/-- A mapping of a rule, and the mappings that it stands in, from the nearest one to the rule itself. -/
structure Node where
  rule : Rule
  above : List Rule

/-- The operator that a mapping names. -/
def operator : Rule → String
  | call name _ | uncallable name _ => name
  | _ => ""

/-- The operands of a mapping. -/
def operands : Rule → List Rule
  | call _ operands => operands
  | _ => []

namespace Node

/-- The rule itself has depth one, an operand of a mapping is one deeper than the mapping. -/
def depth (n : Node) : Nat := n.above.length + 1

/-- Where an operator stands. -/
def place (n : Node) : String × Nat := (n.rule.operator, n.depth)

end Node

/-- Whether a rule is a mapping of one known operator to a list. -/
def callable (t : OperatorTable) : Rule → Bool
  | call name _ => (t.get? name).isSome
  | _ => false

/-- Whether every mapping of a chain, each standing in the next, is callable and within the limit of depth. -/
def passes (t : OperatorTable) (maxDepth : Nat) : List Rule → Bool
  | [] => true
  | r :: above => decide (above.length + 1 ≤ maxDepth) && r.callable t && passes t maxDepth above

mutual

/-- **The mappings of a rule**, each after those among its operands. -/
def nodes (above : List Rule) : Rule → List Node
  | call name operands => nodesAll (call name operands :: above) operands ++ [⟨call name operands, above⟩]
  | uncallable name operands => [⟨uncallable name operands, above⟩]
  | malformed members => [⟨malformed members, above⟩]
  | reference _ | null | literal _ => []

/-- The mappings of operands, from left to right. -/
def nodesAll (above : List Rule) : List Rule → List Node
  | [] => []
  | r :: rest => nodes above r ++ nodesAll above rest

end

/-- Whether a mapping and all that it stands in pass. -/
def Node.reached (t : OperatorTable) (maxDepth : Nat) (n : Node) : Bool := passes t maxDepth (n.rule :: n.above)

/-- **The mappings of a rule whose operators are applied.** -/
def reached (t : OperatorTable) (maxDepth : Nat) (r : Rule) : List Node :=
  (r.nodes []).filter (Node.reached t maxDepth)

theorem passes_of_append (t : OperatorTable) (maxDepth : Nat) (above : List Rule) : ∀ between : List Rule,
    passes t maxDepth (between ++ above) = true → passes t maxDepth above = true
  | [], h => h
  | r :: between, h => by
    rw [List.cons_append, passes, Bool.and_eq_true] at h
    exact passes_of_append t maxDepth above between h.2

mutual

theorem above_of_mem_nodes (above : List Rule) : (r : Rule) → ∀ n ∈ r.nodes above,
    ∃ between, n.above = between ++ above
  | call name operands, n, hn => by
    rw [nodes, List.mem_append] at hn
    rcases hn with hn | hn
    · obtain ⟨between, hb⟩ := above_of_mem_nodesAll (call name operands :: above) operands n hn
      exact ⟨between ++ [call name operands], by rw [hb, List.append_assoc]; rfl⟩
    · rw [List.mem_singleton.1 hn]
      exact ⟨[], rfl⟩
  | uncallable _ _, n, hn | malformed _, n, hn => by
    rw [nodes] at hn
    rw [List.mem_singleton.1 hn]
    exact ⟨[], rfl⟩
  | reference _, _, hn | null, _, hn | literal _, _, hn => by
    rw [nodes] at hn
    cases hn

theorem above_of_mem_nodesAll (above : List Rule) : (rules : List Rule) → ∀ n ∈ nodesAll above rules,
    ∃ between, n.above = between ++ above
  | [], _, hn => by
    rw [nodesAll] at hn
    cases hn
  | r :: rest, n, hn => by
    rw [nodesAll, List.mem_append] at hn
    rcases hn with hn | hn
    · exact above_of_mem_nodes above r n hn
    · exact above_of_mem_nodesAll above rest n hn

end

/-- **Nothing is reached below a mapping that does not pass.** -/
theorem filter_nodesAll_of_not_passes {t : OperatorTable} {maxDepth : Nat} {above : List Rule}
    (h : passes t maxDepth above = false) (rules : List Rule) :
    (nodesAll above rules).filter (Node.reached t maxDepth) = [] := by
  rw [List.filter_eq_nil_iff]
  intro n hn hreached
  obtain ⟨between, hb⟩ := above_of_mem_nodesAll above rules n hn
  rw [Node.reached, hb, ← List.cons_append] at hreached
  rw [passes_of_append t maxDepth above _ hreached] at h
  cases h

theorem not_reached_of_not_callable {t : OperatorTable} {maxDepth : Nat} {n : Node}
    (h : n.rule.callable t = false) : ¬ n.reached t maxDepth = true := by
  rw [Node.reached, passes, h, Bool.and_false, Bool.false_and]
  exact Bool.false_ne_true

theorem depth_le_of_reached {t : OperatorTable} {maxDepth : Nat} {n : Node} (h : n.reached t maxDepth = true) :
    n.depth ≤ maxDepth := by
  rw [Node.reached, passes, Bool.and_eq_true, Bool.and_eq_true, decide_eq_true_eq] at h
  exact h.1.1

/-- **A mapping comes after all the mappings below it.** -/
theorem nodes_of_isMapping (above : List Rule) : ∀ r : Rule, r.isMapping = true →
    ∃ below, r.nodes above = below ++ [⟨r, above⟩] ∧ ∀ n ∈ below, above.length + 1 < n.depth
  | call name operands, _ => by
    refine ⟨nodesAll (call name operands :: above) operands, by rw [nodes], ?_⟩
    intro n hn
    obtain ⟨between, hb⟩ := above_of_mem_nodesAll (call name operands :: above) operands n hn
    rw [Node.depth, hb, List.length_append, List.length_cons]
    omega
  | uncallable _ _, _ | malformed _, _ => by
    refine ⟨[], by rw [nodes]; rfl, ?_⟩
    intro n hn
    cases hn

theorem nodes_of_not_isMapping (above : List Rule) : ∀ r : Rule, r.isMapping = false → r.nodes above = []
  | reference _, _ | null, _ | literal _, _ => by rw [nodes]

/-- **Only the rule itself is reached at depth one, and it is reached last.** -/
theorem reached_split {t : OperatorTable} {maxDepth : Nat} {r : Rule} {before after : List Node} {n : Node}
    (h : r.reached t maxDepth = before ++ n :: after) (hn : n.depth = 1) :
    after = [] ∧ n = ⟨r, []⟩ ∧ r.isMapping = true := by
  have hmem : n ∈ r.reached t maxDepth := by
    rw [h]
    exact List.mem_append_right _ List.mem_cons_self
  cases hm : r.isMapping with
  | false =>
    rw [reached, nodes_of_not_isMapping [] r hm] at hmem
    cases hmem
  | true =>
    obtain ⟨below, hb, hdeep⟩ := nodes_of_isMapping [] r hm
    have hnot : n ∉ below.filter (Node.reached t maxDepth) := by
      intro hin
      have := hdeep n (List.mem_filter.1 hin).1
      rw [List.length_nil] at this
      omega
    rw [reached, hb, List.filter_append] at h hmem
    have hroot : n = ⟨r, []⟩ ∧ Node.reached t maxDepth ⟨r, []⟩ = true := by
      rcases List.mem_append.1 hmem with hin | hin
      · exact absurd hin hnot
      · obtain ⟨hin, hreached⟩ := List.mem_filter.1 hin
        obtain rfl := List.mem_singleton.1 hin
        exact ⟨rfl, hreached⟩
    rw [List.filter_cons_of_pos hroot.2, List.filter_nil] at h
    refine ⟨?_, hroot.1, rfl⟩
    rcases List.eq_nil_or_concat after with rfl | ⟨init, last, rfl⟩
    · rfl
    · -- an entry after this one would put it among the mappings below the rule
      rw [List.concat_eq_append, ← List.cons_append, ← List.append_assoc] at h
      have hin : below.filter (Node.reached t maxDepth) = before ++ n :: init := (List.append_inj' h rfl).1
      exact absurd (by rw [hin]; exact List.mem_append_right _ List.mem_cons_self) hnot

end Rule
end Eligibility
