import Eligibility.Proofs.Evaluation.Trace
import Eligibility.Proofs.Rule.Nesting
/-!
# What a run depends on

Of a table of operators a run reads those that the mappings of the rule name, and of a context what the operands of
the mappings that are reached refer to (`resolve_congr`).  All else may differ: a string in a list that stands for
itself is no reference, whatever it starts with.  A sink that wants operands sees all that is read, so that what it is
told is the same only if the references are (`notices_of_contexts`).
-/
namespace Eligibility
namespace Rule

/-- The operator that a mapping of one key names. -/
def key? : Rule → Option String
  | call name _ | uncallable name _ => some name
  | malformed _ | reference _ | null | literal _ => none

/-- Whether the references among the operands of a mapping lead to the same in two contexts. -/
def Node.SameReferences (c₁ c₂ : Json) (n : Node) : Prop :=
  ∀ path, .reference path ∈ n.rule.operands → Json.Path.resolve path c₁ = Json.Path.resolve path c₂

theorem mem_nodesAll {above rules : List Rule} {n : Node} :
    n ∈ nodesAll above rules ↔ ∃ r ∈ rules, n ∈ r.nodes above := by
  induction rules with
  | nil => simp [nodesAll]
  | cons r rest ih =>
    rw [nodesAll, List.mem_append, ih]
    simp only [List.mem_cons, exists_eq_or_imp]

theorem mem_nodes_operand {above : List Rule} {n : Node} {name : String} {operands : List Rule} {r : Rule}
    (hr : r ∈ operands) (hn : n ∈ r.nodes (call name operands :: above)) : n ∈ (call name operands).nodes above := by
  rw [nodes]
  exact List.mem_append_left _ (mem_nodesAll.2 ⟨r, hr, hn⟩)

theorem self_mem_nodes (above : List Rule) {r : Rule} (h : r.isMapping = true) : ⟨r, above⟩ ∈ r.nodes above := by
  obtain ⟨below, hb, -⟩ := nodes_of_isMapping above r h
  rw [hb]
  exact List.mem_append_right _ List.mem_cons_self

end Rule

namespace Evaluator

open Rule (Node passes)

/-- The evaluator with the operators of a table in place of its own. -/
def withOperators (t : OperatorTable) (e : Evaluator) : Evaluator := { e with operators := t }

theorem operatorAt_withOperators {e : Evaluator} {t : OperatorTable} {name : String}
    (h : t.get? name = e.operators.get? name) (depth : Nat) :
    (e.withOperators t).operatorAt depth name = e.operatorAt depth name := by
  unfold operatorAt withOperators
  rw [h]

/-- **A run depends on the operators that are named and on the references that are reached.** -/
theorem resolve_congr {e : Evaluator} {t : OperatorTable} {c₁ c₂ : Json} (r : Rule) : ∀ above : List Rule,
    passes e.operators e.maxDepth above = true →
    (∀ n ∈ r.nodes above, ∀ name, n.rule.key? = some name → t.get? name = e.operators.get? name) →
    (∀ n ∈ r.nodes above, n.reached e.operators e.maxDepth = true → n.SameReferences c₁ c₂) →
    (∀ path, r = .reference path → Json.Path.resolve path c₁ = Json.Path.resolve path c₂) →
    e.resolve c₁ above.length r = (e.withOperators t).resolve c₂ above.length r := by
  induction r using Rule.induct with
  | call name operands ih =>
    intro above hpasses hnames hreferences _
    have hself : ⟨.call name operands, above⟩ ∈ (Rule.call name operands).nodes above := Rule.self_mem_nodes above rfl
    have hop := operatorAt_withOperators (hnames _ hself name rfl) (above.length + 1)
    cases ho : e.operatorAt (above.length + 1) name with
    | error failure => rw [resolve_call_error ho, resolve_call_error (hop.trans ho)]
    | ok o =>
      -- the mapping is reached, so that the references among its operands are read
      have hreached : Node.reached e.operators e.maxDepth ⟨.call name operands, above⟩ = true :=
        (reached_call_iff hpasses name operands).2 ⟨o, ho⟩
      have hoperands : operands.map (e.resolve c₁ (above.length + 1)) =
          operands.map ((e.withOperators t).resolve c₂ (above.length + 1)) := by
        apply List.map_congr_left
        intro operand hoperand
        apply ih operand hoperand (.call name operands :: above) hreached
        · exact fun n hn => hnames n (Rule.mem_nodes_operand hoperand hn)
        · exact fun n hn => hreferences n (Rule.mem_nodes_operand hoperand hn)
        · rintro path rfl
          exact hreferences _ hself hreached path hoperand
      rw [resolve_call_ok ho, resolve_call_ok (hop.trans ho), hoperands]
      rfl
  | uncallable name operands =>
    intro above _ hnames _ _
    have hself : ⟨.uncallable name operands, above⟩ ∈ (Rule.uncallable name operands).nodes above :=
      Rule.self_mem_nodes above rfl
    rw [resolve, resolve, operatorAt_withOperators (hnames _ hself name rfl)]
  | malformed members =>
    intro above _ _ _ _
    rw [resolve, resolve]
    rfl
  | reference path =>
    intro above _ _ _ hpath
    rw [resolve, resolve, hpath path rfl]
  | null | literal v =>
    intro above _ _ _ _
    rw [resolve, resolve]

theorem run_congr {e : Evaluator} {t : OperatorTable} {c₁ c₂ : Json} {r : Rule}
    (hnames : ∀ n ∈ r.nodes [], ∀ name, n.rule.key? = some name → t.get? name = e.operators.get? name)
    (hreferences : ∀ n ∈ r.reached e.operators e.maxDepth, n.SameReferences c₁ c₂) :
    e.run c₁ r = (e.withOperators t).run c₂ r := by
  cases hm : r.isMapping with
  | true =>
    rw [run_of_isMapping e c₁ hm, run_of_isMapping _ c₂ hm]
    refine resolve_congr r [] rfl hnames (fun n hn h => hreferences n (List.mem_filter.2 ⟨hn, h⟩)) ?_
    rintro path rfl
    cases hm
  | false =>
    rw [run_of_not_isMapping e c₁ hm, run_of_not_isMapping _ c₂ hm]
    rfl

theorem notices_congr (e : Evaluator) (t : OperatorTable) (rule c₁ c₂ : Json)
    (hnames : ∀ n ∈ (Rule.ofJson rule).nodes [], ∀ name, n.rule.key? = some name →
      t.get? name = e.operators.get? name)
    (hreferences : ∀ n ∈ (Rule.ofJson rule).reached e.operators e.maxDepth, n.SameReferences c₁ c₂) :
    e.evaluate rule c₁ = (e.withOperators t).evaluate rule c₂ ∧
      e.notices rule c₁ = (e.withOperators t).notices rule c₂ := by
  unfold evaluate notices
  rw [run_congr hnames hreferences]
  exact ⟨rfl, rfl⟩

theorem sameReferences_of_recordAt {e : Evaluator} (h : e.sinks.any Sink.wantsOperands = true) {c₁ c₂ : Json}
    {n : Node} (hn : e.recordAt c₁ n = e.recordAt c₂ n) : n.SameReferences c₁ c₂ := by
  intro path hpath
  -- the record shows what each operand was resolved to, the references among them too
  have hoperands := congrArg AuditRecord.operands hn
  rw [recordAt, recordAt, h, if_pos rfl, if_pos rfl] at hoperands
  have hresolve := List.map_inj_left.1 hoperands _ hpath
  rw [resolve, resolve] at hresolve
  exact hresolve

theorem sameReferences_of_notices {e : Evaluator} (h : e.sinks.any Sink.wantsOperands = true) {rule c₁ c₂ : Json}
    (hnotices : e.notices rule c₁ = e.notices rule c₂) :
    ∀ n ∈ (Rule.ofJson rule).reached e.operators e.maxDepth, n.SameReferences c₁ c₂ := by
  intro n hn
  have hsinks : e.sinks ≠ [] := by
    intro hnil
    rw [hnil] at h
    cases h
  have hempty : e.sinks.isEmpty = false := List.isEmpty_eq_false_iff.2 hsinks
  rw [notices, notices, records_run_of_sinks hsinks, records_run_of_sinks hsinks, hempty] at hnotices
  have hrecords := (List.append_inj' hnotices rfl).1
  rw [List.map_map, List.map_map] at hrecords
  exact sameReferences_of_recordAt h (Notice.record.inj (List.map_inj_left.1 hrecords n hn))

/-- **What an evaluation comes to, and what sinks are told of it, depends on a context through the references of the
rule only.**  It is the same in two contexts in which all references that stand as operands lead to the same.  Where a
sink wants operands, those that are reached also have to. -/
theorem notices_of_contexts (e : Evaluator) (rule c₁ c₂ : Json) :
    ((∀ n ∈ (Rule.ofJson rule).nodes [], n.SameReferences c₁ c₂) →
        e.evaluate rule c₁ = e.evaluate rule c₂ ∧ e.notices rule c₁ = e.notices rule c₂) ∧
      (e.sinks.any Sink.wantsOperands = true →
        (e.notices rule c₁ = e.notices rule c₂ ↔
          ∀ n ∈ (Rule.ofJson rule).reached e.operators e.maxDepth, n.SameReferences c₁ c₂)) := by
  have hcongr := notices_congr e e.operators rule c₁ c₂ fun _ _ _ _ => rfl
  refine ⟨?_, ?_⟩
  · intro h
    exact hcongr fun n hn => h n (List.mem_filter.1 hn).1
  · intro hwants
    exact ⟨sameReferences_of_notices hwants, fun h => (hcongr h).2⟩

/-- Two contexts that have only the age in common are told apart neither by what else they hold nor by the marked string
in the list, which is no reference; a third has another age, and is. -/
theorem notices_of_contexts_of_list :
    let e : Evaluator := ⟨.standard, 2, [⟨1, true⟩]⟩
    let list : Json := .array [.string "!city"]
    let rule : Json := .object [("gt", .array [.string "!age", .object [("sum", .array [list])]])]
    let c₁ : Json := .object [("age", .bool true), ("city", .bool true)]
    let c₂ : Json := .object [("age", .bool true), ("city", .null), ("name", list)]
    let c₃ : Json := .object [("age", .bool false), ("city", .bool true)]
    e.evaluate rule c₁ = e.evaluate rule c₂ ∧ e.notices rule c₁ = e.notices rule c₂ ∧
      e.notices rule c₁ ≠ e.notices rule c₃ := by
  intro e list rule c₁ c₂ c₃
  let sum : Rule := .call "sum" [.literal list]
  let gt : Rule := .call "gt" [.reference "age", sum]
  have hsame : ∀ n ∈ (Rule.ofJson rule).nodes [], n.SameReferences c₁ c₂ := by
    have hnodes : (Rule.ofJson rule).nodes [] = [⟨sum, [gt]⟩, ⟨gt, []⟩] := rfl
    intro n hn path hpath
    rw [hnodes, List.mem_cons, List.mem_singleton] at hn
    rcases hn with rfl | rfl
    · simp [sum, Rule.operands] at hpath
    · obtain rfl : path = "age" := by simpa [gt, sum, Rule.operands] using hpath
      rfl
  have hother : e.notices rule c₁ ≠ e.notices rule c₃ := by
    intro hnotices
    have hreached : ⟨gt, []⟩ ∈ (Rule.ofJson rule).reached e.operators e.maxDepth :=
      List.mem_cons_of_mem (⟨sum, [gt]⟩ : Node) List.mem_cons_self
    have hage := ((notices_of_contexts e rule c₁ c₃).2 rfl).1 hnotices _ hreached "age" List.mem_cons_self
    cases hage
  obtain ⟨houtcome, hnotices⟩ := (notices_of_contexts e rule c₁ c₂).1 hsame
  exact ⟨houtcome, hnotices, hother⟩

end Evaluator
end Eligibility
