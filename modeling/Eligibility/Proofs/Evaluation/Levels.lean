import Eligibility.Proofs.Evaluation.Sinks
/-!
# The same mapping some levels deeper

A mapping that stands some levels deeper, under a limit that is larger by as many, runs as it did: records are as much
deeper, and what failed of the limit fails of the larger one (`resolve_deeper`).  So a mapping as an operand runs as it
does as a rule, one level deeper (`operandNotices_eq_deeper`).
-/
namespace Eligibility

/-- The failure of a limit as that of another one. -/
def RuleError.withLimit (limit : Nat) : RuleError → RuleError
  | .depthExceeded _ => .depthExceeded limit
  | e => e

namespace Outcome

variable {α β : Type}

def withLimit (limit : Nat) (o : Outcome α) : Outcome α := o.mapError (RuleError.withLimit limit)

theorem withLimit_of_ne {limit : Nat} {o : Outcome α} (h : ∀ l, o ≠ .error (.depthExceeded l)) :
    o.withLimit limit = o := by
  cases o with
  | ok a => rfl
  | error e =>
    cases e with
    | depthExceeded l => exact absurd rfl (h l)
    | _ => rfl

theorem withLimit_chain (limit : Nat) (o : Outcome α) (f : α → Outcome β) :
    (o.chain f).withLimit limit = (o.withLimit limit).chain fun a => (f a).withLimit limit := by
  cases o <;> rfl

end Outcome

/-- A record some levels deeper, under a limit. -/
def AuditRecord.deeper (levels limit : Nat) (r : AuditRecord) : AuditRecord where
  operator := r.operator
  operands := r.operands.map (Outcome.withLimit limit)
  result := r.result.withLimit limit
  depth := r.depth + levels

def Run.deeper (levels limit : Nat) (r : Run) : Run where
  outcome := r.outcome.withLimit limit
  records := r.records.map (AuditRecord.deeper levels limit)

def Notice.deeper (levels limit : Nat) : Notice → Notice
  | .record r => .record (r.deeper levels limit)
  | .evaluated outcome => .evaluated (outcome.withLimit limit)

theorem Detail.depth_of_mem_record {detail : Detail} {name : String} {arguments : List (Outcome Json)}
    {result : Outcome Json} {depth : Nat} {r : AuditRecord} (h : r ∈ detail.record name arguments result depth) :
    r.depth = depth := by
  cases detail with
  | nothing => cases h
  | results | operands => rw [List.mem_singleton.1 h]

theorem Detail.record_deeper (levels limit : Nat) (detail : Detail) (name : String) (arguments : List (Outcome Json))
    (result : Outcome Json) (depth : Nat) :
    detail.record name (arguments.map (Outcome.withLimit limit)) (result.withLimit limit) (depth + levels) =
      (detail.record name arguments result depth).map (AuditRecord.deeper levels limit) := by
  cases detail <;> rfl

namespace Operator

theorem validate_withLimit (type : Validator) (limit : Nat) (v : Json) :
    (type.validate v).withLimit limit = type.validate v := by
  apply Outcome.withLimit_of_ne
  intro l h
  obtain ⟨failed, hfailed⟩ := Validator.error_of_validate h
  cases hfailed

theorem sequence_validated_withLimit (limit : Nat) : ∀ (types : List Validator) (os : List (Outcome Json)),
    Outcome.sequence (validated types (os.map (Outcome.withLimit limit))) =
      (Outcome.sequence (validated types os)).withLimit limit
  | [], _ | _ :: _, [] => rfl
  | type :: types, o :: os => by
    have ih := sequence_validated_withLimit limit types os
    rw [List.map_cons, sequence_validated_cons, sequence_validated_cons, ih, Outcome.withLimit_chain,
      Outcome.withLimit_chain]
    simp only [validate_withLimit, Outcome.withLimit_chain]
    rfl

/-- **An operator passes the failure of a limit on**, whichever it is, if its operation does not speak of depth. -/
theorem invoke_withLimit {o : Operator} (hbody : ∀ args l, o.operation.body args ≠ .error (.depthExceeded l))
    (limit : Nat) (operands : List (Outcome Json)) :
    o.invoke (operands.map (Outcome.withLimit limit)) = (o.invoke operands).withLimit limit := by
  rw [invoke, invoke, List.length_map]
  split
  · have hargs : ∀ args, (o.operation.body args).withLimit limit = o.operation.body args :=
      fun args => Outcome.withLimit_of_ne (hbody args)
    simp only [sequence_validated_withLimit, Outcome.withLimit_chain, hargs]
  · rfl

end Operator

namespace Evaluator

variable {e : Evaluator}

/-- The evaluator with a limit that is larger by some levels. -/
def deeper (levels : Nat) (e : Evaluator) : Evaluator := { e with maxDepth := e.maxDepth + levels }

theorem operatorAt_deeper (levels depth : Nat) (name : String) :
    (e.deeper levels).operatorAt (depth + levels) name =
      (e.operatorAt depth name).withLimit (e.maxDepth + levels) := by
  by_cases hd : e.maxDepth < depth
  · have hd' : (e.deeper levels).maxDepth < depth + levels := Nat.add_lt_add_right hd levels
    rw [operatorAt_of_lt hd, operatorAt_of_lt hd']
    rfl
  · have hd' : ¬ (e.deeper levels).maxDepth < depth + levels := fun h => hd (Nat.lt_of_add_lt_add_right h)
    cases ho : e.operators.get? name with
    | none =>
      rw [operatorAt_of_unknown hd ho, operatorAt_of_unknown (e := e.deeper levels) hd' ho]
      rfl
    | some o =>
      rw [operatorAt_of_get? hd ho, operatorAt_of_get? (e := e.deeper levels) hd' ho]
      rfl

theorem failAt_deeper (levels depth : Nat) {failure : RuleError} (hf : failure.kind ≠ .depthExceeded) :
    (e.deeper levels).failAt (depth + levels) failure =
      (e.failAt depth failure).deeper levels (e.maxDepth + levels) := by
  unfold failAt
  by_cases hd : e.maxDepth < depth
  · have hd' : (e.deeper levels).maxDepth < depth + levels := Nat.add_lt_add_right hd levels
    rw [if_pos hd, if_pos hd']
    rfl
  · have hd' : ¬ (e.deeper levels).maxDepth < depth + levels := fun h => hd (Nat.lt_of_add_lt_add_right h)
    rw [if_neg hd, if_neg hd']
    cases failure with
    | depthExceeded l => exact absurd rfl hf
    | _ => rfl

theorem apply_deeper {o : Operator} (hbody : ∀ args l, o.operation.body args ≠ .error (.depthExceeded l))
    (levels limit depth : Nat) (name : String) (operands : List Run) :
    (e.deeper levels).apply (depth + levels) o name (operands.map (Run.deeper levels limit)) =
      (e.apply depth o name operands).deeper levels limit := by
  have houtcomes : (operands.map (Run.deeper levels limit)).map Run.outcome =
      (operands.map Run.outcome).map (Outcome.withLimit limit) := by
    rw [List.map_map, List.map_map]
    rfl
  have hrecords : (operands.map (Run.deeper levels limit)).flatMap Run.records =
      (operands.flatMap Run.records).map (AuditRecord.deeper levels limit) := by
    rw [List.flatMap_map, List.map_flatMap]
    rfl
  unfold apply Run.deeper
  dsimp only
  rw [List.map_append, ← Detail.record_deeper, ← Operator.invoke_withLimit hbody, ← houtcomes, ← hrecords]
  rfl

/-- **Deeper by some levels, and with a limit larger by as many, a rule runs as it did.** -/
theorem resolve_deeper (ht : e.operators.Shallow) (levels : Nat) (context : Json) (r : Rule) : ∀ depth,
    (e.deeper levels).resolve context (depth + levels) r =
      (e.resolve context depth r).deeper levels (e.maxDepth + levels) := by
  induction r using Rule.induct with
  | call name operands ih =>
    intro depth
    have hop := operatorAt_deeper (e := e) levels (depth + 1) name
    rw [Nat.add_right_comm] at hop
    cases ho : e.operatorAt (depth + 1) name with
    | error failure =>
      rw [ho] at hop
      rw [resolve_call_error ho, resolve_call_error hop]
      rfl
    | ok o =>
      rw [ho] at hop
      have hoperands : operands.map ((e.deeper levels).resolve context (depth + levels + 1)) =
          (operands.map (e.resolve context (depth + 1))).map (Run.deeper levels (e.maxDepth + levels)) := by
        rw [List.map_map]
        apply List.map_congr_left
        intro operand hoperand
        have h := ih operand hoperand (depth + 1)
        rwa [Nat.add_right_comm] at h
      have hget := (operatorAt_eq_ok_iff.1 ho).2
      rw [resolve_call_ok ho, resolve_call_ok hop, hoperands, Nat.add_right_comm]
      exact apply_deeper (ht name o hget) levels _ (depth + 1) name _
  | uncallable name operands =>
    intro depth
    have hop := operatorAt_deeper (e := e) levels (depth + 1) name
    rw [Nat.add_right_comm] at hop
    rw [resolve, resolve, hop]
    cases e.operatorAt (depth + 1) name with
    | error failure => rfl
    | ok o =>
      dsimp only [Outcome.withLimit, Except.mapError]
      rw [operandsError]
      split <;> rfl
  | malformed members =>
    intro depth
    rw [resolve, resolve, Nat.add_right_comm]
    apply failAt_deeper
    unfold malformedError
    split <;> exact RuleError.Kind.noConfusion
  | reference path =>
    intro depth
    rw [resolve, resolve, Json.Path.resolve]
    split <;> rfl
  | null | literal v =>
    intro depth
    rw [resolve, resolve]
    rfl

theorem depth_pos_of_mem_records {context : Json} {rule : Rule} {r : AuditRecord}
    (h : r ∈ (e.run context rule).records) : 0 < r.depth := by
  rw [records_run] at h
  obtain ⟨n, -, hr⟩ := List.mem_flatMap.1 h
  rw [Detail.depth_of_mem_record hr]
  exact Nat.succ_pos _

/-- **To resolve a mapping as an operand is to evaluate it, one level deeper.**  With a limit larger by one it comes to
the same, and the same records are kept one level deeper, so that none is of the outermost operator; what fails of the
larger limit fails of the smaller one otherwise.  Only records are told, and no outcome. -/
theorem operandNotices_eq_deeper {t : OperatorTable} (ht : t.Shallow) (m : Nat) (sinks : List Sink) {node : Json}
    (hnode : node.isObject = true) (context : Json) :
    let e : Evaluator := ⟨t, m, sinks⟩
    let d : Evaluator := ⟨t, m + 1, sinks⟩
    d.resolveOperand node context = (e.evaluate node context).withLimit (m + 1) ∧
      (∀ limit, e.evaluate node context = .error (.depthExceeded limit) → limit = m) ∧
      d.operandNotices node context =
        ((e.notices node context).filterMap Notice.record?).map (fun r => .record (r.deeper 1 (m + 1))) ∧
      (e.notices node context).map (Notice.deeper 0 m) = e.notices node context ∧
      ∀ n ∈ d.operandNotices node context, ∃ r, n = .record r ∧ r.isRoot = false := by
  intro e d
  have hm : (Rule.ofJson node).isMapping = true := by rw [Rule.isMapping_ofJson, hnode]
  have hrun : d.runOperand node context = (e.run context (.ofJson node)).deeper 1 (m + 1) := by
    rw [run_of_isMapping e context hm]
    exact resolve_deeper (e := e) ht 1 context (.ofJson node) 0
  -- no level deeper, it says that the failures of a limit name the limit that there is
  have hsame : e.run context (.ofJson node) = (e.run context (.ofJson node)).deeper 0 m := by
    rw [run_of_isMapping e context hm]
    exact resolve_deeper (e := e) ht 0 context (.ofJson node) 0
  have hoperand : d.operandNotices node context =
      (e.run context (.ofJson node)).records.map fun r => .record (r.deeper 1 (m + 1)) := by
    rw [operandNotices, hrun, Run.deeper, List.map_map]
    rfl
  have houtcome : (e.evaluate node context).withLimit m = e.evaluate node context := (congrArg Run.outcome hsame).symm
  have hrecords : (e.run context (.ofJson node)).records.map (AuditRecord.deeper 0 m) =
      (e.run context (.ofJson node)).records := (congrArg Run.records hsame).symm
  refine ⟨?_, ?_, ?_, ?_, ?_⟩
  · rw [resolveOperand, hrun]
    rfl
  · intro limit hlimit
    rw [hlimit] at houtcome
    cases houtcome
    rfl
  · rw [hoperand, filterMap_record?_notices]
  · rw [notices, List.map_append, List.map_map]
    congr 1
    · conv => rhs; rw [← hrecords, List.map_map]
      rfl
    · split
      · rfl
      · rw [List.map_singleton, Notice.deeper]
        exact congrArg (fun o => [Notice.evaluated o]) houtcome
  · rw [hoperand]
    intro n hn
    obtain ⟨r, hr, rfl⟩ := List.mem_map.1 hn
    have hpos := depth_pos_of_mem_records hr
    refine ⟨_, rfl, ?_⟩
    rw [AuditRecord.isRoot, AuditRecord.deeper, beq_eq_false_iff_ne]
    dsimp only
    omega

/-- An operand of the operand stands one level too deep: the limit that it exceeds is told by the record, too. -/
theorem operandNotices_eq_deeper_of_nested :
    let e : Evaluator := ⟨.standard, 1, [⟨1, true⟩]⟩
    let d : Evaluator := ⟨.standard, 2, [⟨1, true⟩]⟩
    let node : Json := .call "or" [.call "and" [.bool true, .bool true], .bool false]
    let exceeded (limit : Nat) : Outcome Json := .error (.depthExceeded limit)
    e.evaluate node .null = exceeded 1 ∧ d.resolveOperand node .null = exceeded 2 ∧
      d.operandNotices node .null = [.record ⟨"or", [exceeded 2, .ok (.bool false)], exceeded 2, 2⟩] := by
  intro e d node exceeded
  obtain ⟨houtcome, -, hnotices, -⟩ :=
    operandNotices_eq_deeper OperatorTable.shallow_standard 1 [⟨1, true⟩] (show node.isObject = true from rfl) .null
  exact ⟨rfl, houtcome.trans rfl, hnotices.trans rfl⟩

end Evaluator
end Eligibility
