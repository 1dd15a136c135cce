import Eligibility.Proofs.Evaluation.Depth
import Eligibility.Proofs.Evaluation.Trace
import Mathlib.Data.List.Nodup
/-!
# What sinks are told

Sinks watch: the outcome of a rule is the same whatever sinks there are.  All of them are told the same notices in the
same order, each sink as often as it is installed (`told_deliver`), and the notices depend on the sinks only in
whether records hold operands (`notices_of_sinks`).
-/
namespace Eligibility
namespace Sink

/-- How often a sink of this number is installed. -/
def timesInstalled (number : Nat) (sinks : List Sink) : Nat := sinks.countP fun s => s.number = number

theorem told_append (number : Nat) (ds es : List (Sink × Notice)) :
    told number (ds ++ es) = told number ds ++ told number es := List.filterMap_append

theorem told_notice (number : Nat) (n : Notice) : ∀ sinks : List Sink,
    told number (sinks.map fun s => (s, n)) = List.replicate (timesInstalled number sinks) n
  | [] => rfl
  | s :: rest => by
    have ih := told_notice number n rest
    unfold told timesInstalled at ih ⊢
    rw [List.map_cons, List.filterMap_cons, List.countP_cons]
    by_cases hs : s.number = number
    · simp only [hs, if_true, decide_true, List.replicate_succ]
      rw [ih]
    · simp only [hs, if_false, decide_false, Bool.false_eq_true, Nat.add_zero]
      exact ih

/-- Notices, each as often as a sink of this number is installed. -/
def asInstalled (number : Nat) (sinks : List Sink) (notices : List Notice) : List Notice :=
  notices.flatMap (List.replicate (timesInstalled number sinks))

/-- **Every sink is told every notice in order**, once for each time that it is installed. -/
theorem told_deliver (number : Nat) (sinks : List Sink) : ∀ notices : List Notice,
    told number (deliver sinks notices) = asInstalled number sinks notices
  | [] => rfl
  | n :: rest => by
    have ih := told_deliver number sinks rest
    unfold deliver asInstalled at ih ⊢
    rw [List.flatMap_cons, told_append, told_notice, ih, List.flatMap_cons]

theorem timesInstalled_of_nodup {sinks : List Sink} {s : Sink} (h : (sinks.map number).Nodup) (hs : s ∈ sinks) :
    timesInstalled s.number sinks = 1 := by
  have hcount : timesInstalled s.number sinks = (sinks.map number).count s.number := by
    rw [timesInstalled, List.count_eq_countP, List.countP_map]
    congr 1
  rw [hcount]
  exact List.count_eq_one_of_mem h (List.mem_map_of_mem hs)

theorem told_deliver_of_once {number : Nat} {sinks : List Sink} (h : timesInstalled number sinks = 1)
    (notices : List Notice) : told number (deliver sinks notices) = notices := by
  rw [told_deliver, asInstalled, h]
  exact List.flatMap_singleton' notices

/-- **Of different sinks, each is told just what is delivered.** -/
theorem told_deliver_of_nodup {sinks : List Sink} {s : Sink} (h : (sinks.map number).Nodup) (hs : s ∈ sinks)
    (notices : List Notice) : told s.number (deliver sinks notices) = notices :=
  told_deliver_of_once (timesInstalled_of_nodup h hs) notices

end Sink

namespace Notice

def record? : Notice → Option AuditRecord
  | .record r => some r
  | .evaluated _ => none

def outcome? : Notice → Option (Outcome Json)
  | .record _ => none
  | .evaluated outcome => some outcome

theorem filterMap_record?_map_record (rs : List AuditRecord) : (rs.map record).filterMap record? = rs := by
  rw [List.filterMap_map]
  exact List.filterMap_some

theorem filterMap_outcome?_map_record (rs : List AuditRecord) : (rs.map record).filterMap outcome? = [] := by
  rw [List.filterMap_map, List.filterMap_eq_nil_iff]
  exact fun _ _ => rfl

end Notice

namespace Evaluator

theorem filterMap_record?_notices (e : Evaluator) (rule context : Json) :
    (e.notices rule context).filterMap Notice.record? = (e.run context (.ofJson rule)).records := by
  rw [notices, List.filterMap_append, Notice.filterMap_record?_map_record]
  split <;> exact List.append_nil _

theorem filterMap_outcome?_notices {e : Evaluator} (h : e.sinks ≠ []) (rule context : Json) :
    (e.notices rule context).filterMap Notice.outcome? = [e.evaluate rule context] := by
  have hempty : e.sinks.isEmpty = false := List.isEmpty_eq_false_iff.2 h
  rw [notices, hempty, List.filterMap_append, Notice.filterMap_outcome?_map_record]
  rfl

end Evaluator

/-- A record as sinks get it: it tells what operands came to if one of the sinks wants to know. -/
def AuditRecord.seenBy (sinks : List Sink) (r : AuditRecord) : AuditRecord :=
  if sinks.any Sink.wantsOperands then r else { r with operands := [] }

def Notice.seenBy (sinks : List Sink) : Notice → Notice
  | .record r => .record (r.seenBy sinks)
  | .evaluated outcome => .evaluated outcome

theorem Detail.record_ofSinks {sinks : List Sink} (h : sinks ≠ []) (name : String) (arguments : List (Outcome Json))
    (result : Outcome Json) (depth : Nat) :
    (ofSinks sinks).record name arguments result depth =
      (operands.record name arguments result depth).map (AuditRecord.seenBy sinks) := by
  have hempty : sinks.isEmpty = false := List.isEmpty_eq_false_iff.2 h
  unfold ofSinks AuditRecord.seenBy
  rw [hempty]
  cases sinks.any Sink.wantsOperands <;> rfl

namespace Evaluator

open Rule (Node)

def watched (t : OperatorTable) (maxDepth : Nat) : Evaluator := ⟨t, maxDepth, [⟨0, true⟩]⟩

variable {e : Evaluator}

theorem outcome_resolve_watched (e : Evaluator) (context : Json) (depth : Nat) (r : Rule) :
    ((watched e.operators e.maxDepth).resolve context depth r).outcome = (e.resolve context depth r).outcome :=
  outcome_resolve_congr (watched e.operators e.maxDepth) e (.refl e.operators) rfl context r depth

/-- **Sinks that want less are told less of the same**, of an operand at any depth. -/
theorem records_resolve_seenBy (h : e.sinks ≠ []) (context : Json) (r : Rule) : ∀ depth,
    (e.resolve context depth r).records =
      ((watched e.operators e.maxDepth).resolve context depth r).records.map (AuditRecord.seenBy e.sinks) := by
  induction r using Rule.induct with
  | call name operands ih =>
    intro depth
    have hop : (watched e.operators e.maxDepth).operatorAt (depth + 1) name = e.operatorAt (depth + 1) name := rfl
    cases ho : e.operatorAt (depth + 1) name with
    | error failure =>
      rw [resolve_call_error ho, resolve_call_error (hop.trans ho)]
      rfl
    | ok o =>
      have hoperands : (operands.map (e.resolve context (depth + 1))).flatMap Run.records =
          ((operands.map ((watched e.operators e.maxDepth).resolve context (depth + 1))).flatMap Run.records).map
            (AuditRecord.seenBy e.sinks) := by
        rw [List.map_flatMap, List.flatMap_map, List.flatMap_map]
        exact List.flatMap_congr fun operand hoperand => ih operand hoperand (depth + 1)
      -- the record of the mapping itself holds the same outcomes in both runs, or none of them
      have hown := Detail.record_ofSinks h name (operands.map fun r => (e.resolve context (depth + 1) r).outcome)
        (e.resolve context depth (.call name operands)).outcome (depth + 1)
      rw [records_resolve_call ho, records_resolve_call (hop.trans ho), List.map_append, ← hoperands]
      simp only [outcome_resolve_watched]
      rw [detail, hown]
      rfl
  | uncallable name operands =>
    intro depth
    rw [records_resolve_uncallable, records_resolve_uncallable]
    rfl
  | malformed members =>
    intro depth
    rw [resolve, resolve]
    rfl
  | reference path | null | literal v =>
    intro depth
    rw [resolve, resolve]
    rfl

theorem operandNotices_seenBy (h : e.sinks ≠ []) (operand context : Json) :
    e.operandNotices operand context =
      ((watched e.operators e.maxDepth).operandNotices operand context).map (Notice.seenBy e.sinks) := by
  unfold operandNotices runOperand
  rw [records_resolve_seenBy h, List.map_map, List.map_map]
  rfl

theorem notices_seenBy (h : e.sinks ≠ []) (rule context : Json) :
    e.notices rule context = ((watched e.operators e.maxDepth).notices rule context).map (Notice.seenBy e.sinks) := by
  have hempty : e.sinks.isEmpty = false := List.isEmpty_eq_false_iff.2 h
  have houtcome : e.evaluate rule context = (watched e.operators e.maxDepth).evaluate rule context :=
    evaluate_congr e (watched e.operators e.maxDepth) (.refl e.operators) rfl rule context
  have hrecords : (e.run context (.ofJson rule)).records =
      ((watched e.operators e.maxDepth).run context (.ofJson rule)).records.map (AuditRecord.seenBy e.sinks) := by
    cases hm : (Rule.ofJson rule).isMapping with
    | true =>
      rw [run_of_isMapping e context hm, run_of_isMapping _ context hm]
      exact records_resolve_seenBy h context _ 0
    | false =>
      rw [run_of_not_isMapping e context hm, run_of_not_isMapping _ context hm]
      rfl
  unfold evaluate at houtcome
  rw [notices, notices, hrecords, houtcome, hempty, List.map_append, List.map_map, List.map_map]
  rfl

/-- **Sinks watch and nothing else.**  The outcome is the same whatever sinks there are.  Each of them is told, once for
each time that it is installed, what a single sink that wants operands would be told, without operands if none of
them wants any.  Such a sink is told of each mapping reached, with what all its operands come to, and last of the
outcome. -/
theorem notices_of_sinks (t : OperatorTable) (maxDepth : Nat) (sinks : List Sink) (rule context : Json) :
    let e : Evaluator := ⟨t, maxDepth, sinks⟩
    let w := watched t maxDepth
    e.evaluate rule context = w.evaluate rule context ∧
      (∀ s ∈ sinks, Sink.told s.number (Sink.deliver sinks (e.notices rule context)) =
        Sink.asInstalled s.number sinks ((w.notices rule context).map (Notice.seenBy sinks))) ∧
      (∀ s ∈ sinks, Sink.told s.number (Sink.deliver sinks (e.operandNotices rule context)) =
        Sink.asInstalled s.number sinks ((w.operandNotices rule context).map (Notice.seenBy sinks))) ∧
      ((sinks.map Sink.number).Nodup → ∀ s ∈ sinks,
        Sink.told s.number (Sink.deliver sinks (e.notices rule context)) =
          (w.notices rule context).map (Notice.seenBy sinks)) ∧
      w.notices rule context =
        (((Rule.ofJson rule).reached t maxDepth).map fun n =>
          .record ⟨n.rule.operator, w.operandOutcomes context n, w.outcomeAt context n, n.depth⟩) ++
            [.evaluated (w.evaluate rule context)] := by
  intro e w
  have hnotices : ∀ s ∈ sinks, e.notices rule context = (w.notices rule context).map (Notice.seenBy sinks) :=
    fun s hs => notices_seenBy (e := e) (List.ne_nil_of_mem hs) rule context
  refine ⟨evaluate_congr e w (.refl t) rfl rule context, ?_, ?_, ?_, ?_⟩
  · intro s hs
    rw [hnotices s hs, Sink.told_deliver]
  · intro s hs
    have hoperand := operandNotices_seenBy (e := e) (List.ne_nil_of_mem hs) rule context
    rw [hoperand, Sink.told_deliver]
  · intro hnodup s hs
    rw [hnotices s hs, Sink.told_deliver_of_nodup hnodup hs]
  · have hw : w.sinks ≠ [] := List.cons_ne_nil _ _
    rw [notices, records_run_of_sinks hw, List.map_map]
    rfl

/-- A sink that wants operands shows them to the one beside it, and a rule that names no operator is told of, too. -/
theorem notices_of_sinks_two :
    let sinks : List Sink := [⟨1, false⟩, ⟨2, true⟩]
    let e : Evaluator := ⟨.standard, 2, sinks⟩
    let rule : Json := .object [("or", .array [.bool false, .string "!member"])]
    let context : Json := .object [("member", .bool true)]
    let failed : Outcome Json := .error (.unknownOperator "xor")
    Sink.told 1 (Sink.deliver sinks (e.notices rule context)) =
        [.record ⟨"or", [.ok (.bool false), .ok (.bool true)], .ok (.bool true), 1⟩, .evaluated (.ok (.bool true))] ∧
      Sink.told 1 (Sink.deliver sinks (e.notices (.object [("xor", .null)]) context)) = [.evaluated failed] := by
  intro sinks e rule context failed
  have hquiet : (⟨1, false⟩ : Sink) ∈ sinks := List.mem_cons_self
  have htold := fun rule => (notices_of_sinks .standard 2 sinks rule context).2.2.2.1 (by decide) ⟨1, false⟩ hquiet
  exact ⟨(htold rule).trans rfl, (htold _).trans rfl⟩

end Evaluator
end Eligibility
