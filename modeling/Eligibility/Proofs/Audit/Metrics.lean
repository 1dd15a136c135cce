import Eligibility.Audit.Metrics
import Eligibility.Proofs.Evaluation.Sinks
import Eligibility.Proofs.Evaluation.Success
import Mathlib.Algebra.BigOperators.Group.List.Basic
import Mathlib.Algebra.Ring.Nat
/-!
# What metrics count

Each count goes up by one at the notices that it counts and stays at all others (`Metrics.Counts`), so that after any
run it is their number as far as 64 bits go.  Over any requests that share a sink, its metrics are the numbers of
evaluations, of records, and of those that failed (`counts_of_requests`).
-/
namespace Eligibility
namespace Outcome

def failed {α : Type} : Outcome α → Bool
  | .ok _ => false
  | .error _ => true

def failsWith {α : Type} (k : RuleError.Kind) : Outcome α → Bool
  | .ok _ => false
  | .error e => e.kind = k

/-- **A failure is of just one of the kinds.** -/
theorem sum_countP_failsWith {α : Type} : ∀ outcomes : List (Outcome α),
    (RuleError.Kind.all.map fun k => outcomes.countP (failsWith k)).sum = outcomes.countP failed
  | [] => rfl
  | o :: rest => by
    have hone : (RuleError.Kind.all.map fun k => if failsWith k o then 1 else 0).sum = if failed o then 1 else 0 := by
      cases o with
      | ok v => rfl
      | error e =>
        simp only [failsWith, failed, decide_eq_true_eq]
        generalize e.kind = l
        cases l <;> rfl
    simp only [List.countP_cons, List.sum_map_add, hone, sum_countP_failsWith rest]

end Outcome

namespace Notice

def records (p : AuditRecord → Bool) (n : Notice) : Bool := (n.record?.map p).getD false

def evaluates (p : Outcome Json → Bool) (n : Notice) : Bool := (n.outcome?.map p).getD false

theorem countP_records (p : AuditRecord → Bool) (ns : List Notice) :
    ns.countP (records p) = (ns.filterMap record?).countP p := List.countP_filterMap.symm

theorem countP_evaluates (p : Outcome Json → Bool) (ns : List Notice) :
    ns.countP (evaluates p) = (ns.filterMap outcome?).countP p := List.countP_filterMap.symm

end Notice

namespace RuleError.Kind

theorem get_place (k : Kind) : all.get k.place = k := by cases k <;> rfl

/-- **Each kind has a place of its own.** -/
theorem place_inj {k l : Kind} : k.place = l.place ↔ k = l := by
  constructor
  · intro h
    have hget := congrArg all.get h
    rwa [get_place, get_place] at hget
  · exact congrArg place

end RuleError.Kind

namespace Metrics

/-- Whether a count is zero at first and goes up by one at just the notices that have a property. -/
structure Counts (count : Metrics → UInt64) (p : Notice → Bool) : Prop where
  zero : count .zero = 0
  observe : ∀ m n, count (m.observe n) = count m + if p n then 1 else 0

theorem Counts.observeAll {count : Metrics → UInt64} {p : Notice → Bool} (h : Counts count p) :
    ∀ (notices : List Notice) (m : Metrics), count (m.observeAll notices) = count m + UInt64.ofNat (notices.countP p)
  | [], m => by
    rw [List.countP_nil]
    exact (UInt64.add_zero _).symm
  | n :: rest, m => by
    have ih := h.observeAll rest (m.observe n)
    have hone : UInt64.ofNat (if p n then 1 else 0) = if p n then 1 else 0 := by split <;> rfl
    unfold Metrics.observeAll at ih ⊢
    rw [List.foldl_cons, ih, h.observe, List.countP_cons, UInt64.ofNat_add, hone, UInt64.add_assoc,
      UInt64.add_comm (UInt64.ofNat _)]

/-- **A record counts as a call only**, and as a failed one if it tells a failure. -/
theorem observe_record (m : Metrics) (r : AuditRecord) :
    m.observe (.record r) =
      { m with
        calls := m.calls + 1
        failedCalls := m.failedCalls + if r.result.failed then 1 else 0 } := by
  rw [observe]
  cases r.result with
  | ok v => simp only [Outcome.failed, Bool.false_eq_true, if_false, UInt64.add_zero]
  | error e => rfl

theorem counts_evaluations : Counts evaluations (Notice.evaluates fun _ => true) := by
  refine ⟨rfl, ?_⟩
  rintro m (r | (e | v))
  · rw [observe_record]
    exact (UInt64.add_zero _).symm
  · rfl
  · rfl

theorem counts_failedEvaluations : Counts failedEvaluations (Notice.evaluates Outcome.failed) := by
  refine ⟨rfl, ?_⟩
  rintro m (r | (e | v))
  · rw [observe_record]
    exact (UInt64.add_zero _).symm
  · rfl
  · exact (UInt64.add_zero _).symm

theorem counts_failureCount (k : RuleError.Kind) :
    Counts (fun m => m.failureCount k) (Notice.evaluates (Outcome.failsWith k)) := by
  refine ⟨Vector.getElem_replicate _, ?_⟩
  rintro m (r | (e | v))
  · rw [observe_record]
    exact (UInt64.add_zero _).symm
  · have hplace : (e.kind.place : Nat) = (k.place : Nat) ↔ e.kind = k := by
      rw [← Fin.ext_iff, RuleError.Kind.place_inj]
    have hkind : Notice.evaluates (Outcome.failsWith k) (.evaluated (.error e)) = decide (e.kind = k) := rfl
    simp only [failureCount, Metrics.observe, hkind, Fin.getElem_fin, Vector.getElem_set, hplace, decide_eq_true_eq]
    by_cases hk : e.kind = k
    · subst hk
      rw [if_pos rfl, if_pos rfl]
    · rw [if_neg hk, if_neg hk, UInt64.add_zero]
  · exact (UInt64.add_zero _).symm

theorem counts_calls : Counts calls (Notice.records fun _ => true) := by
  refine ⟨rfl, ?_⟩
  rintro m (r | (e | v))
  · rw [observe_record]
    rfl
  · exact (UInt64.add_zero _).symm
  · exact (UInt64.add_zero _).symm

theorem counts_failedCalls : Counts failedCalls (Notice.records fun r => r.result.failed) := by
  refine ⟨rfl, ?_⟩
  rintro m (r | (e | v))
  · rw [observe_record]
    rfl
  · exact (UInt64.add_zero _).symm
  · exact (UInt64.add_zero _).symm

end Metrics

/-- What an evaluator is asked for. -/
inductive Request where
  | evaluate (e : Evaluator) (rule context : Json)
  | resolveOperand (e : Evaluator) (operand context : Json)

namespace Request

def evaluator : Request → Evaluator
  | evaluate e _ _ | resolveOperand e _ _ => e

def notices : Request → List Notice
  | evaluate e rule context => e.notices rule context
  | resolveOperand e operand context => e.operandNotices operand context

def records : Request → List AuditRecord
  | evaluate e rule context => (e.run context (.ofJson rule)).records
  | resolveOperand e operand context => (e.runOperand operand context).records

/-- What an evaluation came to. -/
def evaluated? : Request → Option (Outcome Json)
  | evaluate e rule context => some (e.evaluate rule context)
  | resolveOperand .. => none

/-- What the sink of a number is told by requests, one after another. -/
def told (number : Nat) (requests : List Request) : List Notice :=
  requests.flatMap fun r => Sink.told number (Sink.deliver r.evaluator.sinks r.notices)

theorem filterMap_record?_notices (r : Request) : r.notices.filterMap Notice.record? = r.records := by
  cases r with
  | evaluate e rule context => exact e.filterMap_record?_notices rule context
  | resolveOperand e operand context => exact Notice.filterMap_record?_map_record _

theorem filterMap_outcome?_notices {r : Request} (h : r.evaluator.sinks ≠ []) :
    r.notices.filterMap Notice.outcome? = r.evaluated?.toList := by
  cases r with
  | evaluate e rule context => exact Evaluator.filterMap_outcome?_notices h rule context
  | resolveOperand e operand context => exact Notice.filterMap_outcome?_map_record _

variable {number : Nat} {requests : List Request}

theorem sinks_ne_nil_of_timesInstalled {sinks : List Sink} (h : Sink.timesInstalled number sinks = 1) : sinks ≠ [] := by
  rintro rfl
  cases h

/-- **A sink that is installed once is told just what each request tells.** -/
theorem told_eq (h : ∀ r ∈ requests, Sink.timesInstalled number r.evaluator.sinks = 1) :
    told number requests = requests.flatMap notices :=
  List.flatMap_congr fun r hr => Sink.told_deliver_of_once (h r hr) r.notices

theorem filterMap_record?_told (h : ∀ r ∈ requests, Sink.timesInstalled number r.evaluator.sinks = 1) :
    (told number requests).filterMap Notice.record? = requests.flatMap records := by
  rw [told_eq h, List.filterMap_flatMap]
  exact List.flatMap_congr fun r _ => filterMap_record?_notices r

theorem filterMap_outcome?_told (h : ∀ r ∈ requests, Sink.timesInstalled number r.evaluator.sinks = 1) :
    (told number requests).filterMap Notice.outcome? = requests.filterMap evaluated? := by
  rw [told_eq h, List.filterMap_flatMap, List.filterMap_eq_flatMap_toList]
  exact List.flatMap_congr fun r hr => filterMap_outcome?_notices (sinks_ne_nil_of_timesInstalled (h r hr))

end Request

namespace Metrics

variable {number : Nat} {requests : List Request}

/-- The metrics of a sink that requests share. -/
def ofRequests (number : Nat) (requests : List Request) : Metrics := zero.observeAll (Request.told number requests)

/-- **A count of 64 bits is exact while fewer notices are told.** -/
theorem Counts.toNat {count : Metrics → UInt64} {p : Notice → Bool} (h : Counts count p)
    (hfew : (Request.told number requests).length < 18_446_744_073_709_551_616) :
    (count (ofRequests number requests)).toNat = (Request.told number requests).countP p := by
  have hle : (Request.told number requests).countP p ≤ (Request.told number requests).length := List.countP_le_length
  rw [ofRequests, h.observeAll, h.zero, UInt64.zero_add]
  exact UInt64.toNat_ofNat_of_lt' (Nat.lt_of_le_of_lt hle hfew)

theorem toNat_calls (hsink : ∀ r ∈ requests, Sink.timesInstalled number r.evaluator.sinks = 1)
    (hfew : (Request.told number requests).length < 18_446_744_073_709_551_616) :
    (ofRequests number requests).calls.toNat = (requests.flatMap Request.records).length := by
  rw [counts_calls.toNat hfew, Notice.countP_records, Request.filterMap_record?_told hsink, List.countP_true]

theorem toNat_failedCalls (hsink : ∀ r ∈ requests, Sink.timesInstalled number r.evaluator.sinks = 1)
    (hfew : (Request.told number requests).length < 18_446_744_073_709_551_616) :
    (ofRequests number requests).failedCalls.toNat =
      (requests.flatMap Request.records).countP fun r => r.result.failed := by
  rw [counts_failedCalls.toNat hfew, Notice.countP_records, Request.filterMap_record?_told hsink]

theorem failures_ofRequests (hsink : ∀ r ∈ requests, Sink.timesInstalled number r.evaluator.sinks = 1)
    (hfew : (Request.told number requests).length < 18_446_744_073_709_551_616) (k : RuleError.Kind) :
    (ofRequests number requests).failures k =
      (requests.filterMap Request.evaluated?).countP (Outcome.failsWith k) := by
  rw [failures, (counts_failureCount k).toNat hfew, Notice.countP_evaluates, Request.filterMap_outcome?_told hsink]

theorem toNat_failedEvaluations (hsink : ∀ r ∈ requests, Sink.timesInstalled number r.evaluator.sinks = 1)
    (hfew : (Request.told number requests).length < 18_446_744_073_709_551_616) :
    (ofRequests number requests).failedEvaluations.toNat =
      (requests.filterMap Request.evaluated?).countP Outcome.failed := by
  rw [counts_failedEvaluations.toNat hfew, Notice.countP_evaluates, Request.filterMap_outcome?_told hsink]

/-- **Metrics that requests share are the numbers of what came of them.**  Evaluations and those that failed, of each
kind and in sum over the kinds, are those asked for; calls are the records.  An evaluation with a value adds no failed
call, and as many calls as its rule has mappings. -/
theorem counts_of_requests (number : Nat) (requests : List Request)
    (hsink : ∀ r ∈ requests, Sink.timesInstalled number r.evaluator.sinks = 1)
    (hfew : (Request.told number requests).length < 18_446_744_073_709_551_616) :
    let m := ofRequests number requests
    let outcomes := requests.filterMap Request.evaluated?
    let records := requests.flatMap Request.records
    m.evaluations.toNat = outcomes.length ∧ m.failedEvaluations.toNat = outcomes.countP Outcome.failed ∧
      (∀ k, m.failures k = outcomes.countP (Outcome.failsWith k)) ∧
      (RuleError.Kind.all.map m.failures).sum = m.failedEvaluations.toNat ∧
      m.calls.toNat = records.length ∧ (m.failedCalls.toNat = records.countP fun r => r.result.failed) ∧
      ∀ before e rule context after v, requests = before ++ .evaluate e rule context :: after →
        e.evaluate rule context = .ok v →
        let m₀ := ofRequests number before
        let m₁ := ofRequests number (before ++ [.evaluate e rule context])
        m₁.calls.toNat = m₀.calls.toNat + ((Rule.ofJson rule).nodes []).length ∧
          m₁.failedCalls.toNat = m₀.failedCalls.toNat := by
  intro m outcomes records
  have hfailures : ∀ k, m.failures k = outcomes.countP (Outcome.failsWith k) := failures_ofRequests hsink hfew
  have hfailed : m.failedEvaluations.toNat = outcomes.countP Outcome.failed := toNat_failedEvaluations hsink hfew
  refine ⟨?_, hfailed, hfailures, ?_, toNat_calls hsink hfew, toNat_failedCalls hsink hfew, ?_⟩
  · rw [counts_evaluations.toNat hfew, Notice.countP_evaluates, Request.filterMap_outcome?_told hsink, List.countP_true]
  · rw [hfailed, ← Outcome.sum_countP_failsWith, funext hfailures]
  · intro before e rule context after v hsplit hv m₀ m₁
    -- what holds of all the requests holds of those up to this one, with it and without it
    have hprefix : ∀ firsts : List Request, firsts <+: requests →
        (∀ r ∈ firsts, Sink.timesInstalled number r.evaluator.sinks = 1) ∧
          (Request.told number firsts).length < 18_446_744_073_709_551_616 := by
      rintro firsts ⟨rest, hrest⟩
      refine ⟨fun r hr => hsink r (hrest ▸ List.mem_append_left rest hr), ?_⟩
      rw [← hrest, Request.told, List.flatMap_append, List.length_append] at hfew
      rw [Request.told]
      omega
    have hsinks : e.sinks ≠ [] :=
      Request.sinks_ne_nil_of_timesInstalled (hsink (.evaluate e rule context) (by rw [hsplit]; simp))
    obtain ⟨hrecords, hok⟩ := Evaluator.records_run_of_ok hsinks hv
    obtain ⟨hsink₀, hfew₀⟩ := hprefix before ⟨_, hsplit.symm⟩
    obtain ⟨hsink₁, hfew₁⟩ := hprefix (before ++ [.evaluate e rule context]) ⟨after, by rw [hsplit]; simp⟩
    have hflat : (before ++ [Request.evaluate e rule context]).flatMap Request.records =
        before.flatMap Request.records ++ (e.run context (.ofJson rule)).records := by
      rw [List.flatMap_append, List.flatMap_singleton]
      rfl
    constructor
    · rw [toNat_calls hsink₁ hfew₁, toNat_calls hsink₀ hfew₀, hflat, List.length_append, hrecords, List.length_map]
    · have hnone : ((e.run context (.ofJson rule)).records.countP fun r => r.result.failed) = 0 := by
        rw [List.countP_eq_zero]
        intro r hr
        obtain ⟨w, hw⟩ := hok r hr
        rw [hw]
        exact Bool.false_ne_true
      rw [toNat_failedCalls hsink₁ hfew₁, toNat_failedCalls hsink₀ hfew₀, hflat, List.countP_append, hnone,
        Nat.add_zero]

/-- Without a member the rule fails twice over, in the operand and as a whole; the operand on its own fails as a call
and is no evaluation. -/
theorem counts_of_requests_three :
    let e : Evaluator := ⟨.standard, 2, [⟨0, true⟩, ⟨1, false⟩]⟩
    let operand : Json := .object [("or", .array [.bool false, .string "!member"])]
    let rule : Json := .object [("and", .array [.bool true, operand])]
    let context : Json := .object [("member", .bool true)]
    let failing : List Request := [.evaluate e rule .null, .resolveOperand e operand .null]
    let m := ofRequests 1 (failing ++ [.evaluate e rule context])
    m.evaluations.toNat = 2 ∧ m.failedEvaluations.toNat = 1 ∧ m.failures .unresolvedPath = 1 ∧
      m.failures .ruleShape = 0 ∧ m.calls.toNat = 5 ∧ m.failedCalls.toNat = 3 ∧
      m.calls.toNat = (ofRequests 1 failing).calls.toNat + 2 := by
  intro e operand rule context failing m
  obtain ⟨hall, hfailed, hkinds, -, hcalls, hfailedCalls, hok⟩ :=
    counts_of_requests 1 (failing ++ [.evaluate e rule context]) (by decide) (by decide)
  have hlast := (hok failing e rule context [] (.bool true) rfl rfl).1
  exact ⟨hall.trans rfl, hfailed.trans rfl, (hkinds _).trans rfl, (hkinds _).trans rfl, hcalls.trans rfl,
    hfailedCalls.trans rfl, hlast⟩

end Metrics
end Eligibility
