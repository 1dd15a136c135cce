import Eligibility.Audit.Basic
/-!
# Metrics

Counts of evaluations and of applications of operators, and of failed evaluations by kind.  A count has 64 bits, and
zero comes after the greatest.  `prometheus` writes them in the Prometheus text format.
-/

namespace Eligibility

/-- Where failures of a kind are counted: at its place among all kinds, or at the first if it is not among them. -/
def RuleError.Kind.place (k : Kind) : Fin all.length := (all.finIdxOf? k).getD ⟨0, by decide⟩

/-- Counts of what a sink was told. -/
structure Metrics where
  evaluations : UInt64
  failedEvaluations : UInt64
  calls : UInt64
  failedCalls : UInt64
  /-- Failed evaluations, at the places of their kinds. -/
  failuresByKind : Vector UInt64 RuleError.Kind.all.length

namespace Metrics

def zero : Metrics := ⟨0, 0, 0, 0, Vector.replicate _ 0⟩

def observe (m : Metrics) : Notice → Metrics
  | .record r =>
    match r.result with
    | .ok _ => { m with calls := m.calls + 1 }
    | .error _ => { m with calls := m.calls + 1, failedCalls := m.failedCalls + 1 }
  | .evaluated (.ok _) => { m with evaluations := m.evaluations + 1 }
  | .evaluated (.error e) =>
    { m with
      evaluations := m.evaluations + 1
      failedEvaluations := m.failedEvaluations + 1
      failuresByKind := m.failuresByKind.set e.kind.place (m.failuresByKind[e.kind.place] + 1) }

def observeAll (m : Metrics) (notices : List Notice) : Metrics := notices.foldl observe m

def failureCount (m : Metrics) (k : RuleError.Kind) : UInt64 := m.failuresByKind[k.place]

/-- How many evaluations failed with a kind. -/
def failures (m : Metrics) (k : RuleError.Kind) : Nat := (m.failureCount k).toNat

def counter (name help : String) (count : UInt64) : String :=
  "# HELP " ++ name ++ " " ++ help ++ "\n# TYPE " ++ name ++ " counter\n" ++ name ++ " " ++ count.toNat.repr ++ "\n\n"

def failureLine (m : Metrics) (k : RuleError.Kind) : String :=
  "offerule_evaluation_failures\x7bkind=\"" ++ k.text ++ "\"\x7d " ++ (m.failures k).repr ++ "\n"

/-- **The counts in the Prometheus text format.** -/
def prometheus (m : Metrics) : String :=
  counter "offerule_evaluations_total" "Total rule evaluations" m.evaluations ++
    counter "offerule_evaluations_failed_total" "Rule evaluations ending in an error" m.failedEvaluations ++
    counter "offerule_operator_calls_total" "Operator applications at any depth" m.calls ++
    counter "offerule_operator_calls_failed_total" "Operator applications returning an error" m.failedCalls ++
    "# HELP offerule_evaluation_failures Failed evaluations by error kind\n" ++
    "# TYPE offerule_evaluation_failures counter\n" ++
    String.join (RuleError.Kind.all.map m.failureLine)

end Metrics
end Eligibility
