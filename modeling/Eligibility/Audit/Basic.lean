import Eligibility.Outcome
/-!
# Audit

Each application of an operator leaves a record, and each evaluation ends with a notice of its outcome.  A sink is an
observer that is told all of it; how much records hold depends on all the sinks installed: nothing is recorded for
none, and operands are only copied if a sink wants them.
-/

namespace Eligibility

/-- One application of an operator.  Operands are as they were before their types were checked. -/
structure AuditRecord where
  operator : String
  operands : List (Outcome Json)
  result : Outcome Json
  /-- How deep the operator stands in its rule; the outermost one has depth one. -/
  depth : Nat

namespace AuditRecord

/-- Whether this is the outermost operator of an evaluation. -/
def isRoot (r : AuditRecord) : Bool := r.depth == 1

end AuditRecord

/-- What a sink is told. -/
inductive Notice where
  | record (r : AuditRecord)
  | evaluated (outcome : Outcome Json)

/-- An observer, known by its number. -/
structure Sink where
  number : Nat
  wantsOperands : Bool
  deriving DecidableEq

/-- How much is recorded of the application of an operator. -/
inductive Detail where
  | nothing
  | results
  | operands
  deriving DecidableEq

namespace Detail

def ofSinks (sinks : List Sink) : Detail :=
  if sinks.isEmpty then nothing else if sinks.any Sink.wantsOperands then operands else results

/-- The record of an application, if one is kept. -/
def record (detail : Detail) (name : String) (arguments : List (Outcome Json)) (result : Outcome Json)
    (depth : Nat) : List AuditRecord :=
  match detail with
  | nothing => []
  | results => [⟨name, [], result, depth⟩]
  | operands => [⟨name, arguments, result, depth⟩]

end Detail

namespace Sink

/-- Every sink is told every notice. -/
def deliver (sinks : List Sink) (notices : List Notice) : List (Sink × Notice) :=
  notices.flatMap fun n => sinks.map fun s => (s, n)

/-- What the sink of a number was told. -/
def told (number : Nat) (deliveries : List (Sink × Notice)) : List Notice :=
  deliveries.filterMap fun d => if d.1.number = number then some d.2 else none

end Sink
end Eligibility
