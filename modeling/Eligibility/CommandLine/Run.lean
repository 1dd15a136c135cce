import Eligibility.Audit.Metrics
import Eligibility.CommandLine.Settings
import Eligibility.Document
import Eligibility.Engine
/-!
# A run of the command

Loads a rule and its context, puts the offer of a basket into the context if there is one, and evaluates the rule.
-/

namespace Eligibility

/-- What comes of a run. -/
inductive Report where
  | refused (e : ArgumentError)
  | unloaded (e : LoadError)
  /-- The money spent has no sum. -/
  | overflowed
  | evaluated (outcome : Outcome Json) (metrics : Option Metrics)

namespace Report

def exitCode : Report → Nat
  | refused .helpAsked => 0
  | refused _ => 2
  | unloaded _ => 1
  | overflowed => 101
  | evaluated (.ok _) _ => 0
  | evaluated (.error _) _ => 1

/-- What is written: the value if there is one, then the metrics if they are asked for. -/
def output : Report → String
  | evaluated outcome metrics =>
    let value := match outcome with
      | .ok v => v.pretty ++ "\n"
      | .error _ => ""
    value ++ (metrics.map Metrics.prometheus).getD ""
  | refused .helpAsked => Settings.usage
  | _ => ""

def errorOutput : Report → String
  | unloaded e => "Error: " ++ e.message ++ "\n"
  | overflowed => "Addition overflowed\n"
  | evaluated (.error e) _ => e.message ++ "\n"
  | evaluated (.ok _) _ => ""
  | refused .helpAsked => ""
  | refused e => "Error: " ++ e.message ++ "\n" ++ Settings.usage

end Report

namespace Settings

/-- The context with the offer of the basket, if there is one; none if the offer's money has no sum. -/
def contextWithOffer (s : Settings) (context : Json) : Option Basket → Option Json
  | none => some context
  | some b => b.offer?.map fun o => o.mergeInto (s.partnerFor b.partner) context

def metricsSink : Sink := ⟨1, false⟩

def evaluate (s : Settings) (rule context : Json) : Report :=
  let e := (Engine.standard [⟨0, false⟩, metricsSink]).withMaxDepth s.maxDepth
  let metrics := Metrics.zero.observeAll
    (Sink.told metricsSink.number (Sink.deliver e.sinks (e.evaluator.notices rule context)))
  .evaluated (e.evaluate rule context) (if s.metrics then some metrics else none)

/-- **Loads and evaluates.** -/
def run (s : Settings) (files : Files) : Report :=
  let loaded : Except LoadError (Json × Json × Option Basket) := do
    return (← files.loadRule s.rule, ← files.loadContext s.context, ← s.basket.mapM files.loadBasket)
  match loaded with
  | .error e => .unloaded e
  | .ok (rule, context, basket) =>
    match s.contextWithOffer context basket with
    | some context => s.evaluate rule context
    | none => .overflowed

end Settings
end Eligibility
