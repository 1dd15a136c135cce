import Eligibility.Evaluator
import Eligibility.Numeral
/-!
# Settings

What a run is told by its arguments and, where they are silent, by its environment.  Each setting may be given once;
rule and context must be given.  An option takes its value from the next argument, which may not start with a hyphen,
or after an equals sign.
-/

namespace Eligibility

/-- The settings of a run. -/
structure Settings where
  rule : String
  context : String
  basket : Option String
  partner : String
  maxDepth : Nat
  logLevel : String
  logJson : Bool
  metrics : Bool

inductive ArgumentError where
  | missingRequired
  | unknownArgument
  /-- A value is missing, empty where it may not be, or neither true nor false. -/
  | invalidValue
  | notANumber
  | repeated
  | unwantedValue
  /-- Not a failure: help is asked for. -/
  | helpAsked
  deriving DecidableEq

def ArgumentError.message : ArgumentError → String
  | missingRequired => "a rule and a context are required"
  | unknownArgument => "unknown argument"
  | invalidValue => "missing or invalid value"
  | notANumber => "a value is not a number"
  | repeated => "an option is given twice"
  | unwantedValue => "a flag takes no value"
  | helpAsked => ""

namespace Settings

def standard : Settings :=
  ⟨"rule.json", "context.json", none, "LOWE", Evaluator.defaultMaxDepth, "warn", false, false⟩

/-- Whose offer a basket is: its own partner's, if it names one. -/
def partnerFor (s : Settings) (basketPartner : Option String) : String := basketPartner.getD s.partner

inductive Name where
  | rule
  | context
  | basket
  | partner
  | maxDepth
  | logLevel
  | logJson
  | metrics
  deriving DecidableEq

namespace Name

/-- All names, in the order in which the environment is looked at. -/
def all : List Name := [rule, context, basket, partner, maxDepth, logLevel, logJson, metrics]

/-- The option after its two hyphens. -/
def option : Name → String
  | rule => "rule"
  | context => "context"
  | basket => "basket"
  | partner => "partner"
  | maxDepth => "max-depth"
  | logLevel => "log-level"
  | logJson => "log-json"
  | metrics => "metrics"

def envName : Name → String
  | rule => "OFFERULE_RULE_PATH"
  | context => "OFFERULE_CONTEXT_PATH"
  | basket => "OFFERULE_BASKET_PATH"
  | partner => "OFFERULE_PARTNER"
  | maxDepth => "OFFERULE_MAX_DEPTH"
  | logLevel => "RUST_LOG"
  | logJson => "OFFERULE_LOG_JSON"
  | metrics => "OFFERULE_METRICS"

def ofOption? (option : String) : Option Name := all.find? fun n => n.option == option

def isFlag : Name → Bool
  | logJson | metrics => true
  | _ => false

def fault? (n : Name) (value : String) : Option ArgumentError :=
  match n with
  | rule | context | basket => if value.isEmpty then some .invalidValue else none
  | maxDepth => if (Numeral.word? value.toList).isNone then some .notANumber else none
  | logJson | metrics => if value = "true" ∨ value = "false" then none else some .invalidValue
  | partner | logLevel => none

end Name

/-- What can be given, in one line. -/
def usage : String :=
  "Usage: --rule FILE --context FILE [--basket FILE] [--partner NAME] [--max-depth N] [--log-level LEVEL] " ++
    "[--log-json] [--metrics]\n"

/-- Names with the values given for them, the last first. -/
abbrev Given := List (Name × String)

/-- Adds a value that is in order. -/
def give (n : Name) (value : String) (given : Given) : Except ArgumentError Given :=
  match n.fault? value with
  | some e => .error e
  | none => .ok ((n, value) :: given)

/-- Adds a value of an argument; a second one is refused. -/
def giveOnce (n : Name) (value : String) (given : Given) : Except ArgumentError Given :=
  if given.any fun g => g.1 = n then .error .repeated else give n value given

/-- An option whose value is still to be looked at, and the value if it has come already. -/
abbrev Pending := Option (Name × Option String)

/-- Looks at the value of the option before; a value that never came is missing. -/
def settle (given : Given) : Pending → Except ArgumentError Given
  | none => .ok given
  | some (_, none) => .error .invalidValue
  | some (n, some value) => giveOnce n value given

/-- The name of an option, and its value if there is an equals sign. -/
def splitOption (text : List Char) : String × Option String :=
  match text.dropWhile (· ≠ '=') with
  | [] => (String.ofList text, none)
  | _ :: value => (String.ofList (text.takeWhile (· ≠ '=')), some (String.ofList value))

/-- **The values that arguments give.**  An argument that nobody knows, or a flag with a value, is refused before the
value of the option before it is looked at. -/
def ofArguments (given : Given) (pending : Pending) : List String → Except ArgumentError Given
  | [] => settle given pending
  | arg :: rest =>
    match arg.toList with
    | ['-', '-'] => if rest.isEmpty then settle given pending else .error .unknownArgument
    | '-' :: '-' :: text =>
      match splitOption text with
      | ("help", none) => (settle given pending).bind fun _ => .error .helpAsked
      | ("help", some _) => .error .unwantedValue
      | (option, value) =>
        match Name.ofOption? option with
        | none => .error .unknownArgument
        | some n =>
          if n.isFlag && value.isSome then .error .unwantedValue
          else do
            let given ← settle given pending
            match if n.isFlag then some "true" else value with
            | some value => ofArguments (← giveOnce n value given) none rest
            | none => ofArguments given (some (n, none)) rest
    | '-' :: c :: _ =>
      if c = 'h' then (settle given pending).bind fun _ => .error .helpAsked else .error .unknownArgument
    | _ =>
      match pending with
      | some (n, none) => ofArguments given (some (n, some arg)) rest
      | _ => .error .unknownArgument

/-- Adds the values of the environment for names that have none. -/
def withEnvironment (environment : String → Option String) (given : Given) : Except ArgumentError Given :=
  Name.all.foldlM (fun given n =>
    if given.any fun g => g.1 = n then .ok given
    else match environment n.envName with
      | some value => give n value given
      | none => .ok given) given

/-- **The settings of arguments and an environment.** -/
def read (arguments : List String) (environment : String → Option String) : Except ArgumentError Settings := do
  let given ← withEnvironment environment (← ofArguments [] none arguments)
  let value? (n : Name) : Option String := (given.find? fun g => g.1 = n).map Prod.snd
  let some rule := value? .rule | .error .missingRequired
  let some context := value? .context | .error .missingRequired
  return {
    rule := rule
    context := context
    basket := value? .basket
    partner := (value? .partner).getD standard.partner
    maxDepth := ((value? .maxDepth).bind fun v => Numeral.word? v.toList).getD standard.maxDepth
    logLevel := (value? .logLevel).getD standard.logLevel
    logJson := value? .logJson = some "true"
    metrics := value? .metrics = some "true" }

end Settings
end Eligibility
