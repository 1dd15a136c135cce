import Eligibility.Power
import Eligibility.Binary64.Reader
import Eligibility.Binary64.Shortest
import Eligibility.Table
import Eligibility.Json.Printer
import Eligibility.Json.Written
import Eligibility.Operator.Table
import Eligibility.Engine
import Eligibility.Audit.Event
import Eligibility.Audit.Metrics
import Eligibility.Decimal.Text
import Eligibility.Basket.Source
import Eligibility.Yaml.Token.Property
import Eligibility.Yaml.Token.Scalar
import Eligibility.Yaml.Token.Lexer
import Eligibility.Yaml.Node
import Eligibility.Yaml.Document
import Eligibility.Main
import Eligibility.Json.Equality
import Eligibility.Proofs.Table.Sorted
import Eligibility.Proofs.Binary64.Order
import Eligibility.Proofs.Binary64.Counting
import Eligibility.Proofs.Json.Number
import Eligibility.Proofs.Json.Path
import Eligibility.Proofs.Rule.Nodes
import Eligibility.Proofs.Operator.Arguments
import Eligibility.Proofs.Operator.Sum
import Eligibility.Proofs.Evaluation.Steps
import Eligibility.Proofs.Evaluation.FailFast
import Eligibility.Proofs.Evaluation.Trace
import Eligibility.Proofs.Basket.Reduction
import Eligibility.Proofs.Basket.Mounting
import Eligibility.Proofs.Basket.RangeRule
import Eligibility.Proofs.Evaluation.Depth
import Eligibility.Proofs.Evaluation.Sinks
import Eligibility.Proofs.Engine.History
import Eligibility.Proofs.Condition.Basic
import Eligibility.Proofs.Condition.Evaluation
import Eligibility.Proofs.Evaluation.Dependence
import Eligibility.Proofs.Engine.Frame
import Eligibility.Proofs.Operator.Result
import Eligibility.Proofs.Operator.Agree
import Eligibility.Proofs.Rule.Agree
import Eligibility.Proofs.Evaluation.Soundness
import Eligibility.Proofs.Evaluation.Agree
import Eligibility.Proofs.Audit.Metrics
import Eligibility.Proofs.Evaluation.Extraction
import Eligibility.Proofs.Evaluation.Levels
import Eligibility.Proofs.Basket.Sums
import Eligibility.Proofs.Decimal.Representable
import Eligibility.Proofs.Binary64.Bounded
import Eligibility.Proofs.Decimal.Real
import Eligibility.Proofs.Basket.Addressing
import Eligibility.Proofs.Basket.Overflow
import Eligibility.Proofs.Basket.Combination
import Eligibility.Proofs.Validator.Levels
import Eligibility.Proofs.Validator.Standard
import Eligibility.Proofs.Operator.Registration
import Eligibility.Proofs.Operator.Invocation
import Eligibility.Proofs.Operator.Order
import Eligibility.Proofs.Operator.Total
import Eligibility.Proofs.Json.Navigation
import Eligibility.Proofs.Basket.Reading
import Eligibility.Proofs.Basket.Overlap
import Eligibility.Proofs.Json.Normal
