import Eligibility.Yaml.Tag
/-!
# Tokens

The tokens of a document: marks of its structure, properties of nodes, and scalars.
-/

namespace Eligibility.Yaml

/-- How a scalar is written. -/
inductive Style where
  | plain
  | quoted
  | literal
  | folded
  deriving DecidableEq

/-- A tag as it is written: a handle and what follows it.  Without a handle the rest is the whole tag. -/
structure TagText where
  handle : String
  suffix : Tag
  deriving DecidableEq

inductive Token where
  | version (major minor : Nat)
  | tagHandle (handle : String) (tagStart : Tag)
  | documentStart
  | documentEnd
  | blockSequence
  | blockMapping
  | blockEnd
  | sequenceStart
  | sequenceEnd
  | mappingStart
  | mappingEnd
  | entry
  | comma
  | key
  | value
  | aliasTo (name : String)
  | anchor (name : String)
  | tag (t : TagText)
  | scalar (style : Style) (text : String)
  | streamEnd
  deriving DecidableEq

end Eligibility.Yaml
