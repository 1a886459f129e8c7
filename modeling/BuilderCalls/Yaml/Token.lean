/-!
# YAML tokens

What a YAML text consists of once its lines are understood: the indentation has
become the beginnings and ends of block collections, and a scalar with a colon
behind it has a `key` token in front.
-/

namespace BuilderCalls.Yaml

inductive Token where
  | directive
  | documentStart
  | documentEnd
  | blockMapping
  | blockSequence
  | blockEnd
  | flowMapping
  | flowMappingEnd
  | flowSequence
  | flowSequenceEnd
  | blockEntry
  | flowEntry
  | key
  | value
  | anchor (number : Nat)
  | alias (number : Nat)
  | tag (name : String)
  | scalar (text : String) (plain : Bool)
  deriving DecidableEq

end BuilderCalls.Yaml
