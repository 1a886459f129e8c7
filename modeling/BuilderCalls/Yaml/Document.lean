import BuilderCalls.Yaml.Node
import BuilderCalls.Yaml.Scan.Run

/-!
# YAML documents

A text holds one document; a text without any token holds none.
-/

namespace BuilderCalls.Yaml

/-- Enough for every token to be looked at by all the readers that may be nested there. -/
def fuelFor (tokens : Rest) : Nat :=
  5 * tokens.length + 5

def opensContent : Token → Bool
  | .directive => false
  | .documentStart => false
  | .documentEnd => false
  | _ => true

def documentContent? (tokens : Rest) : Option (Node × Rest) :=
  match tokens with
  | [] => some (.empty, [])
  | token :: _ =>
      if opensContent token then node? (fuelFor tokens) .block tokens
      else some (.empty, tokens)

/-- The document in front.  Directives must be followed by the mark of its start. -/
def documentInFront? (tokens : Rest) : Option (Node × Rest) :=
  match tokens.dropWhile (· = .directive) with
  | .documentStart :: rest => documentContent? rest
  | rest => if rest.length = tokens.length then node? (fuelFor tokens) .block tokens else none

def document? (text : String) : Option (Option Node) := do
  let tokens ← tokens? text.toList
  if tokens.isEmpty then return none
  let (found, rest) ← documentInFront? tokens
  if (rest.dropWhile (· = .documentEnd)).isEmpty then some (some found) else none

end BuilderCalls.Yaml
