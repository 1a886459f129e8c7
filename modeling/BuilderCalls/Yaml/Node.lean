import BuilderCalls.Yaml.Token

/-!
# YAML nodes

Nodes are read from tokens by descent.  Keys and values that are missing are empty
plain scalars.

In the pair that a `key` token opens in a flow sequence a missing key takes up the
token in its place, be it a colon, a comma or the closing bracket.
-/

namespace BuilderCalls.Yaml

inductive Node where
  | scalar (text : String) (plain : Bool) (tag : Option String)
  | sequence (items : List Node)
  | mapping (pairs : List (Node × Node))
  | anchored (number : Nat) (node : Node)
  | alias (number : Nat)

namespace Node

def empty : Node := .scalar "" true none

mutual

def anchors : Node → List (Nat × Node)
  | .anchored number node => (number, node) :: anchors node
  | .sequence items => anchorsOfItems items
  | .mapping pairs => anchorsOfPairs pairs
  | .scalar _ _ _ => []
  | .alias _ => []
termination_by structural node => node

def anchorsOfItems : List Node → List (Nat × Node)
  | [] => []
  | item :: items => anchors item ++ anchorsOfItems items
termination_by structural items => items

def anchorsOfPairs : List (Node × Node) → List (Nat × Node)
  | [] => []
  | (key, value) :: pairs => anchors key ++ anchors value ++ anchorsOfPairs pairs
termination_by structural pairs => pairs

end

/-- The node itself, without its anchor and in place of an alias for it. -/
def follow (root : Node) : Node → Node
  | .anchored _ node => node
  | .alias number => (root.anchors.reverse.lookup number).getD .empty
  | node => node

end Node

abbrev Rest := List Token

/-- Where a node stands, which decides what it may be. -/
inductive Place where
  | flow
  | block
  /-- A key or value of a block mapping, where a sequence needs no indentation. -/
  | blockPart
  deriving DecidableEq

structure Properties where
  anchor : Option Nat
  tag : Option String

namespace Properties

def read : Rest → Properties × Rest
  | .anchor number :: .tag name :: rest => (⟨some number, some name⟩, rest)
  | .tag name :: .anchor number :: rest => (⟨some number, some name⟩, rest)
  | .anchor number :: rest => (⟨some number, none⟩, rest)
  | .tag name :: rest => (⟨none, some name⟩, rest)
  | rest => (⟨none, none⟩, rest)

def attach (properties : Properties) (node : Node) : Node :=
  match properties.anchor with
  | some number => .anchored number node
  | none => node

def scalar (properties : Properties) (text : String) (plain : Bool) : Node :=
  properties.attach (.scalar text plain (properties.tag.filter (· != "!")))

end Properties

def endsBlockPart : Token → Bool
  | .key => true
  | .value => true
  | .blockEnd => true
  | _ => false

def endsFlowPart (closing token : Token) : Bool :=
  token = .flowEntry || token = closing

mutual

/-- Reads a node; `fuel` bounds the number of tokens looked at. -/
def node? (fuel : Nat) (place : Place) (tokens : Rest) : Option (Node × Rest) :=
  match fuel with
  | 0 => none
  | fuel + 1 =>
      match tokens with
      | .alias number :: rest => some (.alias number, rest)
      | tokens =>
          let (properties, rest) := Properties.read tokens
          content? fuel place properties rest

def content? (fuel : Nat) (place : Place) (properties : Properties) (tokens : Rest) :
    Option (Node × Rest) :=
  match fuel with
  | 0 => none
  | fuel + 1 =>
      let sequence := fun (items, rest) => (properties.attach (.sequence items), rest)
      let mapping := fun (pairs, rest) => (properties.attach (.mapping pairs), rest)
      match tokens with
      | .scalar text plain :: rest => some (properties.scalar text plain, rest)
      | .flowSequence :: rest => (flowItems? fuel true rest).map sequence
      | .flowMapping :: rest => (flowPairs? fuel true rest).map mapping
      | token :: rest =>
          if token = .blockEntry && place = .blockPart then
            (blockItems? fuel true tokens).map sequence
          else if token = .blockSequence && place ≠ .flow then
            (blockItems? fuel false rest).map sequence
          else if token = .blockMapping && place ≠ .flow then
            (blockPairs? fuel rest).map mapping
          else bare? properties tokens
      | [] => bare? properties tokens

def bare? (properties : Properties) (tokens : Rest) : Option (Node × Rest) :=
  if properties.anchor.isNone && properties.tag.isNone then none
  else some (properties.scalar "" true, tokens)

def blockPart? (fuel : Nat) (tokens : Rest) : Option (Node × Rest) :=
  match fuel with
  | 0 => none
  | fuel + 1 =>
      match tokens with
      | token :: _ =>
          if endsBlockPart token then some (.empty, tokens) else node? fuel .blockPart tokens
      | [] => none

def blockPairs? (fuel : Nat) (tokens : Rest) : Option (List (Node × Node) × Rest) :=
  match fuel with
  | 0 => none
  | fuel + 1 =>
      match tokens with
      | .blockEnd :: rest => some ([], rest)
      | .key :: rest => do
          let (key, rest) ← blockPart? fuel rest
          let (value, rest) ←
            match rest with
            | .value :: rest => blockPart? fuel rest
            | rest => some (.empty, rest)
          let (pairs, rest) ← blockPairs? fuel rest
          return ((key, value) :: pairs, rest)
      | _ => none

/-- The items of a block sequence; an indentless one has no end of its own. -/
def blockItems? (fuel : Nat) (indentless : Bool) (tokens : Rest) : Option (List Node × Rest) :=
  match fuel with
  | 0 => none
  | fuel + 1 =>
      match tokens with
      | .blockEntry :: rest => do
          let (item, rest) ←
            match rest with
            | .blockEntry :: _ => some (.empty, rest)
            | token :: _ =>
                if token = .blockEnd || (indentless && endsBlockPart token) then
                  some (.empty, rest)
                else node? fuel .block rest
            | [] => none
          let (items, rest) ← blockItems? fuel indentless rest
          return (item :: items, rest)
      | .blockEnd :: rest => some ([], if indentless then tokens else rest)
      | _ => if indentless then some ([], tokens) else none

/-- Skips the comma that must stand between the entries of a flow collection. -/
def flowItems? (fuel : Nat) (first : Bool) (tokens : Rest) : Option (List Node × Rest) :=
  match fuel with
  | 0 => none
  | fuel + 1 =>
      match first, tokens with
      | _, .flowSequenceEnd :: rest => some ([], rest)
      | false, .flowEntry :: .flowSequenceEnd :: rest => some ([], rest)
      | false, .flowEntry :: rest => flowItemsFrom? fuel rest
      | true, rest => flowItemsFrom? fuel rest
      | _, _ => none

def flowItemsFrom? (fuel : Nat) (tokens : Rest) : Option (List Node × Rest) :=
  match fuel with
  | 0 => none
  | fuel + 1 => do
      let (item, rest) ←
        match tokens with
        | .key :: rest => do
            let (key, rest) ← itemKey? fuel rest
            let (value, rest) ← flowValue? fuel .flowSequenceEnd rest
            some (Node.mapping [(key, value)], rest)
        | _ => node? fuel .flow tokens
      let (items, rest) ← flowItems? fuel false rest
      return (item :: items, rest)

/-- The key of a pair in a flow sequence, or the token in place of a missing one. -/
def itemKey? (fuel : Nat) (tokens : Rest) : Option (Node × Rest) :=
  match fuel with
  | 0 => none
  | fuel + 1 =>
      match tokens with
      | .value :: rest => some (.empty, rest)
      | .flowEntry :: rest => some (.empty, rest)
      | .flowSequenceEnd :: rest => some (.empty, rest)
      | tokens => node? fuel .flow tokens

def flowValue? (fuel : Nat) (closing : Token) (tokens : Rest) : Option (Node × Rest) :=
  match fuel with
  | 0 => none
  | fuel + 1 =>
      match tokens with
      | .value :: token :: rest =>
          if endsFlowPart closing token then some (.empty, token :: rest)
          else node? fuel .flow (token :: rest)
      | .value :: [] => none
      | tokens => some (.empty, tokens)

def flowPairs? (fuel : Nat) (first : Bool) (tokens : Rest) :
    Option (List (Node × Node) × Rest) :=
  match fuel with
  | 0 => none
  | fuel + 1 =>
      match first, tokens with
      | _, .flowMappingEnd :: rest => some ([], rest)
      | false, .flowEntry :: .flowMappingEnd :: rest => some ([], rest)
      | false, .flowEntry :: rest => flowPairsFrom? fuel rest
      | true, rest => flowPairsFrom? fuel rest
      | _, _ => none

def flowPairsFrom? (fuel : Nat) (tokens : Rest) : Option (List (Node × Node) × Rest) :=
  match fuel with
  | 0 => none
  | fuel + 1 => do
      let (pair, rest) ←
        match tokens with
        | .key :: rest => do
            let (key, rest) ← flowKey? fuel rest
            let (value, rest) ← flowValue? fuel .flowMappingEnd rest
            some ((key, value), rest)
        | tokens => (node? fuel .flow tokens).map fun (key, rest) => ((key, Node.empty), rest)
      let (pairs, rest) ← flowPairs? fuel false rest
      return (pair :: pairs, rest)

def flowKey? (fuel : Nat) (tokens : Rest) : Option (Node × Rest) :=
  match fuel with
  | 0 => none
  | fuel + 1 =>
      match tokens with
      | token :: _ =>
          if token = .value || endsFlowPart .flowMappingEnd token then some (.empty, tokens)
          else node? fuel .flow tokens
      | [] => none

end

end BuilderCalls.Yaml
