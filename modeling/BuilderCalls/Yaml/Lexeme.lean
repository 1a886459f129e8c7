import BuilderCalls.Yaml.BlockScalar

/-!
# YAML lexemes

The lexeme that the scanner is inside of between two characters.  Collected text is
held in reverse.
-/

namespace BuilderCalls.Yaml

/-- Blanks or line breaks inside a scalar, which count only if more text follows. -/
inductive Gap where
  | none
  /-- In reverse. -/
  | blanks (chars : List Char)
  /-- The first break, unless it was escaped, and the further ones in reverse. -/
  | lines (first : Option Char) (more : List Char)

def Gap.folded : Gap → List Char
  | .none => []
  | .blanks chars => chars
  | .lines (some '\n') [] => [' ']
  | .lines (some '\n') more => more
  | .lines (some other) more => more ++ [other]
  | .lines Option.none more => more

def Gap.addBlank (gap : Gap) (char : Char) : Gap :=
  match gap with
  | .none => .blanks [char]
  | .blanks chars => .blanks (char :: chars)
  | .lines first more => .lines first more

def Gap.addBreak (gap : Gap) (char : Char) : Gap :=
  match gap with
  | .lines first more => .lines first (char :: more)
  | _ => .lines (some char) []

def Gap.spansLines : Gap → Bool
  | .lines _ _ => true
  | _ => false

def escapes : List (Char × Char) :=
  [('0', '\x00'), ('a', '\x07'), ('b', '\x08'), ('t', '\t'), ('\t', '\t'), ('n', '\n'),
   ('v', '\x0b'), ('f', '\x0c'), ('r', '\r'), ('e', '\x1b'), (' ', ' '), ('"', '"'),
   ('/', '/'), ('\\', '\\'), ('N', '\x85'), ('_', '\xa0'), ('L', '\u2028'), ('P', '\u2029')]

def codeLength? (char : Char) : Option Nat :=
  if char = 'x' then some 2
  else if char = 'u' then some 4
  else if char = 'U' then some 8
  else none

inductive Lexeme where
  | none
  | marker (remaining : Nat)
  | comment
  | directive (text : List Char)
  | anchor (isAlias : Bool) (name : List Char)
  | tag (text : List Char)
  | plain (text : List Char) (gap : Gap)
  | single (text : List Char) (gap : Gap)
  | doubled (text : List Char)
  | double (text : List Char) (gap : Gap)
  | escape (text : List Char)
  | code (text : List Char) (remaining value : Nat)
  | blockHeader (header : BlockHeader)
  | blockMargin (scalar : BlockScalar)
  | blockLine (scalar : BlockScalar)

end BuilderCalls.Yaml
