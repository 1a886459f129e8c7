import BuilderCalls.Yaml.Character

/-!
# Block scalars

A block scalar is all that stands deeper than the collection around it.  Its first
line with text fixes the indentation unless the header does.  A literal scalar keeps
its line breaks; a folded one joins its lines, except those that begin with a blank.
-/

namespace BuilderCalls.Yaml

inductive Chomping where
  | strip
  | clip
  | keep
  deriving DecidableEq

structure BlockHeader where
  literal : Bool
  chomping : Option Chomping
  /-- The indentation beyond that of the collection around; zero is none. -/
  increment : Nat
  ended : Bool
  comment : Bool

namespace BlockHeader

def start (literal : Bool) : BlockHeader :=
  ⟨literal, none, 0, false, false⟩

def chomp? (header : BlockHeader) (chomping : Chomping) : Option BlockHeader :=
  if header.chomping.isNone then some { header with chomping := some chomping } else none

def add? (header : BlockHeader) (char : Char) : Option BlockHeader :=
  if header.comment then some header
  else if char = '#' then some { header with comment := true }
  else if isBlank char then some { header with ended := true }
  else if header.ended then none
  else if char = '-' then header.chomp? .strip
  else if char = '+' then header.chomp? .keep
  else if char.isDigit && char ≠ '0' && header.increment = 0 then
    some { header with increment := char.toNat - 48 }
  else none

end BlockHeader

structure BlockScalar where
  literal : Bool
  chomping : Chomping
  indent : Option Nat
  least : Nat
  /-- The deepest column reached by blanks before the first line with text. -/
  deepest : Nat
  text : List Char
  lineBreak : Option Char
  /-- The breaks of the empty lines behind the last; in reverse, as the text is. -/
  emptyLines : List Char
  indented : Bool

namespace BlockScalar

def ofHeader (header : BlockHeader) (column : Option Nat) : BlockScalar :=
  let indent := if header.increment = 0 then none else some (column.getD 0 + header.increment)
  let least :=
    match column with
    | some column => column + 1
    | none => 1
  ⟨header.literal, header.chomping.getD .clip, indent, least, 0, [], none, [], false⟩

def inIndentation (scalar : BlockScalar) (column : Nat) : Bool :=
  match scalar.indent with
  | some indent => column < indent
  | none => true

def reach (scalar : BlockScalar) (column : Nat) : BlockScalar :=
  { scalar with deepest := max scalar.deepest column }

/-- Fixes the indentation at the latest when a line with text is reached. -/
def settle (scalar : BlockScalar) : BlockScalar :=
  { scalar with indent := some (scalar.indent.getD (max scalar.deepest scalar.least)) }

def addEmptyLine (scalar : BlockScalar) (char : Char) : BlockScalar :=
  { scalar with emptyLines := char :: scalar.emptyLines }

def joint (scalar : BlockScalar) (indented : Bool) : List Char :=
  if !scalar.literal && scalar.lineBreak = some '\n' && !scalar.indented && !indented then
    if scalar.emptyLines.isEmpty then [' '] else scalar.emptyLines
  else scalar.emptyLines ++ scalar.lineBreak.toList

def beginLine (scalar : BlockScalar) (char : Char) : BlockScalar :=
  let indented := isBlank char
  { scalar with
    text := char :: (scalar.joint indented ++ scalar.text)
    lineBreak := none
    emptyLines := []
    indented := indented }

def addChar (scalar : BlockScalar) (char : Char) : BlockScalar :=
  { scalar with text := char :: scalar.text }

def endLine (scalar : BlockScalar) (char : Char) : BlockScalar :=
  { scalar with lineBreak := some char }

def content (scalar : BlockScalar) : List Char :=
  let ending :=
    match scalar.chomping with
    | .strip => []
    | .clip => scalar.lineBreak.toList
    | .keep => scalar.emptyLines ++ scalar.lineBreak.toList
  (ending ++ scalar.text).reverse

end BlockScalar

end BuilderCalls.Yaml
