import BuilderCalls.Number.Text

/-!
# Paths

A path leads from a value to a value inside it, by field names and list indices.
Its text has a point before every field but the first, as in
`body[2].declarations[0].init`.
-/

namespace BuilderCalls

inductive Step where
  | field (name : String)
  | index (position : Nat)
  deriving DecidableEq

abbrev Path := List Step

namespace Path

def stepText : Step → List Char
  | .field name => '.' :: name.toList
  | .index position => '[' :: natText position ++ [']']

def chars : Path → List Char
  | .field name :: rest => name.toList ++ rest.flatMap stepText
  | path => path.flatMap stepText

def text (path : Path) : String :=
  String.ofList (chars path)

end Path

end BuilderCalls
