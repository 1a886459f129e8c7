import BuilderCalls.Json.Basic
import BuilderCalls.Number.Text

/-!
# JSON texts

`Json.compact` writes a value without blanks, `Json.pretty` with one item a line
and two spaces for each level.  Quotes, backslashes and characters below `U+0020`
are escaped; every other character stands for itself.
-/

namespace BuilderCalls

def hexText (width value : Nat) : List Char :=
  let digits := Nat.toDigits 16 value
  List.replicate (width - digits.length) '0' ++ digits

namespace Json

def escapeChar (char : Char) : List Char :=
  if char = '"' then ['\\', '"']
  else if char = '\\' then ['\\', '\\']
  else if char = '\n' then ['\\', 'n']
  else if char = '\r' then ['\\', 'r']
  else if char = '\t' then ['\\', 't']
  else if char = '\x08' then ['\\', 'b']
  else if char = '\x0c' then ['\\', 'f']
  else if char.toNat < 0x20 then '\\' :: 'u' :: hexText 4 char.toNat
  else [char]

def quoted (text : String) : List Char :=
  '"' :: text.toList.flatMap escapeChar ++ ['"']

def numberText : Number → List Char
  | .integer value _ => intText value
  | .double value _ => value.jsonText

def boolText (value : Bool) : List Char :=
  if value then "true".toList else "false".toList

mutual

def compact : Json → List Char
  | .null => "null".toList
  | .bool value => boolText value
  | .number value => numberText value
  | .string value => quoted value
  | .array [] => ['[', ']']
  | .array (item :: items) => '[' :: compact item ++ compactItems items
  | .object [] => ['\x7b', '\x7d']
  | .object ((key, value) :: members) =>
      '\x7b' :: quoted key ++ ':' :: compact value ++ compactMembers members
termination_by structural value => value

def compactItems : List Json → List Char
  | [] => [']']
  | item :: items => ',' :: compact item ++ compactItems items
termination_by structural items => items

def compactMembers : Members → List Char
  | [] => ['\x7d']
  | (key, value) :: members =>
      ',' :: quoted key ++ ':' :: compact value ++ compactMembers members
termination_by structural members => members

end

def newline (level : Nat) : List Char :=
  '\n' :: List.replicate (2 * level) ' '

mutual

def indented (level : Nat) : Json → List Char
  | .array [] => ['[', ']']
  | .array (item :: items) =>
      '[' :: newline (level + 1) ++ indented (level + 1) item ++
        indentedItems level items
  | .object [] => ['\x7b', '\x7d']
  | .object ((key, value) :: members) =>
      '\x7b' :: newline (level + 1) ++ quoted key ++ ':' :: ' ' ::
        indented (level + 1) value ++ indentedMembers level members
  | .null => "null".toList
  | .bool value => boolText value
  | .number value => numberText value
  | .string value => quoted value
termination_by structural value => value

def indentedItems (level : Nat) : List Json → List Char
  | [] => newline level ++ [']']
  | item :: items =>
      ',' :: newline (level + 1) ++ indented (level + 1) item ++
        indentedItems level items
termination_by structural items => items

def indentedMembers (level : Nat) : Members → List Char
  | [] => newline level ++ ['\x7d']
  | (key, value) :: members =>
      ',' :: newline (level + 1) ++ quoted key ++ ':' :: ' ' ::
        indented (level + 1) value ++ indentedMembers level members
termination_by structural members => members

end

def pretty (value : Json) : List Char :=
  indented 0 value

def compactText (value : Json) : String :=
  String.ofList value.compact

def prettyText (value : Json) : String :=
  String.ofList value.pretty

end Json

end BuilderCalls
