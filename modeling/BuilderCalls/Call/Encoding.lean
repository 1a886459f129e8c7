import BuilderCalls.Call
import BuilderCalls.Json.Basic

/-!
# Calls as JSON

A call is an object with its `type` and its `args`.  An argument is an object with
one key that says what it is, or the string `null`; a literal is an object with its
`kind` and its `value`.

Reading is more liberal than writing.  Members come in any order, further ones are
ignored, the two parts of a call or a literal may also stand in an array, and a bare
case may also be an object whose only member is that case with null.
-/

namespace BuilderCalls

namespace Json

/-- A case without data: its name, or an object from the name to null. -/
def bareCase? : Json → Option String
  | .string name => some name
  | .object [(name, .null)] => some name
  | _ => none

def ofDouble (value : Double) : Json :=
  match Number.ofDouble? value with
  | some finite => .number finite
  | none => .null

def stringMember? (value : Json) (key : String) : Option String :=
  (value.get? key).bind string?

end Json

namespace Literal

def payload? : Literal → Option Json
  | .string value => some (.string value)
  | .number value => some (.ofDouble value)
  | .boolean value => some (.bool value)
  | .null => none
  | .regexp pattern flags =>
      some (.object [("pattern", .string pattern), ("flags", .string flags)])
  | .bigint digits => some (.string digits)

def toJson (literal : Literal) : Json :=
  let kind := ("kind", .string literal.kind.name)
  match literal.payload? with
  | some payload => .object [kind, ("value", payload)]
  | none => .object [kind]

def ofPayload? (kind : String) (payload : Json) : Option Literal :=
  if kind = Kind.string.name then payload.string?.map .string
  else if kind = Kind.number.name then payload.number?.map (.number ·.toDouble)
  else if kind = Kind.boolean.name then payload.bool?.map .boolean
  else if kind = Kind.null.name then if payload.isNull then some .null else none
  else if kind = Kind.regexp.name then do
    return .regexp (← payload.stringMember? "pattern") (← payload.stringMember? "flags")
  else if kind = Kind.bigint.name then payload.string?.map .bigint
  else none

def ofJson? : Json → Option Literal
  | .object members => do
      let kind ← (members.lookup "kind").bind Json.bareCase?
      match members.lookup "value" with
      | some payload => ofPayload? kind payload
      | none => if kind = Kind.null.name then some .null else none
  | .array [kind, payload] => do ofPayload? (← kind.bareCase?) payload
  | _ => none

end Literal

/-- An optional string: null and an absent member are the same. -/
def Json.optionalString? (value : Json) (key : String) : Option (Option String) :=
  match value.get? key with
  | none => some none
  | some .null => some none
  | some (.string text) => some (some text)
  | some _ => none

def optionalText : Option String → Json
  | some text => .string text
  | none => .null

namespace Call

mutual

def toJson : Call → Json
  | .mk nodeType args =>
      .object [("type", .string nodeType.tag), ("args", .array (argsToJson args))]
termination_by structural call => call

def argToJson : Arg Call → Json
  | .null => .string "null"
  | .bool value => .object [("bool", .bool value)]
  | .string value => .object [("str", .string value)]
  | .literal value => .object [("literal", value.toJson)]
  | .node call => .object [("node", toJson call)]
  | .list items => .object [("list", .array (argsToJson items))]
  | .template cooked raw =>
      .object [("template", .object [("cooked", optionalText cooked), ("raw", .string raw)])]
termination_by structural arg => arg

def argsToJson : List (Arg Call) → List Json
  | [] => []
  | arg :: args => argToJson arg :: argsToJson args
termination_by structural args => args

end

def template? (value : Json) : Option (Arg Call) := do
  let members ← value.members?
  let cooked ← (Json.object members).optionalString? "cooked"
  return .template cooked (← value.stringMember? "raw")

def typeOfJson? (value : Json) : Option NodeType :=
  value.bareCase?.bind NodeType.ofTag?

mutual

def ofJson? : Json → Option Call
  | .object members => do
      let nodeType ← (members.lookup "type").bind typeOfJson?
      return .mk nodeType (← argsMember? members)
  | .array [tag, .array args] => do
      return .mk (← typeOfJson? tag) (← argsOfJson? args)
  | _ => none
termination_by structural value => value

def argsMember? : Members → Option (List (Arg Call))
  | [] => none
  | (key, value) :: rest =>
      if key = "args" then
        match value with
        | .array args => argsOfJson? args
        | _ => none
      else argsMember? rest
termination_by structural members => members

def argOfJson? : Json → Option (Arg Call)
  | .string name => if name = "null" then some .null else none
  | .object [(key, value)] =>
      if key = "null" then if value.isNull then some .null else none
      else if key = "bool" then value.bool?.map .bool
      else if key = "str" then value.string?.map .string
      else if key = "literal" then (Literal.ofJson? value).map .literal
      else if key = "node" then (ofJson? value).map .node
      else if key = "list" then
        match value with
        | .array items => (argsOfJson? items).map .list
        | _ => none
      else if key = "template" then template? value
      else none
  | _ => none
termination_by structural value => value

def argsOfJson? : List Json → Option (List (Arg Call))
  | [] => some []
  | value :: values => do
      let arg ← argOfJson? value
      return arg :: (← argsOfJson? values)
termination_by structural values => values

end

end Call

end BuilderCalls
