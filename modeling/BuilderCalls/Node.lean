import BuilderCalls.Failure

/-!
# Nodes

A node is a JSON object with a string `type`.  Nothing else about its shape is
taken for granted: each accessor says what it found instead of what it needed, in a
failure that carries the tag and the position of the node.
-/

namespace BuilderCalls

structure Node where
  tag : String
  members : Members

namespace Node

def unknownTag : String := "<unknown>"

def ofMembers (members : Members) : Except Failure Node :=
  match (members.lookup "type").bind Json.string? with
  | some tag => .ok ⟨tag, members⟩
  | none =>
      .error ((Failure.malformed unknownTag .untagged).atPosition (Position.ofMembers? members))

def ofJson (value : Json) : Except Failure Node :=
  match value with
  | .object members => ofMembers members
  | value => .error (.malformed unknownTag (.notAnObject value.kind))

def position? (node : Node) : Option Position :=
  Position.ofMembers? node.members

def malformed (node : Node) (fault : NodeFault) : Failure :=
  (Failure.malformed node.tag fault).atPosition node.position?

def nodeType (node : Node) : Except Failure NodeType :=
  match NodeType.ofTag? node.tag with
  | some nodeType => .ok nodeType
  | none => .error ((Failure.unsupported node.tag).atPosition node.position?)

/-! ## Fields -/

/-- The field as it stands; none only when there is no such key. -/
def get? (node : Node) (field : String) : Option Json :=
  node.members.lookup field

def optional? (node : Node) (field : String) : Option Json :=
  match node.get? field with
  | none => none
  | some .null => none
  | some value => some value

def required (node : Node) (field : String) : Except Failure Json :=
  match node.optional? field with
  | some value => .ok value
  | none => .error (node.malformed (.missing field))

def string (node : Node) (field : String) : Except Failure String := do
  match ← node.required field with
  | .string value => .ok value
  | value => .error (node.malformed (.notAString field value.kind))

/-- A modifier, false when it is absent or null. -/
def flag (node : Node) (field : String) : Except Failure Bool :=
  match node.optional? field with
  | none => .ok false
  | some (.bool value) => .ok value
  | some value => .error (node.malformed (.notABoolean field value.kind))

def array (node : Node) (field : String) : Except Failure (List Json) := do
  match ← node.required field with
  | .array items => .ok items
  | value => .error (node.malformed (.notAnArray field value.kind))

def keyword (node : Node) (field : String) (words : List String) :
    Except Failure String := do
  let word ← node.string field
  if words.contains word then .ok word
  else .error (node.malformed (.foreignWord field word words))

def regex (node : Node) (value : Json) : Except Failure Literal :=
  match (value.get? "pattern").bind Json.string?, (value.get? "flags").bind Json.string? with
  | some pattern, some flags => .ok (.regexp pattern flags)
  | _, _ => .error (node.malformed .badRegex)

/--
The value of a literal.  A regular expression or a bigint is told by a field of its
own, since its `value` depends on the parser that wrote it.
-/
def literal (node : Node) : Except Failure Literal :=
  match node.optional? "regex", node.optional? "bigint", node.get? "value" with
  | some value, _, _ => node.regex value
  | none, some (.string digits), _ => .ok (.bigint digits)
  | none, some _, _ => .error (node.malformed .badBigint)
  | none, none, none => .error (node.malformed (.missing "value"))
  | none, none, some .null => .ok .null
  | none, none, some (.bool value) => .ok (.boolean value)
  | none, none, some (.string value) => .ok (.string value)
  | none, none, some (.number value) => .ok (.number value.toDouble)
  | none, none, some value => .error (node.malformed (.badValue value.kind))

/-- The raw and the cooked text of a template part; one without cooked text has null. -/
def template (node : Node) (field : String) : Except Failure (Option String × String) := do
  let value ← node.required field
  match (value.get? "raw").bind Json.string? with
  | none => .error (node.malformed (.rawNotAString field))
  | some raw =>
      match value.get? "cooked" with
      | none => .ok (none, raw)
      | some .null => .ok (none, raw)
      | some (.string cooked) => .ok (some cooked, raw)
      | some other => .error (node.malformed (.badCooked field other.kind))

/-- Refuses a node that says something in a field without a slot. -/
def checkUnslotted (node : Node) (nodeType : NodeType) : Except Failure Unit :=
  match nodeType.unslottedFields.find? fun field => (node.get? field).any (!·.isVacant) with
  | some field => .error (node.malformed (.unslotted field nodeType.builder))
  | none => .ok ()

end Node

end BuilderCalls
