import BuilderCalls.Json.Basic
import BuilderCalls.Signature

/-!
# Normal form of syntax trees

The normal form leaves out what a parser may or may not write: where a node stood
and how it was spelled, flags that are false, unslotted fields that say nothing, and
the `value` of a regular expression or bigint, which is the parser's own object.
Only objects with a tag are nodes; the data of other objects is kept whole.
-/

namespace BuilderCalls

/-- Keys that say where a node came from or how it was spelled, never what it is. -/
def metadataKeys : List String :=
  ["start", "end", "loc", "range", "raw", "comments", "directive"]

/-- Whether a field holds what its absence would mean. -/
def NodeType.isDefault (nodeType : NodeType) (field : String) (value : Json) : Bool :=
  if nodeType.slots.any fun slot => slot.field == field && slot.kind = .flag then
    match value with
    | .null => true
    | .bool value => !value
    | _ => false
  else nodeType.unslottedFields.contains field && value.isVacant

structure ObjectRole where
  tagged : Bool
  nodeType : Option NodeType
  /-- The node is a regular expression or a bigint. -/
  hasHostValue : Bool

namespace ObjectRole

def ofMembers (members : Members) : ObjectRole :=
  let tag := (members.lookup "type").bind Json.string?
  let nodeType := tag.bind NodeType.ofTag?
  let special := (members.lookup "regex").isSome || (members.lookup "bigint").isSome
  ⟨tag.isSome, nodeType, nodeType = some .literal && special⟩

def drops (role : ObjectRole) (key : String) (value : Json) : Bool :=
  (role.tagged && metadataKeys.contains key) ||
    (role.hasHostValue && key = "value") ||
    role.nodeType.any fun nodeType => nodeType.isDefault key value

end ObjectRole

namespace Json

mutual

def normal : Json → Json
  | .object members => .object (normalMembers (.ofMembers members) members)
  | .array items => .array (normalItems items)
  | value => value
termination_by structural value => value

def normalMembers (role : ObjectRole) : Members → Members
  | [] => []
  | (key, value) :: rest =>
      if role.drops key value then normalMembers role rest
      else (key, normal value) :: normalMembers role rest
termination_by structural members => members

def normalItems : List Json → List Json
  | [] => []
  | item :: items => normal item :: normalItems items
termination_by structural items => items

end

end Json

end BuilderCalls
