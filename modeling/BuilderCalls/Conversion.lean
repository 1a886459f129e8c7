import BuilderCalls.Node
import BuilderCalls.Trace

/-!
# Conversion

`convert` reads a syntax tree as the builder call that rebuilds it.  A node is
judged by its tag, then by its unslotted fields, then slot by slot in the order of
its signature, and the first fault is the failure.

Paths are relative: what happens inside a child is placed `under` the steps that
lead to the child, so a path always starts at the value that was converted.
-/

namespace BuilderCalls

/-- The argument for a slot that holds no nodes; none for the other slots. -/
def Node.scalar? (node : Node) (slot : Slot) : Option (Except Failure (Arg Call)) :=
  match slot.kind with
  | .name => some ((node.string slot.field).map .string)
  | .keyword words => some ((node.keyword slot.field words).map .string)
  | .flag => some ((node.flag slot.field).map .bool)
  | .literalValue => some (node.literal.map .literal)
  | .templateValue =>
      some ((node.template slot.field).map fun (cooked, raw) => .template cooked raw)
  | _ => none

/-- What an absent or null field gives in a slot for nodes. -/
def Node.absent (node : Node) (slot : Slot) : Traced (Arg Call) :=
  if slot.kind.isOptional then pure .null
  else .fail (node.malformed (.missing slot.field))

mutual

def convertValue : Json → Traced Call
  | .object members => do
      let node ← .ofExcept (Node.ofMembers members)
      let nodeType ← .ofExcept node.nodeType
      .record (.converting nodeType [])
      .ofExcept (node.checkUnslotted nodeType)
      let args ← nodeType.slots.mapM fun slot =>
        match node.scalar? slot with
        | some result => .ofExcept result
        | none => convertSlot node slot members
      return .mk nodeType args
  | value => .fail (.malformed Node.unknownTag (.notAnObject value.kind))
termination_by structural value => value

/-- Finds the field of a slot among members and converts the nodes in it. -/
def convertSlot (node : Node) (slot : Slot) : Members → Traced (Arg Call)
  | [] => node.absent slot
  | (key, value) :: rest =>
      if key = slot.field then
        if value.isNull then node.absent slot
        else if slot.kind.isList then
          match value with
          | .array items => Arg.list <$> convertItems node slot 0 items
          | value => .fail (node.malformed (.notAnArray slot.field value.kind))
        else Arg.node <$> (convertValue value).under [.field slot.field]
      else convertSlot node slot rest
termination_by structural members => members

def convertItems (node : Node) (slot : Slot) (index : Nat) :
    List Json → Traced (List (Arg Call))
  | [] => return []
  | item :: items => do
      let arg ←
        if !item.isNull then
          Arg.node <$> (convertValue item).under [.field slot.field, .index index]
        else if slot.kind = .sparseList then pure .null
        else .fail (node.malformed (.hole slot.field index))
      (arg :: ·) <$> convertItems node slot (index + 1) items
termination_by structural items => items

end

/-- The call that rebuilds a value, with the paths of all failures recorded. -/
def convert (value : Json) : Traced Call :=
  (convertValue value).under []

end BuilderCalls
