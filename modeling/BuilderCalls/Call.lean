import BuilderCalls.Number.Double
import BuilderCalls.Signature

/-!
# Builder calls

A call names the node type to build and gives its builder positional arguments.
Arguments are generic in what stands for a nested node: `Arg Call` in a call whose
children are calls, `Arg Json` once the children have been built as JSON.
-/

namespace BuilderCalls

inductive Literal where
  | string (value : String)
  | number (value : Double)
  | boolean (value : Bool)
  | null
  | regexp (pattern flags : String)
  /-- Decimal digits without the `n` that ends them in source text. -/
  | bigint (digits : String)
  deriving DecidableEq

namespace Literal

inductive Kind where
  | string
  | number
  | boolean
  | null
  | regexp
  | bigint
  deriving DecidableEq

def Kind.name : Kind → String
  | .string => "string"
  | .number => "number"
  | .boolean => "boolean"
  | .null => "null"
  | .regexp => "regexp"
  | .bigint => "bigint"

def kind : Literal → Kind
  | .string _ => .string
  | .number _ => .number
  | .boolean _ => .boolean
  | .null => .null
  | .regexp _ _ => .regexp
  | .bigint _ => .bigint

end Literal

inductive Arg (ν : Type) where
  /-- No value in an optional slot, or a hole in a list. -/
  | null
  | bool (value : Bool)
  | string (value : String)
  | literal (value : Literal)
  | node (value : ν)
  | list (items : List (Arg ν))
  | template (cooked : Option String) (raw : String)

namespace Arg

inductive Kind where
  | null
  | boolean
  | string
  | literal
  | node
  | list
  | template
  deriving DecidableEq

def Kind.name : Kind → String
  | .null => "null"
  | .boolean => "boolean"
  | .string => "string"
  | .literal => "literal value"
  | .node => "node"
  | .list => "list"
  | .template => "template value"

variable {ν : Type}

def kind : Arg ν → Kind
  | .null => .null
  | .bool _ => .boolean
  | .string _ => .string
  | .literal _ => .literal
  | .node _ => .node
  | .list _ => .list
  | .template _ _ => .template

def optional : Option ν → Arg ν
  | none => .null
  | some value => .node value

def nodes (values : List ν) : Arg ν :=
  .list (values.map .node)

def sparse (values : List (Option ν)) : Arg ν :=
  .list (values.map optional)

def node? : Arg ν → Option ν
  | .node value => some value
  | _ => none

def isNode (arg : Arg ν) : Bool :=
  arg.kind = .node

def isNodeOrNull (arg : Arg ν) : Bool :=
  arg.kind = .node || arg.kind = .null

/-- Whether the argument may stand in a slot of the kind. -/
def fits (kind : SlotKind) (arg : Arg ν) : Bool :=
  match kind, arg with
  | .name, .string _ => true
  | .keyword words, .string word => words.contains word
  | .flag, .bool _ => true
  | .child, .node _ => true
  | .optionalChild, arg => arg.isNodeOrNull
  | .legacyChild, arg => arg.isNodeOrNull
  | .childList, .list items => items.all isNode
  | .sparseList, .list items => items.all isNodeOrNull
  | .literalValue, .literal _ => true
  | .templateValue, .template _ _ => true
  | _, _ => false

def children : Arg ν → List ν
  | .node value => [value]
  | .list items => items.filterMap node?
  | _ => []

end Arg

inductive Call where
  | mk (nodeType : NodeType) (args : List (Arg Call))

namespace Call

def nodeType : Call → NodeType
  | mk nodeType _ => nodeType

def args : Call → List (Arg Call)
  | mk _ args => args

def builder (call : Call) : String :=
  call.nodeType.builder

/-- The nested calls in argument order, list elements included. -/
def children (call : Call) : List Call :=
  call.args.flatMap Arg.children

def arg? (call : Call) (field : String) : Option (Arg Call) := do
  let place ← call.nodeType.slots.findIdx? fun slot => slot.field == field
  call.args[place]?

end Call

/-! ## Equality of calls -/

mutual

def Call.decEq : (left right : Call) → Decidable (left = right)
  | .mk leftType leftArgs, .mk rightType rightArgs =>
      if sameType : leftType = rightType then
        match Call.decEqArgs leftArgs rightArgs with
        | isTrue sameArgs => isTrue (by rw [sameType, sameArgs])
        | isFalse differ => isFalse (by rintro ⟨⟩; exact differ rfl)
      else isFalse (by rintro ⟨⟩; exact sameType rfl)
termination_by structural left => left

def Call.decEqArg : (left right : Arg Call) → Decidable (left = right)
  | .node left, .node right =>
      match Call.decEq left right with
      | isTrue same => isTrue (by rw [same])
      | isFalse differ => isFalse (by rintro ⟨⟩; exact differ rfl)
  | .list left, .list right =>
      match Call.decEqArgs left right with
      | isTrue same => isTrue (by rw [same])
      | isFalse differ => isFalse (by rintro ⟨⟩; exact differ rfl)
  | .null, .null => isTrue rfl
  | .bool left, .bool right => decidable_of_iff (left = right) (by simp)
  | .string left, .string right => decidable_of_iff (left = right) (by simp)
  | .literal left, .literal right => decidable_of_iff (left = right) (by simp)
  | .template leftCooked leftRaw, .template rightCooked rightRaw =>
      decidable_of_iff (leftCooked = rightCooked ∧ leftRaw = rightRaw) (by simp)
  | .null, .bool _ | .null, .string _ | .null, .literal _ | .null, .node _
  | .null, .list _ | .null, .template _ _ => isFalse nofun
  | .bool _, .null | .bool _, .string _ | .bool _, .literal _ | .bool _, .node _
  | .bool _, .list _ | .bool _, .template _ _ => isFalse nofun
  | .string _, .null | .string _, .bool _ | .string _, .literal _ | .string _, .node _
  | .string _, .list _ | .string _, .template _ _ => isFalse nofun
  | .literal _, .null | .literal _, .bool _ | .literal _, .string _ | .literal _, .node _
  | .literal _, .list _ | .literal _, .template _ _ => isFalse nofun
  | .node _, .null | .node _, .bool _ | .node _, .string _ | .node _, .literal _
  | .node _, .list _ | .node _, .template _ _ => isFalse nofun
  | .list _, .null | .list _, .bool _ | .list _, .string _ | .list _, .literal _
  | .list _, .node _ | .list _, .template _ _ => isFalse nofun
  | .template _ _, .null | .template _ _, .bool _ | .template _ _, .string _
  | .template _ _, .literal _ | .template _ _, .node _ | .template _ _, .list _ =>
      isFalse nofun
termination_by structural left => left

def Call.decEqArgs : (left right : List (Arg Call)) → Decidable (left = right)
  | [], [] => isTrue rfl
  | [], _ :: _ => isFalse nofun
  | _ :: _, [] => isFalse nofun
  | left :: lefts, right :: rights =>
      match Call.decEqArg left right, Call.decEqArgs lefts rights with
      | isTrue same, isTrue rest => isTrue (by rw [same, rest])
      | isFalse differ, _ => isFalse (by rintro ⟨⟩; exact differ rfl)
      | _, isFalse differ => isFalse (by rintro ⟨⟩; exact differ rfl)
termination_by structural left => left

end

instance : DecidableEq Call := Call.decEq

end BuilderCalls
