import BuilderCalls.NodeType

/-!
# Signatures

A signature lists the slots of a node type in the order in which its builder takes
them.  A slot names the field of the node that it carries and the kind of value the
field holds.  Everything that reads, checks, builds or writes nodes goes by these
lists; there is no rule for a single node type elsewhere, apart from the constant
fields of arrow functions.
-/

namespace BuilderCalls

inductive SlotKind where
  | name
  | keyword (words : List String)
  /-- A boolean that is false when absent. -/
  | flag
  | child
  | optionalChild
  /-- An optional child that parsers stopped emitting; it is only built when present. -/
  | legacyChild
  | childList
  | sparseList
  | literalValue
  | templateValue
  deriving DecidableEq

namespace SlotKind

def description : SlotKind → String
  | .name => "string"
  | .keyword _ => "keyword"
  | .flag => "boolean"
  | .child => "node"
  | .optionalChild => "node or null"
  | .legacyChild => "node or null"
  | .childList => "node list"
  | .sparseList => "node list with holes"
  | .literalValue => "literal value"
  | .templateValue => "template value"

def isOptional : SlotKind → Bool
  | .optionalChild => true
  | .legacyChild => true
  | _ => false

def isList : SlotKind → Bool
  | .childList => true
  | .sparseList => true
  | _ => false

def holdsNodes : SlotKind → Bool
  | .child => true
  | .optionalChild => true
  | .legacyChild => true
  | .childList => true
  | .sparseList => true
  | _ => false

/-- What follows the field name in the text of a signature. -/
def mark (kind : SlotKind) : String :=
  if kind.isOptional then "?" else if kind.isList then "[]" else ""

end SlotKind

structure Slot where
  field : String
  kind : SlotKind
  deriving DecidableEq

namespace Slot

def name (field : String) : Slot := ⟨field, .name⟩
def keyword (field : String) (words : List String) : Slot := ⟨field, .keyword words⟩
def flag (field : String) : Slot := ⟨field, .flag⟩
def child (field : String) : Slot := ⟨field, .child⟩
def optionalChild (field : String) : Slot := ⟨field, .optionalChild⟩
def legacyChild (field : String) : Slot := ⟨field, .legacyChild⟩
def childList (field : String) : Slot := ⟨field, .childList⟩
def sparseList (field : String) : Slot := ⟨field, .sparseList⟩
def literalValue (field : String) : Slot := ⟨field, .literalValue⟩
def templateValue (field : String) : Slot := ⟨field, .templateValue⟩

end Slot

/-! ## Keywords -/

def declarationKinds : List String :=
  ["var", "let", "const", "using", "await using"]

def propertyKinds : List String :=
  ["init", "get", "set"]

def methodKinds : List String :=
  ["constructor", "method", "get", "set"]

def unaryOperators : List String :=
  ["-", "+", "!", "~", "typeof", "void", "delete"]

def updateOperators : List String :=
  ["++", "--"]

def binaryOperators : List String :=
  ["==", "!=", "===", "!==", "<", "<=", ">", ">=", "<<", ">>", ">>>", "+", "-", "*", "/",
   "%", "**", "|", "^", "&", "in", "instanceof"]

def logicalOperators : List String :=
  ["||", "&&", "??"]

def assignmentOperators : List String :=
  ["=", "+=", "-=", "*=", "/=", "%=", "**=", "<<=", ">>=", ">>>=", "|=", "^=", "&=",
   "||=", "&&=", "??="]

/-! ## The signatures -/

namespace NodeType

open Slot

def functionSlots : List Slot :=
  [optionalChild "id", childList "params", child "body", flag "generator",
   flag "expression", flag "async"]

def classSlots : List Slot :=
  [optionalChild "id", child "body", optionalChild "superClass"]

def slots : NodeType → List Slot
  | .identifier => [name "name"]
  | .literal => [literalValue "value"]
  | .thisExpression => []
  | .super => []
  | .arrayExpression => [sparseList "elements"]
  | .objectExpression => [childList "properties"]
  | .property =>
      [keyword "kind" propertyKinds, child "key", child "value",
       flag "method", flag "shorthand", flag "computed"]
  | .spreadElement => [child "argument"]
  | .functionExpression => functionSlots
  | .arrowFunctionExpression =>
      [childList "params", child "body", flag "expression", flag "async"]
  | .classExpression => classSlots
  | .callExpression => [child "callee", childList "arguments", flag "optional"]
  | .newExpression => [child "callee", childList "arguments"]
  | .memberExpression =>
      [child "object", child "property", flag "computed", flag "optional"]
  | .chainExpression => [child "expression"]
  | .assignmentExpression =>
      [keyword "operator" assignmentOperators, child "left", child "right"]
  | .logicalExpression => [keyword "operator" logicalOperators, child "left", child "right"]
  | .binaryExpression => [keyword "operator" binaryOperators, child "left", child "right"]
  | .conditionalExpression => [child "test", child "consequent", child "alternate"]
  | .unaryExpression => [keyword "operator" unaryOperators, child "argument", flag "prefix"]
  | .updateExpression =>
      [keyword "operator" updateOperators, child "argument", flag "prefix"]
  | .sequenceExpression => [childList "expressions"]
  | .yieldExpression => [optionalChild "argument", flag "delegate"]
  | .awaitExpression => [child "argument"]
  | .templateLiteral => [childList "quasis", childList "expressions"]
  | .templateElement => [templateValue "value", flag "tail"]
  | .taggedTemplateExpression => [child "tag", child "quasi"]
  | .metaProperty => [child "meta", child "property"]
  | .importExpression => [child "source"]
  | .restElement => [child "argument"]
  | .arrayPattern => [sparseList "elements"]
  | .objectPattern => [childList "properties"]
  | .assignmentPattern => [child "left", child "right"]
  | .functionDeclaration => functionSlots
  | .classDeclaration => classSlots
  | .classBody => [childList "body"]
  | .methodDefinition =>
      [keyword "kind" methodKinds, child "key", child "value", flag "static", flag "computed"]
  | .propertyDefinition =>
      [child "key", optionalChild "value", flag "computed", flag "static"]
  | .staticBlock => [childList "body"]
  | .variableDeclaration => [keyword "kind" declarationKinds, childList "declarations"]
  | .variableDeclarator => [child "id", optionalChild "init"]
  | .importDeclaration => [childList "specifiers", child "source"]
  | .importSpecifier => [child "imported", child "local"]
  | .importDefaultSpecifier => [child "local"]
  | .importNamespaceSpecifier => [child "local"]
  | .exportDefaultDeclaration => [child "declaration"]
  | .exportNamedDeclaration =>
      [optionalChild "declaration", childList "specifiers", optionalChild "source"]
  | .exportSpecifier => [child "local", child "exported"]
  | .exportAllDeclaration => [child "source", optionalChild "exported"]
  | .expressionStatement => [child "expression"]
  | .blockStatement => [childList "body"]
  | .emptyStatement => []
  | .debuggerStatement => []
  | .returnStatement => [optionalChild "argument"]
  | .throwStatement => [child "argument"]
  | .breakStatement => [optionalChild "label"]
  | .continueStatement => [optionalChild "label"]
  | .labeledStatement => [child "label", child "body"]
  | .withStatement => [child "object", child "body"]
  | .ifStatement => [child "test", child "consequent", optionalChild "alternate"]
  | .switchStatement => [child "discriminant", childList "cases"]
  | .switchCase => [optionalChild "test", childList "consequent"]
  | .forStatement =>
      [optionalChild "init", optionalChild "test", optionalChild "update", child "body"]
  | .forInStatement => [child "left", child "right", child "body"]
  | .forOfStatement => [child "left", child "right", child "body", flag "await"]
  | .whileStatement => [child "test", child "body"]
  | .doWhileStatement => [child "body", child "test"]
  | .tryStatement => [child "block", optionalChild "handler", optionalChild "finalizer"]
  | .catchClause => [optionalChild "param", legacyChild "guard", child "body"]

def arity (nodeType : NodeType) : Nat :=
  nodeType.slots.length

/--
Fields that a node may carry although no slot holds them.  They must say nothing,
since the builder call would lose them.
-/
def unslottedFields : NodeType → List String
  | .importDeclaration => ["attributes"]
  | .exportNamedDeclaration => ["attributes"]
  | .exportAllDeclaration => ["attributes"]
  | .importExpression => ["options"]
  | _ => []

/-- The builder with its fields, such as `ifStatement(test, consequent, alternate?)`. -/
def signatureText (nodeType : NodeType) : String :=
  let fields := nodeType.slots.map fun slot => slot.field ++ slot.kind.mark
  nodeType.builder ++ "(" ++ ", ".intercalate fields ++ ")"

end NodeType

end BuilderCalls
