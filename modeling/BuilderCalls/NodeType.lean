/-!
# Node types

The node types of an ESTree syntax tree that have a builder: expressions,
patterns, declarations, module items and statements, in the order in which they
are listed.  A node carries its type as a tag; the builder is called by the tag
with a small first letter.
-/

namespace BuilderCalls

inductive NodeType where
  | identifier
  | literal
  | thisExpression
  | super
  | arrayExpression
  | objectExpression
  | property
  | spreadElement
  | functionExpression
  | arrowFunctionExpression
  | classExpression
  | callExpression
  | newExpression
  | memberExpression
  | chainExpression
  | assignmentExpression
  | logicalExpression
  | binaryExpression
  | conditionalExpression
  | unaryExpression
  | updateExpression
  | sequenceExpression
  | yieldExpression
  | awaitExpression
  | templateLiteral
  | templateElement
  | taggedTemplateExpression
  | metaProperty
  | importExpression
  | restElement
  | arrayPattern
  | objectPattern
  | assignmentPattern
  | functionDeclaration
  | classDeclaration
  | classBody
  | methodDefinition
  | propertyDefinition
  | staticBlock
  | variableDeclaration
  | variableDeclarator
  | importDeclaration
  | importSpecifier
  | importDefaultSpecifier
  | importNamespaceSpecifier
  | exportDefaultDeclaration
  | exportNamedDeclaration
  | exportSpecifier
  | exportAllDeclaration
  | expressionStatement
  | blockStatement
  | emptyStatement
  | debuggerStatement
  | returnStatement
  | throwStatement
  | breakStatement
  | continueStatement
  | labeledStatement
  | withStatement
  | ifStatement
  | switchStatement
  | switchCase
  | forStatement
  | forInStatement
  | forOfStatement
  | whileStatement
  | doWhileStatement
  | tryStatement
  | catchClause
  deriving DecidableEq

namespace NodeType

def all : List NodeType :=
  [.identifier, .literal, .thisExpression, .super, .arrayExpression, .objectExpression,
   .property, .spreadElement, .functionExpression, .arrowFunctionExpression,
   .classExpression, .callExpression, .newExpression, .memberExpression, .chainExpression,
   .assignmentExpression, .logicalExpression, .binaryExpression, .conditionalExpression,
   .unaryExpression, .updateExpression, .sequenceExpression, .yieldExpression,
   .awaitExpression, .templateLiteral, .templateElement, .taggedTemplateExpression,
   .metaProperty, .importExpression, .restElement, .arrayPattern, .objectPattern,
   .assignmentPattern, .functionDeclaration, .classDeclaration, .classBody,
   .methodDefinition, .propertyDefinition, .staticBlock, .variableDeclaration,
   .variableDeclarator, .importDeclaration, .importSpecifier, .importDefaultSpecifier,
   .importNamespaceSpecifier, .exportDefaultDeclaration, .exportNamedDeclaration,
   .exportSpecifier, .exportAllDeclaration, .expressionStatement, .blockStatement,
   .emptyStatement, .debuggerStatement, .returnStatement, .throwStatement, .breakStatement,
   .continueStatement, .labeledStatement, .withStatement, .ifStatement, .switchStatement,
   .switchCase, .forStatement, .forInStatement, .forOfStatement, .whileStatement,
   .doWhileStatement, .tryStatement, .catchClause]

def tag : NodeType → String
  | .identifier => "Identifier"
  | .literal => "Literal"
  | .thisExpression => "ThisExpression"
  | .super => "Super"
  | .arrayExpression => "ArrayExpression"
  | .objectExpression => "ObjectExpression"
  | .property => "Property"
  | .spreadElement => "SpreadElement"
  | .functionExpression => "FunctionExpression"
  | .arrowFunctionExpression => "ArrowFunctionExpression"
  | .classExpression => "ClassExpression"
  | .callExpression => "CallExpression"
  | .newExpression => "NewExpression"
  | .memberExpression => "MemberExpression"
  | .chainExpression => "ChainExpression"
  | .assignmentExpression => "AssignmentExpression"
  | .logicalExpression => "LogicalExpression"
  | .binaryExpression => "BinaryExpression"
  | .conditionalExpression => "ConditionalExpression"
  | .unaryExpression => "UnaryExpression"
  | .updateExpression => "UpdateExpression"
  | .sequenceExpression => "SequenceExpression"
  | .yieldExpression => "YieldExpression"
  | .awaitExpression => "AwaitExpression"
  | .templateLiteral => "TemplateLiteral"
  | .templateElement => "TemplateElement"
  | .taggedTemplateExpression => "TaggedTemplateExpression"
  | .metaProperty => "MetaProperty"
  | .importExpression => "ImportExpression"
  | .restElement => "RestElement"
  | .arrayPattern => "ArrayPattern"
  | .objectPattern => "ObjectPattern"
  | .assignmentPattern => "AssignmentPattern"
  | .functionDeclaration => "FunctionDeclaration"
  | .classDeclaration => "ClassDeclaration"
  | .classBody => "ClassBody"
  | .methodDefinition => "MethodDefinition"
  | .propertyDefinition => "PropertyDefinition"
  | .staticBlock => "StaticBlock"
  | .variableDeclaration => "VariableDeclaration"
  | .variableDeclarator => "VariableDeclarator"
  | .importDeclaration => "ImportDeclaration"
  | .importSpecifier => "ImportSpecifier"
  | .importDefaultSpecifier => "ImportDefaultSpecifier"
  | .importNamespaceSpecifier => "ImportNamespaceSpecifier"
  | .exportDefaultDeclaration => "ExportDefaultDeclaration"
  | .exportNamedDeclaration => "ExportNamedDeclaration"
  | .exportSpecifier => "ExportSpecifier"
  | .exportAllDeclaration => "ExportAllDeclaration"
  | .expressionStatement => "ExpressionStatement"
  | .blockStatement => "BlockStatement"
  | .emptyStatement => "EmptyStatement"
  | .debuggerStatement => "DebuggerStatement"
  | .returnStatement => "ReturnStatement"
  | .throwStatement => "ThrowStatement"
  | .breakStatement => "BreakStatement"
  | .continueStatement => "ContinueStatement"
  | .labeledStatement => "LabeledStatement"
  | .withStatement => "WithStatement"
  | .ifStatement => "IfStatement"
  | .switchStatement => "SwitchStatement"
  | .switchCase => "SwitchCase"
  | .forStatement => "ForStatement"
  | .forInStatement => "ForInStatement"
  | .forOfStatement => "ForOfStatement"
  | .whileStatement => "WhileStatement"
  | .doWhileStatement => "DoWhileStatement"
  | .tryStatement => "TryStatement"
  | .catchClause => "CatchClause"

def ofTag? (tag : String) : Option NodeType :=
  all.find? fun nodeType => nodeType.tag == tag

def lowerFirst (text : String) : String :=
  match text.toList with
  | [] => ""
  | first :: rest => String.ofList (first.toLower :: rest)

def builder (nodeType : NodeType) : String :=
  lowerFirst nodeType.tag

end NodeType

end BuilderCalls
