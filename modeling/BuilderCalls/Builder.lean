import BuilderCalls.Call

/-!
# Builders

One function for each node type, for calls made by hand.  The arguments come in the
order of the signature, and the call fits it whenever operators and kinds are words
of their slots.
-/

namespace BuilderCalls.Builder

/-! ## Expressions -/

def identifier (name : String) : Call :=
  .mk .identifier [.string name]

def literal (value : Literal) : Call :=
  .mk .literal [.literal value]

def stringLiteral (value : String) : Call :=
  literal (.string value)

def numberLiteral (value : Double) : Call :=
  literal (.number value)

def thisExpression : Call :=
  .mk .thisExpression []

def super : Call :=
  .mk .super []

def arrayExpression (elements : List (Option Call)) : Call :=
  .mk .arrayExpression [.sparse elements]

def objectExpression (properties : List Call) : Call :=
  .mk .objectExpression [.nodes properties]

def property (kind : String) (key value : Call) (method shorthand computed : Bool) : Call :=
  .mk .property
    [.string kind, .node key, .node value,
     .bool method, .bool shorthand, .bool computed]

def spreadElement (argument : Call) : Call :=
  .mk .spreadElement [.node argument]

def functionArgs (id : Option Call) (params : List Call) (body : Call)
    (generator expression isAsync : Bool) : List (Arg Call) :=
  [.optional id, .nodes params, .node body, .bool generator, .bool expression, .bool isAsync]

def functionExpression (id : Option Call) (params : List Call)
    (body : Call) (generator expression isAsync : Bool) : Call :=
  .mk .functionExpression (functionArgs id params body generator expression isAsync)

def arrowFunctionExpression (params : List Call)
    (body : Call) (expression isAsync : Bool) : Call :=
  .mk .arrowFunctionExpression [.nodes params, .node body, .bool expression, .bool isAsync]

def classExpression (id : Option Call) (body : Call) (superClass : Option Call) : Call :=
  .mk .classExpression [.optional id, .node body, .optional superClass]

def callExpression (callee : Call) (arguments : List Call) (optional : Bool) : Call :=
  .mk .callExpression [.node callee, .nodes arguments, .bool optional]

def newExpression (callee : Call) (arguments : List Call) : Call :=
  .mk .newExpression [.node callee, .nodes arguments]

def memberExpression (object property : Call) (computed optional : Bool) : Call :=
  .mk .memberExpression [.node object, .node property, .bool computed, .bool optional]

def chainExpression (expression : Call) : Call :=
  .mk .chainExpression [.node expression]

def assignmentExpression (operator : String) (left right : Call) : Call :=
  .mk .assignmentExpression [.string operator, .node left, .node right]

def logicalExpression (operator : String) (left right : Call) : Call :=
  .mk .logicalExpression [.string operator, .node left, .node right]

def binaryExpression (operator : String) (left right : Call) : Call :=
  .mk .binaryExpression [.string operator, .node left, .node right]

def conditionalExpression (test consequent alternate : Call) : Call :=
  .mk .conditionalExpression [.node test, .node consequent, .node alternate]

def unaryExpression (operator : String) (argument : Call) (isPrefix : Bool) : Call :=
  .mk .unaryExpression [.string operator, .node argument, .bool isPrefix]

def updateExpression (operator : String) (argument : Call) (isPrefix : Bool) : Call :=
  .mk .updateExpression [.string operator, .node argument, .bool isPrefix]

def sequenceExpression (expressions : List Call) : Call :=
  .mk .sequenceExpression [.nodes expressions]

def yieldExpression (argument : Option Call) (delegate : Bool) : Call :=
  .mk .yieldExpression [.optional argument, .bool delegate]

def awaitExpression (argument : Call) : Call :=
  .mk .awaitExpression [.node argument]

def templateLiteral (quasis expressions : List Call) : Call :=
  .mk .templateLiteral [.nodes quasis, .nodes expressions]

def templateElement (cooked : Option String) (raw : String) (tail : Bool) : Call :=
  .mk .templateElement [.template cooked raw, .bool tail]

def taggedTemplateExpression (tag quasi : Call) : Call :=
  .mk .taggedTemplateExpression [.node tag, .node quasi]

def metaProperty (metaName property : Call) : Call :=
  .mk .metaProperty [.node metaName, .node property]

def importExpression (source : Call) : Call :=
  .mk .importExpression [.node source]

/-! ## Patterns -/

def restElement (argument : Call) : Call :=
  .mk .restElement [.node argument]

def arrayPattern (elements : List (Option Call)) : Call :=
  .mk .arrayPattern [.sparse elements]

def objectPattern (properties : List Call) : Call :=
  .mk .objectPattern [.nodes properties]

def assignmentPattern (left right : Call) : Call :=
  .mk .assignmentPattern [.node left, .node right]

/-! ## Declarations -/

def functionDeclaration (id : Option Call) (params : List Call)
    (body : Call) (generator expression isAsync : Bool) : Call :=
  .mk .functionDeclaration (functionArgs id params body generator expression isAsync)

def classDeclaration (id : Option Call) (body : Call) (superClass : Option Call) : Call :=
  .mk .classDeclaration [.optional id, .node body, .optional superClass]

def classBody (body : List Call) : Call :=
  .mk .classBody [.nodes body]

def methodDefinition (kind : String) (key value : Call) (isStatic computed : Bool) : Call :=
  .mk .methodDefinition
    [.string kind, .node key, .node value,
     .bool isStatic, .bool computed]

def propertyDefinition (key : Call) (value : Option Call) (computed isStatic : Bool) : Call :=
  .mk .propertyDefinition [.node key, .optional value, .bool computed, .bool isStatic]

def staticBlock (body : List Call) : Call :=
  .mk .staticBlock [.nodes body]

def variableDeclaration (kind : String) (declarations : List Call) : Call :=
  .mk .variableDeclaration [.string kind, .nodes declarations]

def variableDeclarator (id : Call) (init : Option Call) : Call :=
  .mk .variableDeclarator [.node id, .optional init]

/-! ## Modules -/

def importDeclaration (specifiers : List Call) (source : Call) : Call :=
  .mk .importDeclaration [.nodes specifiers, .node source]

def importSpecifier (imported localName : Call) : Call :=
  .mk .importSpecifier [.node imported, .node localName]

def importDefaultSpecifier (localName : Call) : Call :=
  .mk .importDefaultSpecifier [.node localName]

def importNamespaceSpecifier (localName : Call) : Call :=
  .mk .importNamespaceSpecifier [.node localName]

def exportDefaultDeclaration (declaration : Call) : Call :=
  .mk .exportDefaultDeclaration [.node declaration]

def exportNamedDeclaration (declaration : Option Call)
    (specifiers : List Call) (source : Option Call) : Call :=
  .mk .exportNamedDeclaration [.optional declaration, .nodes specifiers, .optional source]

def exportSpecifier (localName exported : Call) : Call :=
  .mk .exportSpecifier [.node localName, .node exported]

def exportAllDeclaration (source : Call) (exported : Option Call) : Call :=
  .mk .exportAllDeclaration [.node source, .optional exported]

/-! ## Statements -/

def expressionStatement (expression : Call) : Call :=
  .mk .expressionStatement [.node expression]

def blockStatement (body : List Call) : Call :=
  .mk .blockStatement [.nodes body]

def emptyStatement : Call :=
  .mk .emptyStatement []

def debuggerStatement : Call :=
  .mk .debuggerStatement []

def returnStatement (argument : Option Call) : Call :=
  .mk .returnStatement [.optional argument]

def throwStatement (argument : Call) : Call :=
  .mk .throwStatement [.node argument]

def breakStatement (label : Option Call) : Call :=
  .mk .breakStatement [.optional label]

def continueStatement (label : Option Call) : Call :=
  .mk .continueStatement [.optional label]

def labeledStatement (label body : Call) : Call :=
  .mk .labeledStatement [.node label, .node body]

def withStatement (object body : Call) : Call :=
  .mk .withStatement [.node object, .node body]

def ifStatement (test consequent : Call) (alternate : Option Call) : Call :=
  .mk .ifStatement [.node test, .node consequent, .optional alternate]

def switchStatement (discriminant : Call) (cases : List Call) : Call :=
  .mk .switchStatement [.node discriminant, .nodes cases]

/-- The default case has no test. -/
def switchCase (test : Option Call) (consequent : List Call) : Call :=
  .mk .switchCase [.optional test, .nodes consequent]

def forStatement (init test update : Option Call) (body : Call) : Call :=
  .mk .forStatement [.optional init, .optional test, .optional update, .node body]

def forInStatement (left right body : Call) : Call :=
  .mk .forInStatement [.node left, .node right, .node body]

def forOfStatement (left right body : Call) (isAwait : Bool) : Call :=
  .mk .forOfStatement [.node left, .node right, .node body, .bool isAwait]

def whileStatement (test body : Call) : Call :=
  .mk .whileStatement [.node test, .node body]

def doWhileStatement (body test : Call) : Call :=
  .mk .doWhileStatement [.node body, .node test]

def tryStatement (block : Call) (handler finalizer : Option Call) : Call :=
  .mk .tryStatement [.node block, .optional handler, .optional finalizer]

/-- A clause never has a guard, so that slot is empty. -/
def catchClause (param : Option Call) (body : Call) : Call :=
  .mk .catchClause [.optional param, .null, .node body]

end BuilderCalls.Builder
