import BuilderCalls.Call.Check
import BuilderCalls.Call.Encoding
import BuilderCalls.Rendering.Namespace
import BuilderCalls.Rendering.Quoted

/-!
# Rendering

A call is written in one line as source text, such as `j.identifier('x')`.  Each
call is checked before anything of it is written, and literals that source text
cannot hold are refused, so the first fault in the order of the text is reported.
-/

namespace BuilderCalls

structure RenderOptions where
  /-- What the builder calls hang off. -/
  namespaceName : String
  quote : Quote
  deriving DecidableEq

namespace RenderOptions

def default : RenderOptions :=
  ⟨"j", .single⟩

def ofFields? (namespaceName quote : Option Json) : Option RenderOptions := do
  let namespaceName ←
    match namespaceName with
    | none => some default.namespaceName
    | some value => value.string?
  let quote ←
    match quote with
    | none => some default.quote
    | some value => value.bareCase?.bind Quote.ofName?
  return ⟨namespaceName, quote⟩

/-- Options from an object, or from an array of the values in order. -/
def ofJson? : Json → Option RenderOptions
  | .object members => ofFields? (members.lookup "namespace") (members.lookup "quote")
  | .array [] => ofFields? none none
  | .array [namespaceName] => ofFields? (some namespaceName) none
  | .array [namespaceName, quote] => ofFields? (some namespaceName) (some quote)
  | _ => none

end RenderOptions

structure Renderer where
  namespaceName : String
  quote : Quote
  dotted : Namespace.isDotted namespaceName = true

namespace Renderer

def ofOptions (options : RenderOptions) : Except Failure Renderer :=
  if dotted : Namespace.isDotted options.namespaceName = true then
    .ok ⟨options.namespaceName, options.quote, dotted⟩
  else .error (.unwritable options.namespaceName .namespaceForm)

end Renderer

/-! ## Literals -/

def isLineEnd (char : Char) : Bool :=
  char = '\n' || char = '\r' || char = lineSeparator || char = paragraphSeparator

def patternFlags : List Char :=
  "dgimsuvy".toList

def Literal.writeFault? : Literal → Option WriteFault
  | .number value => if value.isFinite then none else some (.numberForm value)
  | .regexp pattern flags =>
      if pattern.toList.isEmpty || pattern.toList.any isLineEnd then some (.pattern pattern)
      else if flags.toList.all patternFlags.contains then none
      else some (.flags flags)
  | .bigint digits =>
      if digits.toList.isEmpty || !digits.toList.all Char.isDigit then some (.bigint digits)
      else none
  | _ => none

def Literal.chars (quote : Quote) : Literal → List Char
  | .string value => quote.quoted value
  | .number value => value.plainText
  | .boolean value => Json.boolText value
  | .null => "null".toList
  | .regexp pattern flags => '/' :: pattern.toList ++ '/' :: flags.toList
  | .bigint digits => digits.toList ++ ['n']

def Literal.render (quote : Quote) (owner : NodeType) (literal : Literal) :
    Except Failure (List Char) :=
  match literal.writeFault? with
  | some fault => .error (.unwritable owner.builder fault)
  | none => .ok (literal.chars quote)

def renderTemplate (quote : Quote) (cooked : Option String) (raw : String) : List Char :=
  let cookedText :=
    match cooked with
    | some text => quote.quoted text
    | none => "null".toList
  "\x7b cooked: ".toList ++ cookedText ++ ", raw: ".toList ++ quote.quoted raw ++
    " \x7d".toList

/-! ## Calls -/

def separated (texts : List (List Char)) : List Char :=
  ", ".toList.intercalate texts

namespace Renderer

mutual

def callChars (renderer : Renderer) : Call → Except Failure (List Char)
  | .mk nodeType args => do
      nodeType.check args
      let texts ← argTexts renderer nodeType args
      return renderer.namespaceName.toList ++ '.' :: nodeType.builder.toList ++
        '(' :: separated texts ++ [')']
termination_by structural call => call

def argChars (renderer : Renderer) (owner : NodeType) : Arg Call → Except Failure (List Char)
  | .null => return "null".toList
  | .bool value => return Json.boolText value
  | .string value => return renderer.quote.quoted value
  | .literal value => value.render renderer.quote owner
  | .node call => callChars renderer call
  | .list items => do
      let texts ← argTexts renderer owner items
      return '[' :: separated texts ++ [']']
  | .template cooked raw => return renderTemplate renderer.quote cooked raw
termination_by structural arg => arg

def argTexts (renderer : Renderer) (owner : NodeType) :
    List (Arg Call) → Except Failure (List (List Char))
  | [] => return []
  | arg :: args => do
      let text ← argChars renderer owner arg
      return text :: (← argTexts renderer owner args)
termination_by structural args => args

end

def render (renderer : Renderer) (call : Call) : Except Failure String :=
  String.ofList <$> renderer.callChars call

def renderAll (renderer : Renderer) (calls : List Call) : Except Failure (List String) :=
  calls.mapM renderer.render

end Renderer

end BuilderCalls
