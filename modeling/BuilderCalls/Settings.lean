import BuilderCalls.Rendering
import BuilderCalls.Yaml.Document

/-!
# Settings

Settings say how calls are rendered and in which format they are printed.  Each
field has a default.  A settings document is a YAML mapping; a key that is not a
setting is refused at the top and ignored under `render`, and a repeated one is
refused.
-/

namespace BuilderCalls

inductive OutputFormat where
  | text
  | json
  deriving DecidableEq

namespace OutputFormat

def name : OutputFormat → String
  | .text => "text"
  | .json => "json"

def ofName? (name : String) : Option OutputFormat :=
  if name = "text" then some .text
  else if name = "json" then some .json
  else none

end OutputFormat

structure Settings where
  render : RenderOptions
  format : OutputFormat
  deriving DecidableEq

namespace Settings

def default : Settings :=
  ⟨.default, .text⟩

/-! ## Reading YAML -/

/-- A mapping, as which an empty value counts too. -/
def pairs? : Yaml.Node → Option (List (Yaml.Node × Yaml.Node))
  | .mapping pairs => some pairs
  | .scalar "" true _ => some []
  | _ => none

def scalar? : Yaml.Node → Option String
  | .scalar text _ _ => some text
  | _ => none

def nullWords : List String :=
  ["", "~", "null", "Null", "NULL"]

/-- A word of a closed set: a scalar, or a local tag with its name before a null. -/
def word? : Yaml.Node → Option String
  | .scalar text plain tag =>
      match tag.map String.toList with
      | some ('!' :: name) =>
          if plain && nullWords.contains text then some (String.ofList name) else none
      | _ => some text
  | _ => none

/-- Pairs with all keys read, which must be scalars. -/
def fields? (root node : Yaml.Node) : Option (List (String × Yaml.Node)) := do
  (← pairs? node).mapM fun (key, value) => do
    return (← scalar? (root.follow key), root.follow value)

/-- The value of a key; none when the key is repeated, none inside when it is absent. -/
def value? (fields : List (String × Yaml.Node)) (key : String) : Option (Option Yaml.Node) :=
  match fields.filter fun field => field.1 = key with
  | [] => some none
  | [(_, value)] => some (some value)
  | _ => none

def read? {α : Type} (fields : List (String × Yaml.Node)) (key : String) (default : α)
    (read : Yaml.Node → Option α) : Option α := do
  match ← value? fields key with
  | none => return default
  | some value => read value

def renderOfYaml? (root value : Yaml.Node) : Option RenderOptions := do
  let fields ← fields? root value
  let namespaceName ← read? fields "namespace" RenderOptions.default.namespaceName scalar?
  let quote ← read? fields "quote" RenderOptions.default.quote fun value =>
    (word? value).bind Quote.ofName?
  return ⟨namespaceName, quote⟩

def ofYaml? (root : Yaml.Node) : Option Settings := do
  let fields ← fields? root (root.follow root)
  if fields.all fun (key, _) => ["render", "format"].contains key then
    let render ← read? fields "render" RenderOptions.default (renderOfYaml? root)
    let format ← read? fields "format" OutputFormat.text fun value =>
      (word? value).bind OutputFormat.ofName?
    return ⟨render, format⟩
  else none

def isWhite (char : Char) : Bool :=
  let code := char.toNat
  (0x09 ≤ code && code ≤ 0x0d) || code = 0x20 || code = 0x85 || code = 0xa0 ||
    code = 0x1680 || (0x2000 ≤ code && code ≤ 0x200a) || code = 0x2028 || code = 0x2029 ||
    code = 0x202f || code = 0x205f || code = 0x3000

/-- A blank text has the default settings. -/
def ofText (text : String) (refusals : Refusals := .silent) : Except Failure Settings :=
  if text.toList.all isWhite then .ok default
  else
    match Yaml.document? text with
    | none => .error (.input (.badSettings (refusals.yaml text)))
    | some none => .ok default
    | some (some value) =>
        match ofYaml? value with
        | some settings => .ok settings
        | none => .error (.input (.badSettings (refusals.yaml text)))

def toJson (settings : Settings) : Json :=
  .object
    [("render", .object
        [("namespace", .string settings.render.namespaceName),
         ("quote", .string settings.render.quote.name)]),
     ("format", .string settings.format.name)]

end Settings

end BuilderCalls
