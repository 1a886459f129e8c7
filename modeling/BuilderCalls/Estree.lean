import BuilderCalls.Evaluation
import BuilderCalls.Number.Text

/-!
# Building ESTree nodes

The builder set that makes JSON nodes: the tag, then one field for each slot in the
order of the signature.  A legacy slot without a node is left out, a literal may
take two fields, and arrow functions get the fields that are constant for them.
-/

namespace BuilderCalls.Estree

/-- The whole number that the shortest digits of a double spell. -/
def wholeNumber (value : Double) : Int :=
  let magnitude : Int := (Decimal.shortest .up value.magnitude).floor
  if value.negative then -magnitude else magnitude

/--
A number as parsers write it: whole numbers as integers, of the shortest digits that
read back, as long as these fit 64 bits.  Negative zero and fractions stay doubles.
-/
def number? (value : Double) : Option Number :=
  (Number.ofDouble? value).map fun double =>
    if value.isIntegral && !(value.isZero && value.negative) then
      (Number.ofInt? (wholeNumber value)).getD double
    else double

def literalFields (nodeType : NodeType) : Literal → Except Failure Members
  | .string value => .ok [("value", .string value)]
  | .boolean value => .ok [("value", .bool value)]
  | .null => .ok [("value", .null)]
  | .number value =>
      match number? value with
      | some number => .ok [("value", .number number)]
      | none => .error (.unwritable nodeType.builder (.numberInJson value))
  | .regexp pattern flags =>
      .ok [("value", .null),
        ("regex", .object [("pattern", .string pattern), ("flags", .string flags)])]
  | .bigint digits => .ok [("value", .string digits), ("bigint", .string digits)]

def templateValue (cooked : Option String) (raw : String) : Json :=
  .object [("raw", .string raw),
    ("cooked", match cooked with
      | some text => .string text
      | none => .null)]

mutual

/-- The value of a field; literals and templates have a form only in slots of their own. -/
def plain (nodeType : NodeType) (slot : Slot) : Arg Json → Except Failure Json
  | .null => .ok .null
  | .bool value => .ok (.bool value)
  | .string value => .ok (.string value)
  | .node node => .ok node
  | .list items => Json.array <$> plainItems nodeType slot items
  | .literal value => .error (.mismatch nodeType.builder (.strayLiteral slot value.kind))
  | .template _ _ => .error (.mismatch nodeType.builder (.argument slot .template))
termination_by structural arg => arg

def plainItems (nodeType : NodeType) (slot : Slot) : List (Arg Json) → Except Failure (List Json)
  | [] => return []
  | item :: items => do
      let value ← plain nodeType slot item
      return value :: (← plainItems nodeType slot items)
termination_by structural items => items

end

def fields (nodeType : NodeType) (slot : Slot) (arg : Arg Json) : Except Failure Members :=
  match slot.kind, arg with
  | .legacyChild, .null => .ok []
  | .literalValue, .literal value => literalFields nodeType value
  | .templateValue, .template cooked raw => .ok [(slot.field, templateValue cooked raw)]
  | _, arg => do return [(slot.field, ← plain nodeType slot arg)]

def allFields (nodeType : NodeType) : List Slot → List (Arg Json) → Except Failure Members
  | slot :: slots, arg :: args => do
      let first ← fields nodeType slot arg
      return first ++ (← allFields nodeType slots args)
  | _, _ => .ok []

/-- Fields that are the same for every node of a type and so have no slot. -/
def impliedFields : NodeType → Members
  | .arrowFunctionExpression => [("id", .null), ("generator", .bool false)]
  | _ => []

def build (nodeType : NodeType) (args : List (Arg Json)) : Except Failure Json := do
  nodeType.checkArity args
  let slotted ← allFields nodeType nodeType.slots args
  return .object (("type", .string nodeType.tag) :: slotted ++ impliedFields nodeType)

def builders : BuilderSet (Except Failure) Json := ⟨build⟩

end BuilderCalls.Estree
