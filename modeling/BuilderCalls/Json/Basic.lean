import BuilderCalls.Number.Decimal

/-!
# JSON values

Objects keep their members in the order in which the keys first occurred.  Numbers
are either integers of at most 64 bits or finite doubles, and the two kinds stay
apart: the integer 1 and the double 1 are different values.

`Json.equivalent` compares values up to the order of object members.
-/

namespace BuilderCalls

/-- The integers that fit 64 bits, with or without a sign. -/
def FitsWord (value : Int) : Prop :=
  -0x8000000000000000 ≤ value ∧ value ≤ 0xffffffffffffffff

instance (value : Int) : Decidable (FitsWord value) :=
  inferInstanceAs (Decidable (_ ∧ _))

inductive Number where
  | integer (value : Int) (fits : FitsWord value)
  | double (value : Double) (finite : value.isFinite = true)
  deriving DecidableEq

namespace Number

def toDouble : Number → Double
  | .integer value _ => .ofInt value
  | .double value _ => value

def toNat? : Number → Option Nat
  | .integer value _ => if 0 ≤ value then some value.toNat else none
  | .double _ _ => none

def ofDouble? (value : Double) : Option Number :=
  if finite : value.isFinite = true then some (.double value finite) else none

def ofInt? (value : Int) : Option Number :=
  if fits : FitsWord value then some (.integer value fits) else none

end Number

inductive Json where
  | null
  | bool (value : Bool)
  | number (value : Number)
  | string (value : String)
  | array (items : List Json)
  | object (members : List (String × Json))

abbrev Members := List (String × Json)

/-- Members with one more: a repeated key keeps its first place and takes the new value. -/
def Members.insert (members : Members) (key : String) (value : Json) : Members :=
  match members with
  | [] => [(key, value)]
  | (key', value') :: rest =>
      if key' = key then (key, value) :: rest
      else (key', value') :: Members.insert rest key value

def Members.keys (members : Members) : List String :=
  members.map Prod.fst

namespace Json

inductive Kind where
  | null
  | boolean
  | number
  | string
  | array
  | object
  deriving DecidableEq

def Kind.description : Kind → String
  | .null => "null"
  | .boolean => "a boolean"
  | .number => "a number"
  | .string => "a string"
  | .array => "an array"
  | .object => "an object"

def kind : Json → Kind
  | .null => .null
  | .bool _ => .boolean
  | .number _ => .number
  | .string _ => .string
  | .array _ => .array
  | .object _ => .object

def isNull (value : Json) : Bool :=
  value.kind = .null

/-- A value that says nothing: null, an empty array or an empty object. -/
def isVacant : Json → Bool
  | .null => true
  | .array items => items.isEmpty
  | .object members => members.isEmpty
  | _ => false

/-- The member of that name; values that are not objects have no members. -/
def get? (value : Json) (key : String) : Option Json :=
  match value with
  | .object members => members.lookup key
  | _ => none

def string? : Json → Option String
  | .string value => some value
  | _ => none

def nat? : Json → Option Nat
  | .number value => value.toNat?
  | _ => none

def number? : Json → Option Number
  | .number value => some value
  | _ => none

def bool? : Json → Option Bool
  | .bool value => some value
  | _ => none

def array? : Json → Option (List Json)
  | .array items => some items
  | _ => none

def members? : Json → Option Members
  | .object members => some members
  | _ => none

mutual

/-- Equality up to the order of object members. -/
def equivalent : Json → Json → Bool
  | .null, .null => true
  | .bool left, .bool right => left == right
  | .number left, .number right => left == right
  | .string left, .string right => left == right
  | .array left, .array right => equivalentItems left right
  | .object left, .object right =>
      left.length == right.length && equivalentMembers left right
  | _, _ => false
termination_by structural left => left

def equivalentItems : List Json → List Json → Bool
  | [], [] => true
  | left :: lefts, right :: rights =>
      equivalent left right && equivalentItems lefts rights
  | _, _ => false
termination_by structural lefts => lefts

/-- Every member on the left has an equivalent one of the same key on the right. -/
def equivalentMembers : Members → Members → Bool
  | [], _ => true
  | (key, left) :: rest, right =>
      (match right.lookup key with
        | some value => equivalent left value
        | none => false) && equivalentMembers rest right
termination_by structural members => members

end

end Json

end BuilderCalls
