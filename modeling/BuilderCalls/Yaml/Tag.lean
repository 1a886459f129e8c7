import BuilderCalls.Yaml.Character

/-!
# Tags and directives

A tag is written as a handle and a suffix; the handle is short for a stem, which a
directive may have declared.  In a tag a percent sign and two hexadecimal digits
stand for a byte.
-/

namespace BuilderCalls.Yaml

/-! ## Tag texts -/

def isTagChar (char : Char) : Bool :=
  isNameChar char || ";/?:@&=+$.!~*'()".toList.contains char

def isStemChar (char : Char) : Bool :=
  isTagChar char || char = ',' || char = '[' || char = ']'

/-- The bytes that a text of allowed characters and escapes stands for. -/
def tagBytes? (allowed : Char → Bool) : List Char → Option (List UInt8)
  | [] => some []
  | '%' :: high :: low :: rest => do
      let byte := 16 * (← hexDigit? high) + (← hexDigit? low)
      return byte.toUInt8 :: (← tagBytes? allowed rest)
  | char :: rest =>
      if allowed char then do return char.toNat.toUInt8 :: (← tagBytes? allowed rest)
      else none

def tagText? (allowed : Char → Bool) (text : List Char) : Option String := do
  String.fromUTF8? ⟨(← tagBytes? allowed text).toArray⟩

def someTagText? (allowed : Char → Bool) (text : List Char) : Option String :=
  if text.isEmpty then none else tagText? allowed text

/-- What handles stand for, those that were declared last in front. -/
abbrev Stems := List (String × String)

def defaultStems : Stems :=
  [("!", "!"), ("!!", "tag:yaml.org,2002:")]

def expand? (stems : Stems) (handle suffix : String) : Option String :=
  (stems.lookup handle).map (· ++ suffix)

/--
The tag that a text spells: verbatim between angle brackets, after a handle, or after
a single mark.  The mark alone is a tag of its own.
-/
def tagOfText? (stems : Stems) : List Char → Option String
  | '!' :: '<' :: rest =>
      if rest.getLast? = some '>' then someTagText? isStemChar rest.dropLast else none
  | ['!'] => some "!"
  | '!' :: rest =>
      match rest.dropWhile isNameChar with
      | '!' :: suffix => do
          let handle := '!' :: rest.takeWhile isNameChar ++ ['!']
          expand? stems (String.ofList handle) (← someTagText? isTagChar suffix)
      | _ => do expand? stems "!" (← tagText? isTagChar rest)
  | _ => none

/-! ## Directives -/

inductive Directive where
  | version (major minor : Nat)
  | stem (handle text : String)

def endsLine (text : List Char) : Bool :=
  match text.dropWhile isBlank with
  | [] => true
  | char :: _ => char = '#'

def versionNumber? (text : List Char) : Option (Nat × List Char) :=
  let digits := text.takeWhile Char.isDigit
  if digits.isEmpty || 9 < digits.length then none
  else
    some (digits.foldl (fun value digit => 10 * value + (digit.toNat - 48)) 0,
      text.dropWhile Char.isDigit)

def version? (text : List Char) : Option Directive := do
  let (major, rest) ← versionNumber? text
  match rest with
  | '.' :: rest => do
      let (minor, rest) ← versionNumber? rest
      if endsLine rest then some (.version major minor) else none
  | _ => none

/-- A handle is a mark, or a name between two marks. -/
def handle? : List Char → Option (List Char × List Char)
  | '!' :: rest =>
      let name := rest.takeWhile isNameChar
      match rest.dropWhile isNameChar with
      | '!' :: rest => some ('!' :: name ++ ['!'], rest)
      | rest => if name.isEmpty then some (['!'], rest) else none
  | _ => none

def stem? (text : List Char) : Option Directive := do
  let (handle, rest) ← handle? text
  if rest.head?.any isBlank then
    let rest := rest.dropWhile isBlank
    let isPart := fun char => isStemChar char || char = '%'
    let text ← someTagText? isStemChar (rest.takeWhile isPart)
    let rest := rest.dropWhile isPart
    if blankAhead rest && endsLine rest then some (.stem (String.ofList handle) text)
    else none
  else none

def directiveOfText? (text : List Char) : Option Directive :=
  let name := text.takeWhile isNameChar
  let rest := text.dropWhile isNameChar
  if !blankAhead rest then none
  else if name = "YAML".toList then version? (rest.dropWhile isBlank)
  else if name = "TAG".toList then stem? (rest.dropWhile isBlank)
  else none

/-! ## Names -/

structure Names where
  versioned : Bool
  declared : Stems
  anchors : List (String × Nat)

namespace Names

def empty : Names :=
  ⟨false, [], []⟩

def stems (names : Names) : Stems :=
  names.declared ++ defaultStems

/-- A document has one version, which is known, and declares a handle only once. -/
def direct? (names : Names) : Directive → Option Names
  | .version major minor =>
      if names.versioned || major ≠ 1 || (minor ≠ 1 && minor ≠ 2) then none
      else some { names with versioned := true }
  | .stem handle text =>
      if (names.declared.lookup handle).isSome then none
      else some { names with declared := (handle, text) :: names.declared }

/-- An anchor is numbered by how many different names there were before it. -/
def anchor (names : Names) (name : String) : Nat × Names :=
  let number := names.anchors.length
  let others := names.anchors.filter fun (other, _) => other != name
  (number, { names with anchors := (name, number) :: others })

def alias? (names : Names) (name : String) : Option Nat :=
  names.anchors.lookup name

end Names

end BuilderCalls.Yaml
