import BuilderCalls.Yaml.Lexeme
import BuilderCalls.Yaml.Tag
import BuilderCalls.Yaml.Token

/-!
# The state of a YAML scan

Block collections are opened and closed by the column of what starts a line.  A
scalar may turn out to be a key only when its colon is reached, so the place of the
last possible key is kept for each level of flow nesting.  A key and its colon stand
on one line, at most `keyLimit` bytes apart.
-/

namespace BuilderCalls.Yaml

def keyLimit : Nat := 1024

/-- A node that may turn out to be a key. -/
structure PossibleKey where
  place : Nat
  line : Nat
  column : Nat
  offset : Nat
  /-- It stands where only a key can stand. -/
  required : Bool

structure Scan where
  lexeme : Lexeme
  line : Nat
  column : Nat
  offset : Nat
  tokens : Array Token
  /-- Columns of the open block collections, innermost first. -/
  indents : List Nat
  /-- Possible keys of the open flow collections and, last, of the block level. -/
  keys : List (Option PossibleKey)
  keyAllowed : Bool
  names : Names

namespace Scan

def initial : Scan :=
  ⟨.none, 0, 0, 0, #[], [], [none], true, .empty⟩

def inFlow (scan : Scan) : Bool :=
  1 < scan.keys.length

def emit (scan : Scan) (token : Token) : Scan :=
  { scan with tokens := scan.tokens.push token }

def allowKey (scan : Scan) (allowed : Bool) : Scan :=
  { scan with keyAllowed := allowed }

def reading (scan : Scan) (lexeme : Lexeme) : Scan :=
  { scan with lexeme := lexeme }

def advance (scan : Scan) (char : Char) : Scan :=
  let scan := { scan with offset := scan.offset + char.utf8Size }
  if isBreak char then { scan with line := scan.line + 1, column := 0 }
  else { scan with column := scan.column + 1 }

/-! ## Block collections -/

def isDeeper (scan : Scan) (column : Nat) : Bool :=
  match scan.indents with
  | [] => true
  | indent :: _ => indent < column

def isLevel (scan : Scan) (column : Nat) : Bool :=
  scan.indents.head? = some column

def roll (scan : Scan) (column place : Nat) (token : Token) : Scan :=
  if !scan.inFlow && scan.isDeeper column then
    { scan with
      indents := column :: scan.indents
      tokens := scan.tokens.insertIdxIfInBounds place token }
  else scan

def unrollWhile (scan : Scan) (closes : Nat → Bool) : Scan :=
  if scan.inFlow then scan
  else
    let closed := scan.indents.takeWhile closes
    { scan with
      indents := scan.indents.dropWhile closes
      tokens := scan.tokens ++ (closed.map fun _ => Token.blockEnd).toArray }

def unroll (scan : Scan) : Scan :=
  scan.unrollWhile (scan.column < ·)

def unrollAll (scan : Scan) : Scan :=
  scan.unrollWhile fun _ => true

/-! ## Possible keys -/

def isExpired (scan : Scan) (key : PossibleKey) : Bool :=
  key.line < scan.line || key.offset + keyLimit < scan.offset

/-- Gives up the keys whose colons can no longer follow; none of them may be required. -/
def expireKeys? (scan : Scan) : Option Scan :=
  if scan.keys.any fun key => key.any fun key => scan.isExpired key && key.required then none
  else some { scan with keys := scan.keys.map (·.filter fun key => !scan.isExpired key) }

def dropKey? (scan : Scan) : Option Scan :=
  match scan.keys with
  | some key :: outer =>
      if key.required then none else some { scan with keys := none :: outer }
  | _ => some scan

def saveKey? (scan : Scan) : Option Scan :=
  if scan.keyAllowed then do
    let required := !scan.inFlow && scan.isLevel scan.column
    let key : PossibleKey := ⟨scan.tokens.size, scan.line, scan.column, scan.offset, required⟩
    let scan ← scan.dropKey?
    return { scan with keys := some key :: scan.keys.drop 1 }
  else some scan

/-! ## Indicators -/

def openFlow? (scan : Scan) (token : Token) : Option Scan := do
  let scan ← scan.saveKey?
  return { scan.emit token with keys := none :: scan.keys, keyAllowed := true }

def closeFlow? (scan : Scan) (token : Token) : Option Scan := do
  let scan ← scan.dropKey?
  let outer := if scan.inFlow then scan.keys.drop 1 else scan.keys
  return { scan.emit token with keys := outer, keyAllowed := false }

def flowEntry? (scan : Scan) : Option Scan := do
  let scan ← scan.dropKey?
  return (scan.emit .flowEntry).allowKey true

def rollHere? (scan : Scan) (token : Token) : Option Scan :=
  if scan.inFlow then some scan
  else if scan.keyAllowed then some (scan.roll scan.column scan.tokens.size token)
  else none

def blockEntry? (scan : Scan) : Option Scan := do
  let scan ← (← scan.rollHere? .blockSequence).dropKey?
  return (scan.emit .blockEntry).allowKey true

def key? (scan : Scan) : Option Scan := do
  let scan ← (← scan.rollHere? .blockMapping).dropKey?
  return (scan.emit .key).allowKey !scan.inFlow

/-- A colon makes the possible key of its level a key; without one it stands alone. -/
def value? (scan : Scan) : Option Scan :=
  match scan.keys with
  | some key :: outer =>
      let scan :=
        { scan with
          keys := none :: outer
          tokens := scan.tokens.insertIdxIfInBounds key.place .key }
      some (((scan.roll key.column key.place .blockMapping).emit .value).allowKey false)
  | _ => do
      let scan ← scan.rollHere? .blockMapping
      return (scan.emit .value).allowKey !scan.inFlow

def document? (scan : Scan) (token : Token) : Option Scan := do
  let scan ← scan.unrollAll.dropKey?
  return ((scan.emit token).allowKey false).reading (.marker 2)

def startDirective? (scan : Scan) : Option Scan := do
  let scan ← scan.unrollAll.dropKey?
  return (scan.allowKey false).reading (.directive [])

def startNode? (scan : Scan) (lexeme : Lexeme) : Option Scan := do
  let scan ← scan.saveKey?
  return (scan.allowKey false).reading lexeme

def startBlockScalar? (scan : Scan) (literal : Bool) : Option Scan := do
  let scan ← scan.dropKey?
  return (scan.allowKey true).reading (.blockHeader (.start literal))

end Scan

end BuilderCalls.Yaml
