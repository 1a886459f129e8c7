import BuilderCalls.LineDiff
import BuilderCalls.NodeType

/-!
# Terminal output

Colours are escape sequences that are written only where they are wanted.  A colour
is set after a reset; nothing is written for a colour that is off.
-/

namespace BuilderCalls.Terminal

inductive Color where
  | red
  | green
  | cyan
  deriving DecidableEq

def Color.code : Color → Char
  | .red => '1'
  | .green => '2'
  | .cyan => '6'

def sequence (codes : List Char) : List Char :=
  '\x1b' :: '[' :: codes ++ ['m']

def reset (colored : Bool) : List Char :=
  if colored then sequence ['0'] else []

def setColor (colored bold : Bool) (color : Color) : List Char :=
  if colored then
    reset true ++ (if bold then sequence ['1'] else []) ++ sequence ['3', color.code]
  else []

def line (text : List Char) : List Char :=
  text ++ ['\n']

def unlines (texts : List (List Char)) : List Char :=
  texts.flatMap line

def status (colored passed : Bool) (label : String) (detail : Option String) : List Char :=
  let word := if passed then "ok    ".toList else "FAILED".toList
  let rest :=
    match detail with
    | some detail => label.toList ++ ':' :: ' ' :: detail.toList
    | none => label.toList
  setColor colored true (if passed then .green else .red) ++ word ++ reset colored ++
    line (' ' :: rest)

/-! ## Differences -/

def changeMark : LineDiff.Change → Char
  | .kept => ' '
  | .removed => '-'
  | .added => '+'

def changeColor (colored : Bool) : LineDiff.Change → List Char
  | .kept => reset colored
  | .removed => setColor colored false .red
  | .added => setColor colored false .green

def changeLine (change : LineDiff.Change) (text : Line) : List Char :=
  line (changeMark change :: text)

def segment (colored : Bool) (segment : LineDiff.Segment) : List Char :=
  changeColor colored segment.change ++
    (endedLines segment.text).flatMap (changeLine segment.change)

def changes (colored : Bool) (segments : List LineDiff.Segment) : List Char :=
  segments.flatMap (segment colored) ++ reset colored

def difference (colored : Bool) (expected actual : List Char) : List Char :=
  changes colored (LineDiff.compare expected actual)

end BuilderCalls.Terminal
