/-!
# Line differences

The lines of two texts are aligned along a common subsequence of theirs.  The lines
of the first text are those kept and those removed, the lines of the second those
kept and those added.

The subsequence is found by walking back through the table of the lengths of longest
common subsequences.  The walk prefers to leave a line of the first text; in the
first column, where there is no cell to the left, it looks at the last cell of the
row above instead, so it may stop early.

The changes are handed on in runs, each of them one text again.
-/

namespace BuilderCalls

abbrev Line := List Char

def splitLines : List Char → List Line
  | [] => [[]]
  | char :: rest =>
      if char = '\n' then [] :: splitLines rest
      else
        match splitLines rest with
        | [] => [[char]]
        | line :: lines => (char :: line) :: lines

def dropReturn (line : Line) : Line :=
  if line.getLast? = some '\r' then line.dropLast else line

/-- The lines that line breaks end; what follows the last break is a line unless it is empty. -/
def endedLines (text : List Char) : List Line :=
  let pieces := splitLines text
  let last := pieces.getLast?.getD []
  pieces.dropLast.map dropReturn ++ if last = [] then [] else [last]

namespace LineDiff

inductive Change where
  | kept
  | removed
  | added
  deriving DecidableEq

def nextRow (line : Line) (diagonal left : Nat) : List Line → List Nat → List Nat
  | other :: others, above :: aboves =>
      let here := if line = other then diagonal + 1 else max left above
      here :: nextRow line above here others aboves
  | _, _ => []

def rows (others : List Line) (above : List Nat) : List Line → List (List Nat)
  | [] => []
  | line :: lines =>
      let row := nextRow line 0 0 others above
      row :: rows others row lines

def table (expected actual : List Line) : Array (Array Nat) :=
  ((rows actual (actual.map fun _ => 0) expected).map List.toArray).toArray

def cell (table : Array (Array Nat)) (row column : Nat) : Nat :=
  (table[row]?.getD #[])[column]?.getD 0

/-- The cell to the left; for the first column, the last cell of the row above. -/
def leftCell (table : Array (Array Nat)) (width row column : Nat) : Nat :=
  match column with
  | 0 => cell table (row - 1) (width - 1)
  | column + 1 => cell table row column

def walkBack (expected actual : Array Line) (table : Array (Array Nat)) :
    Nat → Nat → List Line → List Line
  | 0, _, found => found
  | _, 0, found => found
  | row + 1, column + 1, found =>
      let line := expected[row]?.getD []
      if line = actual[column]?.getD [] then
        walkBack expected actual table row column (line :: found)
      else if row = 0 && column = 0 then found
      else if row = 0 ||
          cell table (row - 1) column < leftCell table actual.size row column then
        walkBack expected actual table (row + 1) column found
      else walkBack expected actual table row (column + 1) found
termination_by row column => row + column

def common (expected actual : List Line) : List Line :=
  walkBack expected.toArray actual.toArray (table expected actual)
    expected.length actual.length []

/-- Aligns two lists of lines along a third: what it does not hold is removed or added. -/
def align : List Line → List Line → List Line → List (Change × Line)
  | expected :: expecteds, actuals, [] =>
      (.removed, expected) :: align expecteds actuals []
  | [], actual :: actuals, shared => (.added, actual) :: align [] actuals shared
  | [], [], _ => []
  | expected :: expecteds, [], shared :: shareds =>
      (.removed, expected) :: align expecteds [] (shared :: shareds)
  | expected :: expecteds, actual :: actuals, shared :: shareds =>
      if expected ≠ shared then
        (.removed, expected) :: align expecteds (actual :: actuals) (shared :: shareds)
      else if actual ≠ shared then
        (.added, actual) :: align (expected :: expecteds) actuals (shared :: shareds)
      else (.kept, shared) :: align expecteds actuals shareds
termination_by expecteds actuals => expecteds.length + actuals.length

def lines (expected actual : List Line) : List (Change × Line) :=
  align expected actual (common expected actual)

structure Segment where
  change : Change
  text : List Char
  deriving DecidableEq

def segments : List (Change × Line) → List Segment
  | [] => []
  | (change, line) :: rest =>
      match segments rest with
      | [] => [⟨change, line⟩]
      | next :: others =>
          if next.change = change then ⟨change, line ++ '\n' :: next.text⟩ :: others
          else ⟨change, line⟩ :: next :: others

def compare (expected actual : List Char) : List Segment :=
  segments (lines (splitLines expected) (splitLines actual))

end LineDiff

end BuilderCalls
