import BuilderCalls.Json.Basic

/-!
# Source positions

Where a node stands in the source, as far as the parser that made it wrote it down:
`start` and `end` or a `range` pair for the offsets, `loc` for line and column.
-/

namespace BuilderCalls

structure Span where
  offset : Nat
  length : Nat
  deriving DecidableEq

/-- A span that ends before it starts is empty. -/
def Span.between (first last : Nat) : Span :=
  ⟨first, max last first - first⟩

structure Position where
  span : Option Span
  line : Option Nat
  column : Option Nat
  deriving DecidableEq

namespace Position

def rangeOffsets? (members : Members) : Option (Nat × Nat) :=
  match members.lookup "range" with
  | some (.array [first, last]) => do return (← first.nat?, ← last.nat?)
  | _ => none

/-- `range` counts only where `start` and `end` are not both numbers. -/
def offsets? (members : Members) : Option (Nat × Nat) :=
  match members.lookup "start", members.lookup "end" with
  | some (.number first), some (.number last) => do
      return (← first.toNat?, ← last.toNat?)
  | _, _ => rangeOffsets? members

def startNumber? (members : Members) (key : String) : Option Nat := do
  let location ← members.lookup "loc"
  let start ← location.get? "start"
  let value ← start.get? key
  value.nat?

def ofMembers? (members : Members) : Option Position :=
  let span := (offsets? members).map fun (first, last) => Span.between first last
  let line := startNumber? members "line"
  if span.isNone && line.isNone then none
  else some ⟨span, line, startNumber? members "column"⟩

end Position

end BuilderCalls
