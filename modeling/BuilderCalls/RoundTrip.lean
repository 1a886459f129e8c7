import BuilderCalls.Estree
import BuilderCalls.NormalForm
import BuilderCalls.Program

/-!
# Round trips

A program is converted, its calls are evaluated, and the rebuilt tree is held
against the given one in normal form.  Converting the rebuilt tree must give the
same calls again.
-/

namespace BuilderCalls

structure RoundTrip where
  expected : Json
  actual : Json
  calls : List Call
  rebuilt : List Json

namespace RoundTrip

def programOf (body : List Json) : Json :=
  .object [("type", .string "Program"), ("body", .array body)]

def run (input : Json) : Except Failure RoundTrip := do
  let body ← (Program.body input).result
  let calls ← (Program.convert input).result
  let rebuilt ← evaluateAll Estree.builders calls
  return ⟨(Json.array body).normal, (Json.array rebuilt).normal, calls, rebuilt⟩

def sameTree (trip : RoundTrip) : Bool :=
  trip.expected.equivalent trip.actual

/-- The calls that the rebuilt tree is read as. -/
def again (trip : RoundTrip) : Except Failure (List Call) :=
  (Program.convert (programOf trip.rebuilt)).result

end RoundTrip

end BuilderCalls
