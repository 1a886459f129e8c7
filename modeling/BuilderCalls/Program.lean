import BuilderCalls.Conversion
import BuilderCalls.Json.Reader

/-!
# Programs

A program is converted statement by statement, and only as a whole: the first
statement that fails makes the program fail.  The program may be wrapped in a `File`.
-/

namespace BuilderCalls

def Json.tag? (value : Json) : Option String :=
  (value.get? "type").bind Json.string?

namespace Program

def statements (program : Json) : Except Failure (List Json) :=
  match program.get? "body" with
  | some (.array body) => .ok body
  | some other => .error (.input (.bodyNotAnArray other.kind))
  | none => .error (.input .noBody)

def unwrap (wrapper : Json) : Except Failure Json :=
  match wrapper.get? "program" with
  | some program =>
      if program.tag? = some "Program" then .ok program
      else .error (.input .wrapperWithoutProgram)
  | none => .error (.input .wrapperWithoutProgram)

def foreignHelp : String :=
  "convert a single node with \x60ast_builder::convert\x60 instead"

/-- The top-level statements of a program or of a file that holds one. -/
def body (input : Json) : Traced (List Json) :=
  match input.tag? with
  | none => .fail (.input (.notAProgram input.kind))
  | some tag =>
      if tag = "Program" then .ofExcept (statements input)
      else if tag = "File" then do
        .record .wrapper
        let program ← .ofExcept (unwrap input)
        .ofExcept (statements program)
      else .fail ((Failure.input (.foreignTag tag)).withHelp foreignHelp)

/-- Converts statements whose places in the body start at the given index. -/
def convertStatements (index : Nat) : List Json → Traced (List Call)
  | [] => return []
  | statement :: rest => do
      let call ← (convert statement).under [.field "body", .index index]
      .record (.statement index call.nodeType)
      (call :: ·) <$> convertStatements (index + 1) rest

def convert (input : Json) : Traced (List Call) := do
  let statements ← body input
  .record (.statements statements.length)
  convertStatements 0 statements

def convertText (text : String) (refusals : Refusals := .silent) : Traced (List Call) :=
  match Json.ofText? text with
  | some input => convert input
  | none => .fail (.input (.notJson (refusals.json text)))

end Program

end BuilderCalls
