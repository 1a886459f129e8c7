import BuilderCalls.CommandLine.Run
import BuilderCalls.Proofs.Effectful

/-!
# What commands print

Each step of a command has an equation that says what it adds to the output.  A conversion
has nothing printed until its lines are complete (`perform_converting`).
-/

namespace BuilderCalls.CommandLine

open Effectful

/-! ## Steps -/

theorem perform_print (text printed : List Char) :
    perform (print text) printed = (.ok (), printed ++ text) :=
  rfl

theorem perform_printLines (lines : List (List Char)) (printed : List Char) :
    perform (printLines lines) printed = (.ok (), printed ++ Terminal.unlines lines) := by
  induction lines generalizing printed with
  | nil =>
      rw [Terminal.unlines, List.flatMap_nil, List.append_nil]
      rfl
  | cons line lines ih =>
      calc perform (printLines (line :: lines)) printed
        _ = perform (printLines lines) (printed ++ Terminal.line line) :=
            perform_bind_of_ok (perform_print (Terminal.line line) printed)
        _ = (.ok (), printed ++ Terminal.unlines (line :: lines)) := by
            rw [ih, List.append_assoc, Terminal.unlines, Terminal.unlines, List.flatMap_cons]

section Outcomes

variable {action : Printing Bool} {passed : Bool} {output : List Char} {failure : Failure}

theorem outcome_of_ok (haction : perform action [] = (.ok passed, output)) :
    action.outcome = ⟨if passed then 0 else 1, output, none⟩ := by
  rw [Printing.outcome, haction]

theorem outcome_of_error (haction : perform action [] = (.error failure, output)) :
    action.outcome = ⟨1, output, some (.failure failure)⟩ := by
  rw [Printing.outcome, haction]

end Outcomes

/-! ## Conversions -/

def formattedLines (settings : Settings) (calls : List Call) : Except Failure (List Line) :=
  match settings.format with
  | .text => do
      let renderer ← Renderer.ofOptions settings.render
      let lines ← renderer.renderAll calls
      return lines.map String.toList
  | .json => .ok [(Json.array (calls.map Call.toJson)).pretty]

/-- The lines that a request asks for. -/
def requestedLines (files : Files) (request : ConvertRequest) : Except Failure (List Line) := do
  let settings ← effectiveSettings files request
  let input ← readJson files request.file
  let calls ← (Program.convert input).result.mapError (attachSource files request.source)
  formattedLines settings calls

/-- What has been printed once the lines are known, or known not to be. -/
def printedOnce {α : Type} (value : α) (lines : Except Failure (List Line))
    (printed : List Char) : Except Failure α × List Char :=
  match lines with
  | .ok lines => (.ok value, printed ++ Terminal.unlines lines)
  | .error failure => (.error failure, printed)

section Once

variable {α β : Type} {value : β} {printed : List Char}

theorem perform_lift_bind {next : α → Printing β} {lines : α → Except Failure (List Line)}
    (hnext : ∀ found, perform (next found) printed = printedOnce value (lines found) printed)
    (result : Except Failure α) :
    perform (liftM result >>= next) printed = printedOnce value (result >>= lines) printed := by
  cases result with
  | ok found => exact hnext found
  | error => rfl

theorem perform_bind_pure {action : Printing α} {done : α} {lines : Except Failure (List Line)}
    (haction : perform action printed = printedOnce done lines printed) :
    perform (action >>= fun _ => pure value) printed = printedOnce value lines printed := by
  cases lines with
  | ok lines => exact perform_bind_of_ok haction
  | error => exact perform_bind_of_error haction

end Once

theorem perform_printCalls (settings : Settings) (calls : List Call) (printed : List Char) :
    perform (printCalls settings calls) printed =
      printedOnce () (formattedLines settings calls) printed := by
  unfold printCalls formattedLines
  cases settings.format with
  | json => exact perform_printLines _ printed
  | text =>
      exact perform_lift_bind (fun renderer =>
        perform_lift_bind (fun lines => perform_printLines _ printed) _) _

/-- A conversion prints all of its lines, or fails without having printed any. -/
theorem perform_converting (files : Files) (request : ConvertRequest) (printed : List Char) :
    perform (converting files request) printed =
      printedOnce true (requestedLines files request) printed := by
  refine perform_lift_bind (fun settings => ?_) _
  refine perform_lift_bind (fun input => ?_) _
  refine perform_lift_bind (fun calls => ?_) _
  exact perform_bind_pure (perform_printCalls settings calls printed)

theorem convert_of_lines {files : Files} {request : ConvertRequest} {lines : List Line}
    (hlines : requestedLines files request = .ok lines) :
    convert files request = succeed (Terminal.unlines lines) := by
  have hperform := perform_converting files request []
  rw [hlines] at hperform
  exact outcome_of_ok hperform

theorem convert_of_error {files : Files} {request : ConvertRequest} {failure : Failure}
    (hlines : requestedLines files request = .error failure) :
    convert files request = fail failure := by
  have hperform := perform_converting files request []
  rw [hlines] at hperform
  exact outcome_of_error hperform

end BuilderCalls.CommandLine
