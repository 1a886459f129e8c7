import BuilderCalls.CommandLine.Run
import BuilderCalls.Proofs.Conversion
import BuilderCalls.Proofs.Evaluation

/-!
# Programs

The statements of an input are those of the program that it is or wraps.  Programs are
converted and evaluated statement by statement, so a program succeeds when each of its
statements does.
-/

namespace BuilderCalls

namespace Program

/-- The program that the input is or wraps; the paths of failures start from it. -/
def programOf (input : Json) : Except Failure Json :=
  match input.tag? with
  | none => .error (.input (.notAProgram input.kind))
  | some tag =>
      if tag = "Program" then .ok input
      else if tag = "File" then unwrap input
      else .error ((Failure.input (.foreignTag tag)).withHelp foreignHelp)

theorem result_body (input : Json) : (body input).result = programOf input >>= statements := by
  unfold body programOf
  cases input.tag? with
  | none => rfl
  | some tag =>
      dsimp only
      split_ifs with hprogram hfile
      · rfl
      · simp only [Traced.result_bind, Traced.result_record, Traced.result_ofExcept]
        rfl
      · rfl

theorem body_eq_ok_iff {input : Json} {statements' : List Json} :
    (body input).result = .ok statements' ↔
      ∃ program, programOf input = .ok program ∧ statements program = .ok statements' := by
  rw [result_body, bind_eq_ok_iff]

theorem convertStatements_eq_ok_iff {index : Nat} {statements : List Json} {calls : List Call} :
    (convertStatements index statements).result = .ok calls ↔
      List.Forall₂ Converts statements calls := by
  induction statements generalizing index calls with
  | nil => cases calls <;> simp [convertStatements]
  | cons statement rest ih =>
      rw [convertStatements]
      cases calls with
      | nil => simp
      | cons call calls => simp [Converts, ih]

theorem convert_eq_ok_iff {input : Json} {calls : List Call} :
    (convert input).result = .ok calls ↔
      ∃ statements, (body input).result = .ok statements ∧
        List.Forall₂ Converts statements calls := by
  simp [convert, convertStatements_eq_ok_iff]

theorem body_programOf (statements : List Json) :
    (body (RoundTrip.programOf statements)).result = .ok statements := by
  rfl

end Program

theorem evaluateAll_eq_ok_iff {calls : List Call} {trees : List Json} :
    evaluateAll Estree.builders calls = .ok trees ↔ List.Forall₂ Evaluates calls trees :=
  mapM_eq_ok_iff

namespace RoundTrip

theorem run_eq_ok_iff {input : Json} {trip : RoundTrip} :
    run input = .ok trip ↔
      ∃ body calls rebuilt, (Program.body input).result = .ok body ∧
        List.Forall₂ Converts body calls ∧ List.Forall₂ Evaluates calls rebuilt ∧
          trip = ⟨(Json.array body).normal, (Json.array rebuilt).normal, calls, rebuilt⟩ := by
  simp only [run, bind_eq_ok_iff, pure_eq_ok_iff, Program.convert_eq_ok_iff,
    evaluateAll_eq_ok_iff]
  constructor
  · rintro ⟨body, hbody, calls, ⟨body', hbody', hcalls⟩, rebuilt, hrebuilt, rfl⟩
    obtain rfl : body = body' := by
      rw [hbody] at hbody'
      exact Except.ok.inj hbody'
    exact ⟨body, calls, rebuilt, hbody, hcalls, hrebuilt, rfl⟩
  · rintro ⟨body, calls, rebuilt, hbody, hcalls, hrebuilt, rfl⟩
    exact ⟨body, hbody, calls, ⟨body, hbody, hcalls⟩, rebuilt, hrebuilt, rfl⟩

theorem again_eq_ok_iff {trip : RoundTrip} {calls : List Call} :
    trip.again = .ok calls ↔ List.Forall₂ Converts trip.rebuilt calls := by
  rw [again, Program.convert_eq_ok_iff]
  simp [Program.body_programOf]

end RoundTrip

namespace CommandLine

theorem readJson_eq_ok {files : Files} {file text : String} {input : Json}
    (hread : files.readText file = .ok text) (hinput : Json.ofText? text = some input) :
    readJson files file = .ok input := by
  simp [readJson, hread, hinput]

theorem checkFile_of_read {files : Files} {file : String} {input : Json}
    (hread : readJson files file = .ok input) : checkFile files file = judge input := by
  rw [checkFile, hread]
  rfl

end CommandLine

end BuilderCalls
