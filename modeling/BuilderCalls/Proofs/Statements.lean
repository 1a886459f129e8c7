import BuilderCalls.Proofs.Cursor
import BuilderCalls.Proofs.Program

/-!
# Statement by statement

A program is converted when all of its statements are, to their calls in the order of
the statements.  Otherwise it fails as the first statement that does, seen from the
program: the statements after this one do not matter.
-/

namespace BuilderCalls

namespace Program

/-! ## Bodies -/

/-- A failure of the input as a whole, which has no path. -/
structure OfInput (failure : Failure) : Prop where
  cause : ∃ fault, failure.cause = .input fault
  path : failure.path = none

theorem ofInput_of_statements {program : Json} {failure : Failure}
    (hfailure : statements program = .error failure) : OfInput failure := by
  unfold statements at hfailure
  split at hfailure <;> cases hfailure <;> exact ⟨⟨_, rfl⟩, rfl⟩

theorem ofInput_of_unwrap {wrapper : Json} {failure : Failure}
    (hfailure : unwrap wrapper = .error failure) : OfInput failure := by
  unfold unwrap at hfailure
  split at hfailure
  next =>
    split_ifs at hfailure
    cases hfailure
    exact ⟨⟨_, rfl⟩, rfl⟩
  next =>
    cases hfailure
    exact ⟨⟨_, rfl⟩, rfl⟩

theorem ofInput_of_programOf {input : Json} {failure : Failure}
    (hfailure : programOf input = .error failure) : OfInput failure := by
  unfold programOf at hfailure
  split at hfailure
  next =>
    cases hfailure
    exact ⟨⟨_, rfl⟩, rfl⟩
  next =>
    split_ifs at hfailure
    · exact ofInput_of_unwrap hfailure
    · cases hfailure
      exact ⟨⟨_, rfl⟩, rfl⟩

theorem ofInput_of_body {input : Json} {failure : Failure}
    (hfailure : (body input).result = .error failure) : OfInput failure := by
  rw [result_body, bind_eq_error_iff] at hfailure
  rcases hfailure with hfailure | ⟨program, -, hfailure⟩
  · exact ofInput_of_programOf hfailure
  · exact ofInput_of_statements hfailure

/-- An input that is not a program fails as an input. -/
theorem body_eq_error {input : Json} {failure : Failure}
    (hfailure : (body input).result = .error failure) : ∃ fault, failure.cause = .input fault :=
  (ofInput_of_body hfailure).cause

theorem body_of_program {program : Json} (htag : program.tag? = some "Program") :
    body program = .ofExcept (statements program) := by
  rw [body, htag]
  rfl

theorem body_of_wrapper {wrapper : Members} {program : Json}
    (htype : wrapper.lookup "type" = some (.string "File"))
    (hprogram : wrapper.lookup "program" = some program)
    (htag : program.tag? = some "Program") :
    (body (.object wrapper)).result = (body program).result := by
  have hwrapper : (Json.object wrapper).tag? = some "File" := by
    simp [Json.tag?, Json.get?, htype, Json.string?]
  have hunwrap : unwrap (.object wrapper) = .ok program := by
    simp [unwrap, Json.get?, hprogram, htag]
  rw [body_of_program htag, body, hwrapper]
  change (Traced.record .wrapper >>= fun _ => Traced.ofExcept (unwrap (.object wrapper)) >>=
    fun program => Traced.ofExcept (statements program)).result = statements program
  rw [hunwrap]
  rfl

/-! ## Statements -/

/-- The call for the statement at a place of the body. -/
def convertStatement (index : Nat) (statement : Json) : Traced Call := do
  let call ← (BuilderCalls.convert statement).under [.field "body", .index index]
  .record (.statement index call.nodeType)
  return call

theorem convertStatements_eq_mapM (index : Nat) (statements : List Json) :
    convertStatements index statements =
      (statements.zipIdx index).mapM fun (statement, place) =>
        convertStatement place statement := by
  induction statements generalizing index with
  | nil => rfl
  | cons statement rest ih =>
      rw [convertStatements, List.zipIdx_cons, List.mapM_cons, ih]
      simp [convertStatement]

/-- Each statement is converted as by the converter with one path, started at its place. -/
theorem convertStatements_eq_converted (index : Nat) (statements : List Json) :
    convertStatements index statements =
      (statements.zipIdx index).mapM fun (statement, place) => do
        let call ← Cursor.converted [.field "body", .index place] statement
        .record (.statement place call.nodeType)
        return call := by
  simp only [Cursor.converted_eq]
  exact convertStatements_eq_mapM index statements

theorem convertStatement_eq_ok_iff {index : Nat} {statement : Json} {call : Call} :
    (convertStatement index statement).result = .ok call ↔ Converts statement call := by
  simp [convertStatement, Converts]

theorem convertStatement_eq_error_iff {index : Nat} {statement : Json} {failure : Failure} :
    (convertStatement index statement).result = .error failure ↔
      ∃ inner, Fails statement inner ∧ failure = inner.under [.field "body", .index index] := by
  simp [convertStatement, bind_eq_error_iff, Fails, eq_comm (a := failure)]

theorem convertStatements_eq_error_iff {statements : List Json} {failure : Failure} :
    (convertStatements 0 statements).result = .error failure ↔
      ∃ index statement, statements[index]? = some statement ∧
        (∀ earlier ∈ statements.take index, ∃ call, Converts earlier call) ∧
          ∃ inner, Fails statement inner ∧
            failure = inner.under [.field "body", .index index] := by
  rw [convertStatements_eq_mapM, Traced.mapM_zipIdx_result_eq_error_iff
    fun statement place => exists_congr fun call => convertStatement_eq_ok_iff]
  simp only [convertStatement_eq_error_iff]

theorem result_convert_of_body {input : Json} {statements : List Json}
    (hbody : (body input).result = .ok statements) :
    (convert input).result = (convertStatements 0 statements).result := by
  rw [convert, Traced.result_bind, hbody]
  rfl

theorem result_convert_of_body_error {input : Json} {failure : Failure}
    (hbody : (body input).result = .error failure) : (convert input).result = .error failure := by
  rw [convert, Traced.result_bind, hbody]
  rfl

theorem result_convert_congr {input input' : Json}
    (hbody : (body input).result = (body input').result) :
    (convert input).result = (convert input').result := by
  cases hresult : (body input').result with
  | ok statements =>
      rw [result_convert_of_body hresult, result_convert_of_body (hbody.trans hresult)]
  | error failure =>
      rw [result_convert_of_body_error hresult, result_convert_of_body_error (hbody.trans hresult)]

theorem convert_eq_ok_iff_of_body {input : Json} {statements : List Json} {calls : List Call}
    (hbody : (body input).result = .ok statements) :
    (convert input).result = .ok calls ↔ List.Forall₂ Converts statements calls := by
  rw [result_convert_of_body hbody, convertStatements_eq_ok_iff]

/-! ## Programs -/

/--
An input that holds no statements fails as such.  Otherwise the calls are those of the
statements, place by place, or else the failure is that of the first statement that
fails, with its place in front of the path.  A wrapper changes nothing.
-/
theorem program_conversion_is_statementwise :
    (∀ input failure, (body input).result = .error failure →
      (convert input).result = .error failure ∧ ∃ fault, failure.cause = .input fault) ∧
    (∀ input statements, (body input).result = .ok statements →
      ((∃ calls, (convert input).result = .ok calls) ↔
        ∀ statement ∈ statements, ∃ call, Converts statement call) ∧
      (∀ calls, (convert input).result = .ok calls ↔
        statements.length = calls.length ∧
          ∀ index (hstatement : index < statements.length) (hcall : index < calls.length),
            Converts statements[index] calls[index]) ∧
      ∀ failure, (convert input).result = .error failure ↔
        ∃ index statement, statements[index]? = some statement ∧
          (∀ earlier ∈ statements.take index, ∃ call, Converts earlier call) ∧
            ∃ inner path, Fails statement inner ∧ inner.path = some path ∧
              failure = { inner with path := some (.field "body" :: .index index :: path) }) ∧
    ∀ (wrapper : Members) (program : Json), wrapper.lookup "type" = some (.string "File") →
      wrapper.lookup "program" = some program → program.tag? = some "Program" →
        (convert (.object wrapper)).result = (convert program).result := by
  refine ⟨fun input failure hbody => ?_, fun input statements hbody => ⟨?_, ?_, ?_⟩, ?_⟩
  · exact ⟨result_convert_of_body_error hbody, body_eq_error hbody⟩
  · simp only [convert_eq_ok_iff_of_body hbody]
    exact exists_forall₂_iff
  · intro calls
    rw [convert_eq_ok_iff_of_body hbody, List.forall₂_iff_get]
    rfl
  · intro failure
    rw [result_convert_of_body hbody, convertStatements_eq_error_iff]
    refine exists₂_congr fun index statement => and_congr_right fun _ => and_congr_right fun _ => ?_
    exact exists_congr fun inner => fails_under_iff
  · intro wrapper program htype hprogram htag
    exact result_convert_congr (body_of_wrapper htype hprogram htag)

/-- `this` and then an element that has no builder, in a body. -/
def strayStatements : List Json :=
  [.object [("type", .string "ThisExpression")], .object [("type", .string "JSXElement")]]

def strayProgram : Json :=
  .object [("type", .string "Program"), ("body", .array strayStatements)]

def wrappedProgram : Members :=
  [("comments", .array []), ("type", .string "File"), ("program", strayProgram)]

theorem program_conversion_is_statementwise_wrapped :
    (∃ failure, (body .null).result = .error failure ∧ (convert .null).result = .error failure) ∧
    (∃ failure, (convert (.object wrappedProgram)).result = .error failure ∧
      ∃ index statement, strayStatements[index]? = some statement ∧
        ∃ inner path, Fails statement inner ∧ inner.path = some path ∧
          failure.path = some (.field "body" :: .index index :: path)) := by
  obtain ⟨hinput, hbody, hwrapper⟩ := program_conversion_is_statementwise
  refine ⟨⟨_, rfl, (hinput .null _ rfl).1⟩, ?_⟩
  have hwrapped := hwrapper wrappedProgram strayProgram rfl rfl rfl
  have hfailure : (convert strayProgram).result = .error _ := rfl
  obtain ⟨index, statement, hstatement, -, inner, path, hinner, hpath, hplaced⟩ :=
    ((hbody strayProgram strayStatements rfl).2.2 _).mp hfailure
  exact ⟨_, hwrapped.trans hfailure, index, statement, hstatement, inner, path, hinner, hpath,
    congrArg Failure.path hplaced⟩

end Program

end BuilderCalls
