import BuilderCalls.Proofs.Json.Reader
import BuilderCalls.Proofs.Soundness
import BuilderCalls.Proofs.Verdict

/-!
# Checks

A check passes exactly the programs whose statements are faithful.  Its second
part, which converts once more, has no say in this.
-/

namespace BuilderCalls

/-! ## Statements -/

namespace Json

theorem Distinct.of_get? {value inner : Json} (hdistinct : value.Distinct) {key : String}
    (hget : value.get? key = some inner) : inner.Distinct := by
  cases value with
  | object members => exact hdistinct.of_holds (.field (Members.mem_of_lookup hget))
  | null | bool | number | string | array => cases hget

end Json

namespace Program

theorem distinct_of_statements {program : Json} {body : List Json} (hdistinct : program.Distinct)
    (hstatements : statements program = .ok body) : ∀ statement ∈ body, statement.Distinct := by
  unfold statements at hstatements
  split at hstatements
  · next hbody =>
      cases hstatements
      cases hdistinct.of_get? hbody with
      | array hitems => exact hitems
  · cases hstatements
  · cases hstatements

theorem distinct_of_unwrap {wrapper program : Json} (hdistinct : wrapper.Distinct)
    (hunwrap : unwrap wrapper = .ok program) : program.Distinct := by
  unfold unwrap at hunwrap
  split at hunwrap
  · next hprogram =>
      split at hunwrap
      · cases hunwrap
        exact hdistinct.of_get? hprogram
      · cases hunwrap
  · cases hunwrap

theorem distinct_of_programOf {input program : Json} (hdistinct : input.Distinct)
    (hprogram : programOf input = .ok program) : program.Distinct := by
  unfold programOf at hprogram
  split at hprogram
  · cases hprogram
  · split_ifs at hprogram
    · cases hprogram
      exact hdistinct
    · exact distinct_of_unwrap hdistinct hprogram

theorem distinct_of_body {input : Json} {statements : List Json} (hdistinct : input.Distinct)
    (hbody : (body input).result = .ok statements) :
    ∀ statement ∈ statements, statement.Distinct := by
  obtain ⟨program, hprogram, hstatements⟩ := body_eq_ok_iff.mp hbody
  exact distinct_of_statements (distinct_of_programOf hdistinct hprogram) hstatements

end Program

/-! ## Verdicts -/

theorem forall₂_normal_iff_faithfulTree {body : List Json} {calls : List Call}
    {rebuilt : List Json} (hdistinct : ∀ statement ∈ body, statement.Distinct)
    (hcalls : List.Forall₂ Converts body calls) (hrebuilt : List.Forall₂ Evaluates calls rebuilt) :
    List.Forall₂ (fun left right => left.equivalent right = true) (body.map Json.normal)
        (rebuilt.map Json.normal) ↔
      ∀ statement ∈ body, FaithfulTree statement := by
  induction hcalls generalizing rebuilt with
  | nil =>
      cases hrebuilt
      simp
  | cons hconverts _ ih =>
      obtain ⟨hstatement, hrest⟩ := List.forall_mem_cons.mp hdistinct
      cases hrebuilt with
      | cons hevaluates hrebuilt =>
          rw [List.map_cons, List.map_cons, List.forall₂_cons, List.forall_mem_cons,
            equivalent_normal_iff_faithfulTree hstatement hconverts hevaluates]
          exact and_congr_right fun _ => ih hrest hrebuilt

theorem RoundTrip.sameTree_iff {input : Json} {body : List Json} {trip : RoundTrip}
    (hdistinct : input.Distinct) (hbody : (Program.body input).result = .ok body)
    (hrun : run input = .ok trip) :
    trip.sameTree = true ↔ ∀ statement ∈ body, FaithfulTree statement := by
  obtain ⟨body', calls, rebuilt, hbody', hcalls, hrebuilt, rfl⟩ := run_eq_ok_iff.mp hrun
  obtain rfl : body = body' := Except.ok.inj (hbody.symm.trans hbody')
  rw [sameTree, Json.normal_array, Json.normal_array, Json.equivalent_array_iff]
  exact forall₂_normal_iff_faithfulTree (Program.distinct_of_body hdistinct hbody) hcalls hrebuilt

namespace CommandLine

theorem distinct_of_readJson {files : Files} {file : String} {input : Json}
    (hread : readJson files file = .ok input) : input.Distinct := by
  unfold readJson at hread
  split at hread
  · cases hread
  · split at hread
    · next hvalue =>
        cases hread
        exact Json.distinct_of_ofText? hvalue
    · cases hread

theorem judge_passes_iff {input : Json} {body : List Json} {calls : List Call}
    (hdistinct : input.Distinct) (hbody : (Program.body input).result = .ok body)
    (hconvert : (Program.convert input).result = .ok calls) :
    judge input = .ok none ↔ ∀ statement ∈ body, FaithfulTree statement := by
  obtain ⟨trip, hrun⟩ := RoundTrip.exists_run hconvert
  rw [judge_of_run hrun, ← RoundTrip.sameTree_iff hdistinct hbody hrun, Except.ok.injEq]
  simp

end CommandLine

/--
The trees that come back from their calls, key order and default fields apart, are the
faithful ones; and a check passes the programs all of whose statements are faithful.
-/
theorem check_passes_exactly_faithful_trees :
    (∀ value call tree, value.Distinct → Converts value call → Evaluates call tree →
      (value.normal.equivalent tree.normal = true ↔ FaithfulTree value)) ∧
      ∀ files file input body calls, CommandLine.readJson files file = .ok input →
        (Program.body input).result = .ok body → (Program.convert input).result = .ok calls →
          (CommandLine.checkFile files file = .ok none ↔
            ∀ statement ∈ body, FaithfulTree statement) := by
  constructor
  · intro value call tree hdistinct hconverts hevaluates
    exact equivalent_normal_iff_faithfulTree hdistinct hconverts hevaluates
  · intro files file input body calls hread hbody hconvert
    rw [CommandLine.checkFile_of_read hread]
    exact CommandLine.judge_passes_iff (CommandLine.distinct_of_readJson hread) hbody hconvert

theorem check_passes_exactly_faithful_trees_sparse :
    (sparseTree.Distinct ∧ Converts sparseTree sparseCall ∧ Evaluates sparseCall sparseTree ∧
        FaithfulTree sparseTree) ∧
      ∃ input body calls, CommandLine.readJson strangeFiles "program.json" = .ok input ∧
        (Program.body input).result = .ok body ∧ (Program.convert input).result = .ok calls ∧
          ¬∀ statement ∈ body, FaithfulTree statement := by
  have hevaluates : Evaluates sparseCall sparseTree := rfl
  obtain ⟨hdistinct, hconverts, -⟩ := readsBack_of_evaluates hevaluates
  obtain ⟨input, calls, hread, hconvert⟩ := exists_strange_program
  obtain ⟨body, hbody, -⟩ := Program.convert_eq_ok_iff.mp hconvert
  obtain ⟨discrepancy, hcheck⟩ := exists_strange_discrepancy
  refine ⟨⟨hdistinct, hconverts, hevaluates, ?_⟩, input, body, calls, hread, hbody, hconvert, ?_⟩
  · exact (check_passes_exactly_faithful_trees.1 sparseTree sparseCall sparseTree hdistinct
      hconverts hevaluates).mp (by decide)
  · intro hfaithful
    have hpasses := (check_passes_exactly_faithful_trees.2 strangeFiles "program.json" input body
      calls hread hbody hconvert).mpr hfaithful
    cases hcheck.symm.trans hpasses

end BuilderCalls
