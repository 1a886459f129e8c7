import BuilderCalls.Proofs.LineDiff
import BuilderCalls.Proofs.Printing
import BuilderCalls.Proofs.Program
import BuilderCalls.Proofs.Rendering.Lines
import BuilderCalls.Proofs.Settings

/-!
# Converting on the command line

A conversion prints everything or, if anything at all fails, nothing but one report.  As text
it prints a line for each top-level statement, and the lines are those that splitting the
output finds.
-/

namespace BuilderCalls.CommandLine

variable {files : Files} {request : ConvertRequest} {settings : Settings} {output : List Char}

theorem run_of_parse {colored : Bool} {args : List String} {command : Command}
    (hparse : parse args = .ok command) :
    run files colored args = execute files colored command := by
  rw [run, hparse]

theorem convert_cases (files : Files) (request : ConvertRequest) :
    (∃ lines, requestedLines files request = .ok lines ∧
        convert files request = succeed (Terminal.unlines lines)) ∨
      ∃ failure, convert files request = fail failure := by
  cases hlines : requestedLines files request with
  | ok lines => exact .inl ⟨lines, rfl, convert_of_lines hlines⟩
  | error failure => exact .inr ⟨failure, convert_of_error hlines⟩

/-- The line is what the statement is rendered as. -/
def Prints (renderer : Renderer) (statement : Json) (line : String) : Prop :=
  ∃ call, Converts statement call ∧ renderer.render call = .ok line

theorem forall₂_prints_iff {renderer : Renderer} {body : List Json} {lines : List String} :
    List.Forall₂ (Prints renderer) body lines ↔
      ∃ calls, List.Forall₂ Converts body calls ∧ renderer.renderAll calls = .ok lines := by
  simp only [Renderer.renderAll, mapM_eq_ok_iff]
  constructor
  · intro hlines
    induction hlines with
    | nil => exact ⟨[], .nil, .nil⟩
    | cons hline _ ih =>
        obtain ⟨call, hcall, hrender⟩ := hline
        obtain ⟨calls, hcalls, hrendered⟩ := ih
        exact ⟨call :: calls, .cons hcall hcalls, .cons hrender hrendered⟩
  · rintro ⟨calls, hcalls, hrendered⟩
    induction hcalls generalizing lines with
    | nil =>
        cases hrendered
        exact .nil
    | cons hcall _ ih =>
        cases hrendered with
        | cons hrender hrendered => exact .cons ⟨_, hcall, hrender⟩ (ih hrendered)

theorem newline_not_mem_of_prints {renderer : Renderer} {body : List Json} {lines : List String}
    (hlines : List.Forall₂ (Prints renderer) body lines) :
    ∀ text ∈ lines.map String.toList, '\n' ∉ text := by
  intro text htext
  obtain ⟨line, hline, rfl⟩ := List.mem_map.mp htext
  obtain ⟨statement, -, call, -, hrender⟩ := exists_mem_of_forall₂ hlines hline
  exact (renderer.lineFree_render hrender).newline_not_mem

/-- What was printed as text is a line for each statement. -/
def LineFaithful (files : Files) (file : String) (options : RenderOptions)
    (output : List Char) : Prop :=
  ∃ input body renderer lines, readJson files file = .ok input ∧
    (Program.body input).result = .ok body ∧ Renderer.ofOptions options = .ok renderer ∧
      List.Forall₂ (Prints renderer) body lines ∧
        splitLines output = lines.map String.toList ++ [[]]

/-- The lines that are asked for are those of the statements. -/
theorem requestedLines_eq_ok_iff (hsettings : effectiveSettings files request = .ok settings)
    (hformat : settings.format = .text) {texts : List Line} :
    requestedLines files request = .ok texts ↔
      ∃ input body renderer lines, readJson files request.file = .ok input ∧
        (Program.body input).result = .ok body ∧
          Renderer.ofOptions settings.render = .ok renderer ∧
            List.Forall₂ (Prints renderer) body lines ∧ lines.map String.toList = texts := by
  simp only [requestedLines, formattedLines, hsettings, bind_eq_ok_iff, mapError_eq_ok_iff,
    Program.convert_eq_ok_iff, forall₂_prints_iff]
  constructor
  · rintro ⟨_, ⟨⟩, input, hread, calls, ⟨body, hbody, hcalls⟩, htexts⟩
    simp only [hformat, bind_eq_ok_iff, pure_eq_ok_iff] at htexts
    obtain ⟨renderer, hrenderer, lines, hlines, rfl⟩ := htexts
    exact ⟨input, body, renderer, lines, hread, hbody, hrenderer, ⟨calls, hcalls, hlines⟩, rfl⟩
  · rintro ⟨input, body, renderer, lines, hread, hbody, hrenderer, ⟨calls, hcalls, hlines⟩, rfl⟩
    refine ⟨settings, rfl, input, hread, calls, ⟨body, hbody, hcalls⟩, ?_⟩
    simp only [hformat, bind_eq_ok_iff, pure_eq_ok_iff]
    exact ⟨renderer, hrenderer, lines, hlines, rfl⟩

/-- As text, a conversion succeeds with an output exactly when that is a line for each
statement. -/
theorem convert_eq_succeed_iff (hsettings : effectiveSettings files request = .ok settings)
    (hformat : settings.format = .text) :
    convert files request = succeed output ↔
      LineFaithful files request.file settings.render output := by
  constructor
  · intro hconvert
    rcases convert_cases files request with ⟨texts, hlines, hsucceed⟩ | ⟨failure, hfail⟩
    · obtain rfl : Terminal.unlines texts = output :=
        congrArg Outcome.output (hsucceed.symm.trans hconvert)
      obtain ⟨input, body, renderer, lines, hread, hbody, hrenderer, hprints, rfl⟩ :=
        (requestedLines_eq_ok_iff hsettings hformat).mp hlines
      exact ⟨input, body, renderer, lines, hread, hbody, hrenderer, hprints,
        splitLines_unlines (newline_not_mem_of_prints hprints)⟩
    · cases congrArg Outcome.exit (hfail.symm.trans hconvert)
  · rintro ⟨input, body, renderer, lines, hread, hbody, hrenderer, hprints, hsplit⟩
    have hlines := (requestedLines_eq_ok_iff hsettings hformat).mpr
      ⟨input, body, renderer, lines, hread, hbody, hrenderer, hprints, rfl⟩
    have hjoined : Terminal.unlines (lines.map String.toList) = output := by
      rw [← joinLines_splitLines output, hsplit,
        ← splitLines_unlines (newline_not_mem_of_prints hprints), joinLines_splitLines]
    rw [convert_of_lines hlines, hjoined]

/--
A conversion either succeeds, or fails with one report and without output.  If it succeeds as
text, splitting the output finds one line for each top-level statement, in order, rendered with
the options of the request, else those of the file, else the defaults; and where there are such
lines, it succeeds with them.  No rendered line contains the end of a line.
-/
theorem convert_is_all_or_nothing_and_line_faithful {colored : Bool} {args : List String}
    (hparse : parse args = .ok (.convert request)) :
    ((run files colored args).exit = 0 ∧ (run files colored args).report = none ∨
        (run files colored args).exit = 1 ∧ (run files colored args).output = [] ∧
          ∃ failure, (run files colored args).report = some (.failure failure)) ∧
      ((run files colored args).exit = 0 → ∃ stated, FileStates files request stated) ∧
      (∀ stated, FileStates files request stated →
        (request.stated.or stated).settings.format = .text →
          ((run files colored args).exit = 0 →
              LineFaithful files request.file (request.stated.or stated).settings.render
                (run files colored args).output) ∧
            ∀ output,
              LineFaithful files request.file (request.stated.or stated).settings.render output →
                run files colored args = ⟨0, output, none⟩) ∧
      ∀ (renderer : Renderer) (call : Call) (line : String), renderer.render call = .ok line →
        ∀ char ∈ line.toList, char ∉ ['\n', '\r', '\u2028', '\u2029'] := by
  have hrun : run files colored args = convert files request := run_of_parse hparse
  rw [hrun]
  refine ⟨?_, ?_, ?_, ?_⟩
  · rcases convert_cases files request with ⟨lines, -, hconvert⟩ | ⟨failure, hconvert⟩
    · rw [hconvert]
      exact .inl ⟨rfl, rfl⟩
    · rw [hconvert]
      exact .inr ⟨rfl, rfl, failure, rfl⟩
  · intro hexit
    rcases convert_cases files request with ⟨lines, hlines, -⟩ | ⟨failure, hconvert⟩
    · obtain ⟨settings, hsettings, -⟩ := bind_eq_ok_iff.mp hlines
      obtain ⟨stated, hstates, -⟩ := effectiveSettings_eq_ok_iff.mp hsettings
      exact ⟨stated, hstates⟩
    · rw [hconvert] at hexit
      cases hexit
  · intro stated hstates hformat
    have hsettings := effectiveSettings_eq_ok_iff.mpr ⟨stated, hstates, rfl⟩
    have hsucceed {output : List Char} := @convert_eq_succeed_iff _ _ _ output hsettings hformat
    refine ⟨fun hexit => hsucceed.mp ?_, fun output => hsucceed.mpr⟩
    rcases convert_cases files request with ⟨lines, -, hconvert⟩ | ⟨failure, hconvert⟩
    · rw [hconvert]
      rfl
    · rw [hconvert] at hexit
      cases hexit
  · intro renderer call line hline char hchar hend
    have hfree := renderer.lineFree_render hline char hchar
    cases (isLineEnd_iff.mpr hend).symm.trans hfree

/-! ## A settings file and flags -/

def doubleQuotedJson : String :=
  "format: json\nrender:\n  quote: double\n  namespace: b\n"

/-- Two programs, one of which ends in what cannot be converted, and a settings file. -/
def twoStatements : Files :=
  .within
    [("tree.json", .file (some ("\x7b\"type\":\"Program\",\"body\":[\x7b\"type\":\"Literal\"," ++
        "\"value\":\"a\\nb\"\x7d,\x7b\"type\":\"ThisExpression\"\x7d]\x7d"))),
      ("element.json", .file (some ("\x7b\"type\":\"Program\",\"body\":[" ++
        "\x7b\"type\":\"ThisExpression\"\x7d,\x7b\"type\":\"JSXElement\"\x7d]\x7d"))),
      (settingsFile, .file (some doubleQuotedJson))]

def namespaceAsText : ConvertRequest :=
  ⟨"tree.json", none, some "c.d", none, some .text, none⟩

theorem textStates_doubleQuotedJson :
    TextStates doubleQuotedJson ⟨some "b", some .double, some .json⟩ := by
  have hread : Settings.ofText doubleQuotedJson = .ok ⟨⟨"b", .double⟩, .json⟩ := by
    decide +kernel
  obtain ⟨stated, hstates, hsettings⟩ := Settings.ofText_eq_ok_iff.mp hread
  rwa [stated.eq_of_settings hsettings (by decide) (by decide) (by decide)] at hstates

theorem convert_is_all_or_nothing_and_line_faithful_two_statements :
    parse ["convert", "tree.json", "--namespace=c.d", "--format=text"] =
        .ok (.convert namespaceAsText) ∧
      FileStates twoStatements namespaceAsText ⟨some "b", some .double, some .json⟩ ∧
      run twoStatements false ["convert", "tree.json", "--namespace=c.d", "--format=text"] =
        ⟨0, "c.d.literal(\"a\\nb\")\nc.d.thisExpression()\n".toList, none⟩ ∧
      LineFaithful twoStatements "tree.json" ⟨"c.d", .double⟩
        "c.d.literal(\"a\\nb\")\nc.d.thisExpression()\n".toList ∧
      (run twoStatements false ["convert", "element.json"]).exit = 1 ∧
      (run twoStatements false ["convert", "element.json"]).output = [] := by
  have hparse : parse ["convert", "tree.json", "--namespace=c.d", "--format=text"] =
      .ok (.convert namespaceAsText) :=
    rfl
  have hstates : FileStates twoStatements namespaceAsText ⟨some "b", some .double, some .json⟩ :=
    .discovered rfl rfl rfl rfl textStates_doubleQuotedJson
  have hprinted : (run twoStatements false
      ["convert", "tree.json", "--namespace=c.d", "--format=text"]).exit = 0 ∧
        (run twoStatements false
          ["convert", "tree.json", "--namespace=c.d", "--format=text"]).output =
            "c.d.literal(\"a\\nb\")\nc.d.thisExpression()\n".toList := by
    decide +kernel
  have hfailed : (run twoStatements false ["convert", "element.json"]).exit ≠ 0 := by
    decide +kernel
  obtain ⟨-, -, htext, -⟩ :=
    @convert_is_all_or_nothing_and_line_faithful twoStatements _ false _ hparse
  obtain ⟨hfaithful, hcomplete⟩ := htext _ hstates rfl
  have hlines := hfaithful hprinted.1
  rw [hprinted.2] at hlines
  obtain ⟨hall, -⟩ := @convert_is_all_or_nothing_and_line_faithful twoStatements
    ⟨"element.json", none, none, none, none, none⟩ false ["convert", "element.json"] rfl
  obtain ⟨hexit, houtput, -⟩ := hall.resolve_left fun hsucceed => hfailed hsucceed.1
  exact ⟨hparse, hstates, hcomplete _ hlines, hlines, hexit, houtput⟩

end BuilderCalls.CommandLine
