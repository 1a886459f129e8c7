import BuilderCalls.Proofs.ConvertCommand
import BuilderCalls.Proofs.Discovery
import BuilderCalls.Proofs.Following
import BuilderCalls.Proofs.Spelling
import BuilderCalls.Proofs.StatusLines

/-!
# Checking on the command line

A check of a directory reports each program below it, in the order of their paths, and the
finding on one is what its file alone gives.  The order in which a walk comes upon the files
plays no part; a walk that fails, or finds no program, is reported as such.

`Judged` says which finding a file gets and `verdictOn` computes it (`judged_iff`).  Each file
adds the text of its finding to the output (`perform_reportFile`), so a directory adds theirs
one after the other.
-/

namespace BuilderCalls.CommandLine

open Effectful

/-! ## Findings -/

/-- The finding on a file by what reading it gives. -/
inductive Judged (refusals : Refusals) (file : String) :
    Except ReadFault String → Finding → Prop
  | unreadable (fault : ReadFault) :
      Judged refusals file (.error fault)
        ⟨file, .fails ("invalid input: cannot read '" ++ file ++ "': " ++ fault.message)⟩
  | notJson {text : String} (hinput : Json.ofText? text = none) :
      Judged refusals file (.ok text)
        ⟨file, .fails ("invalid input: '" ++ file ++ "' is not valid JSON" ++
          detailText (refusals.json text))⟩
  | unconvertible {text : String} {input : Json} {failure : Failure}
      (hinput : Json.ofText? text = some input)
      (hconvert : (Program.convert input).result = .error failure) :
      Judged refusals file (.ok text) ⟨file, .fails failure.text⟩
  | differs {text : String} {input : Json} {trip : RoundTrip}
      (hinput : Json.ofText? text = some input) (hrun : RoundTrip.run input = .ok trip)
      (htree : trip.sameTree = false) :
      Judged refusals file (.ok text)
        ⟨file, .differs trip.expected.pretty trip.actual.pretty⟩
  | passes {text : String} {input : Json} {trip : RoundTrip}
      (hinput : Json.ofText? text = some input) (hrun : RoundTrip.run input = .ok trip)
      (htree : trip.sameTree = true) :
      Judged refusals file (.ok text) ⟨file, .passes⟩

/-- The findings on programs below a root, each by its own file. -/
abbrev JudgedBelow (files : Files) (root : String) : List (List String) → List Finding → Prop :=
  List.Forall₂ fun names finding =>
    Judged files.refusals (joinPath root names) (files.readText (joinPath root names)) finding

/-- Judging, as a function. -/
def verdictOn (refusals : Refusals) (file : String) : Except ReadFault String → Verdict
  | .error fault => .fails ("invalid input: cannot read '" ++ file ++ "': " ++ fault.message)
  | .ok text =>
      match Json.ofText? text with
      | none =>
          .fails ("invalid input: '" ++ file ++ "' is not valid JSON" ++
            detailText (refusals.json text))
      | some input =>
          match RoundTrip.run input with
          | .error failure => .fails failure.text
          | .ok trip =>
              if trip.sameTree then .passes
              else .differs trip.expected.pretty trip.actual.pretty

def findingOn (files : Files) (file : String) : Finding :=
  ⟨file, verdictOn files.refusals file (files.readText file)⟩

def findingsBelow (files : Files) (root : String) (paths : List (List String)) : List Finding :=
  paths.map fun names => findingOn files (joinPath root names)

section Findings

variable {files files' : Files} {colored : Bool} {file root : String} {finding : Finding}
  {paths : List (List String)} {findings : List Finding}

theorem Judged.eq_verdictOn {refusals : Refusals} {contents : Except ReadFault String}
    (hjudged : Judged refusals file contents finding) :
    finding = ⟨file, verdictOn refusals file contents⟩ := by
  cases hjudged with
  | unreadable => rfl
  | notJson hinput => simp only [verdictOn, hinput]
  | unconvertible hinput hconvert =>
      simp only [verdictOn, hinput, RoundTrip.run_of_convert_error hconvert]
  | differs hinput hrun htree => simp [verdictOn, hinput, hrun, htree]
  | passes hinput hrun htree => simp [verdictOn, hinput, hrun, htree]

theorem exists_judged (refusals : Refusals) (file : String) (contents : Except ReadFault String) :
    ∃ finding, Judged refusals file contents finding := by
  cases contents with
  | error fault => exact ⟨_, .unreadable fault⟩
  | ok text =>
      cases hinput : Json.ofText? text with
      | none => exact ⟨_, .notJson hinput⟩
      | some input =>
          cases hconvert : (Program.convert input).result with
          | error failure => exact ⟨_, .unconvertible hinput hconvert⟩
          | ok calls =>
              obtain ⟨trip, hrun⟩ := RoundTrip.exists_run hconvert
              cases htree : trip.sameTree with
              | false => exact ⟨_, .differs hinput hrun htree⟩
              | true => exact ⟨_, .passes hinput hrun htree⟩

theorem judged_iff {refusals : Refusals} {contents : Except ReadFault String} :
    Judged refusals file contents finding ↔
      finding = ⟨file, verdictOn refusals file contents⟩ := by
  refine ⟨Judged.eq_verdictOn, ?_⟩
  rintro rfl
  obtain ⟨finding, hjudged⟩ := exists_judged refusals file contents
  exact hjudged.eq_verdictOn ▸ hjudged

theorem judgedBelow_iff :
    JudgedBelow files root paths findings ↔ findingsBelow files root paths = findings := by
  rw [findingsBelow, ← List.forall₂_eq_eq_eq, List.forall₂_map_left_iff]
  constructor
  · exact fun hfindings => hfindings.imp fun _ _ hjudged => (judged_iff.mp hjudged).symm
  · exact fun hfindings => hfindings.imp fun _ _ hfinding => judged_iff.mpr hfinding.symm

theorem judgedBelow_findingsBelow (files : Files) (root : String) (paths : List (List String)) :
    JudgedBelow files root paths (findingsBelow files root paths) :=
  judgedBelow_iff.mpr rfl

/-- Findings depend on nothing but what reading the files gives. -/
theorem JudgedBelow.of_reads (hfindings : JudgedBelow files root paths findings)
    (hrefusals : files'.refusals = files.refusals)
    (hread : ∀ names ∈ paths,
      files'.readText (joinPath root names) = files.readText (joinPath root names)) :
    JudgedBelow files' root paths findings := by
  obtain ⟨hlength, hall⟩ := List.forall₂_iff_zip.mp hfindings
  refine List.forall₂_iff_zip.mpr ⟨hlength, fun {names finding} hmem => ?_⟩
  rw [hrefusals, hread names (List.of_mem_zip hmem).1]
  exact hall hmem

/-! ## Printing findings -/

theorem checkFile_of_readText {text : String} {input : Json}
    (hread : files.readText file = .ok text) (hinput : Json.ofText? text = some input) :
    checkFile files file = judge input :=
  checkFile_of_read (readJson_eq_ok hread hinput)

theorem text_input (fault : InputFault) :
    (Failure.input fault).text = "invalid input: " ++ fault.message := by
  have hpath : (Failure.input fault).pathText = "" := rfl
  have hposition : (Failure.input fault).positionText = "" := rfl
  have hcause : (Failure.input fault).cause.message = "invalid input: " ++ fault.message := rfl
  rw [Failure.text, hpath, hposition, hcause, String.append_empty, String.append_empty]

theorem text_unreadable (file : String) (fault : ReadFault) :
    (Failure.input (.unreadable file fault)).text =
      "invalid input: cannot read '" ++ file ++ "': " ++ fault.message := by
  have hmessage : (InputFault.unreadable file fault).message =
      "cannot read " ++ quoteWord file ++ ": " ++ fault.message := by
    with_unfolding_all rfl
  rw [text_input, hmessage]
  exact String.toList_inj.mp (by simp [quoteWord])

theorem text_fileNotJson (file : String) (detail : Option String) :
    (Failure.input (.fileNotJson file detail)).text =
      "invalid input: '" ++ file ++ "' is not valid JSON" ++ detailText detail := by
  have hmessage : (InputFault.fileNotJson file detail).message =
      quoteWord file ++ " is not valid JSON" ++ detailText detail := by
    with_unfolding_all rfl
  rw [text_input, hmessage]
  exact String.toList_inj.mp (by simp [quoteWord])

theorem perform_reportFile_of_error {failure : Failure}
    (hcheck : checkFile files file = .error failure) (printed : List Char) :
    perform (reportFile files colored file) printed =
      (.ok false, printed ++ Finding.text colored ⟨file, .fails failure.text⟩) := by
  have hstatus : perform (reportFile files colored file) printed =
      (.ok false, printed ++ Terminal.status colored false file (some failure.text)) := by
    rw [reportFile, hcheck]
    rfl
  rw [hstatus, Finding.text_eq, Finding.difference, List.append_nil]
  rfl

/-- What is printed about a file is the finding on it. -/
theorem perform_reportFile (hjudged : Judged files.refusals file (files.readText file) finding)
    (printed : List Char) :
    perform (reportFile files colored file) printed =
      (.ok finding.passed, printed ++ finding.text colored) := by
  generalize hread : files.readText file = contents at hjudged
  cases hjudged with
  | unreadable fault =>
      have hcheck : checkFile files file = .error (.input (.unreadable file fault)) := by
        rw [checkFile, readJson, hread]
        rfl
      rw [perform_reportFile_of_error hcheck, text_unreadable]
      rfl
  | @notJson text hinput =>
      have hcheck : checkFile files file =
          .error (.input (.fileNotJson file (files.refusals.json text))) := by
        rw [checkFile, readJson, hread]
        simp only [hinput]
        rfl
      rw [perform_reportFile_of_error hcheck, text_fileNotJson]
      rfl
  | unconvertible hinput hconvert =>
      have hcheck := (checkFile_of_readText hread hinput).trans (judge_of_convert_error hconvert)
      exact perform_reportFile_of_error hcheck printed
  | differs hinput hrun htree =>
      have hcheck := (checkFile_of_readText hread hinput).trans (judge_of_run hrun)
      rw [htree] at hcheck
      rw [reportFile, hcheck, Finding.text_eq, ← List.append_assoc]
      rfl
  | passes hinput hrun htree =>
      have hcheck := (checkFile_of_readText hread hinput).trans (judge_of_run hrun)
      rw [htree] at hcheck
      rw [reportFile, hcheck, Finding.text_eq, Finding.difference, List.append_nil]
      rfl

/-- Programs are reported one after the other, whatever is found. -/
theorem perform_reportFiles (hfindings : JudgedBelow files root paths findings)
    (printed : List Char) :
    perform (reportFiles files colored (paths.map (joinPath root))) printed =
      (.ok (findings.countP fun finding => !finding.passed),
        printed ++ findings.flatMap (Finding.text colored)) := by
  induction hfindings generalizing printed with
  | nil => rw [List.flatMap_nil, List.append_nil]; rfl
  | @cons names finding paths findings hfinding hfindings ih =>
      rw [List.map_cons, reportFiles, perform_bind_of_ok (perform_reportFile hfinding printed),
        perform_bind_of_ok (ih _), List.countP_cons, List.flatMap_cons, List.append_assoc]
      cases finding.passed <;> rfl

/-! ## Runs -/

theorem check_of_error {failure : Failure} (hprograms : programs files root = .error failure) :
    check files colored root = fail failure := by
  have hperform : perform (checking files colored root) [] = (.error failure, []) := by
    rw [checking, hprograms]
    rfl
  exact outcome_of_error hperform

theorem check_of_programs (hprograms : programs files root = .ok (paths.map (joinPath root)))
    (hfindings : JudgedBelow files root paths findings) :
    check files colored root =
      ⟨if findings.all Finding.passed then 0 else 1, findings.flatMap (Finding.text colored),
        none⟩ := by
  have hperform : perform (checking files colored root) [] =
      (.ok ((findings.countP fun finding => !finding.passed) == 0),
        findings.flatMap (Finding.text colored)) := by
    rw [checking, hprograms]
    exact perform_bind_of_ok (perform_reportFiles hfindings [])
  have hall : ((findings.countP fun finding => !finding.passed) == 0) =
      findings.all Finding.passed := by
    rw [Bool.eq_iff_iff, beq_iff_eq, List.countP_eq_zero, List.all_eq_true]
    simp
  rw [← hall]
  exact outcome_of_ok hperform

theorem check_file (hfile : files.isFile file = true)
    (hjudged : Judged files.refusals file (files.readText file) finding) :
    check files colored file =
      ⟨if finding.passed then 0 else 1, finding.text colored, none⟩ := by
  have hprograms : programs files file = .ok ([[]].map (joinPath file)) := if_pos hfile
  rw [check_of_programs hprograms (.cons hjudged .nil)]
  simp

theorem programs_of_walk (hroot : files.isFile root = false) :
    programs files root = discover root (files.walk root) :=
  if_neg (Bool.not_eq_true _ ▸ hroot)

theorem exists_check_of_stop (colored : Bool) (hroot : files.isFile root = false) {stop : WalkFault}
    (hstop : .error stop ∈ files.walk root) :
    ∃ stop, .error stop ∈ files.walk root ∧
      check files colored root = fail (stopFailure root stop) := by
  obtain ⟨stop, hmem, herror⟩ := exists_discover_eq_error root hstop
  exact ⟨stop, hmem, check_of_error ((programs_of_walk hroot).trans herror)⟩

theorem check_of_listed_nil (hroot : files.isFile root = false)
    (hwalk : ∀ stop, .error stop ∉ files.walk root) (hlisted : listed (files.walk root) = []) :
    check files colored root = fail (.input (.noPrograms root)) := by
  have hprograms := (programs_of_walk hroot).trans (discover_of_ok hwalk)
  rw [hlisted] at hprograms
  exact check_of_error hprograms

theorem check_of_listed (hroot : files.isFile root = false)
    (hwalk : ∀ stop, .error stop ∉ files.walk root) (hlisted : listed (files.walk root) ≠ [])
    (hfindings : JudgedBelow files root (listed (files.walk root)) findings) :
    check files colored root =
      ⟨if findings.all Finding.passed then 0 else 1, findings.flatMap (Finding.text colored),
        none⟩ := by
  have hprograms := (programs_of_walk hroot).trans (discover_of_ok hwalk)
  obtain ⟨names, rest, hcons⟩ := List.exists_cons_of_ne_nil hlisted
  rw [hcons] at hprograms hfindings
  exact check_of_programs hprograms hfindings

/-- The outcome does not depend on the order in which a walk tells of what there is. -/
theorem check_of_perm (hroot : files.isFile root = false) (hroot' : files'.isFile root = false)
    (hrefusals : files'.refusals = files.refusals)
    (hperm : (files'.walk root).Perm (files.walk root))
    (hread : ∀ names, Lists files root names →
      files'.readText (joinPath root names) = files.readText (joinPath root names)) :
    (check files' colored root).exit = (check files colored root).exit ∧
      (check files' colored root).output = (check files colored root).output := by
  by_cases hstop : ∃ stop, .error stop ∈ files.walk root
  · obtain ⟨stop, hstop⟩ := hstop
    obtain ⟨_, -, hcheck⟩ := exists_check_of_stop colored hroot hstop
    obtain ⟨_, -, hcheck'⟩ :=
      exists_check_of_stop colored hroot' (hperm.mem_iff.mpr hstop)
    rw [hcheck, hcheck']
    exact ⟨rfl, rfl⟩
  · have hwalk : ∀ stop, .error stop ∉ files.walk root := not_exists.mp hstop
    have hwalk' : ∀ stop, .error stop ∉ files'.walk root := fun stop =>
      hperm.mem_iff.not.mpr (hwalk stop)
    have hlisted := listed_eq_of_perm hperm
    by_cases hnil : listed (files.walk root) = []
    · rw [check_of_listed_nil hroot hwalk hnil,
        check_of_listed_nil hroot' hwalk' (hlisted.trans hnil)]
      exact ⟨rfl, rfl⟩
    · have hfindings := judgedBelow_findingsBelow files root (listed (files.walk root))
      have hfindings' : JudgedBelow files' root (listed (files'.walk root))
          (findingsBelow files root (listed (files.walk root))) := by
        rw [hlisted]
        refine hfindings.of_reads hrefusals fun names hnames => ?_
        exact hread names (mem_listed_iff.mp hnames)
      rw [check_of_listed hroot hwalk hnil hfindings,
        check_of_listed hroot' hwalk' (hlisted ▸ hnil) hfindings']
      exact ⟨rfl, rfl⟩

/-- The order in which directories list what they hold plays no part either. -/
theorem check_of_sameContents {directory directory' : List (String × Entry)} {refusals : Refusals}
    (hproper : (Entry.directory directory).Proper)
    (hproper' : (Entry.directory directory').Proper)
    (hsame : (Entry.directory directory).SameContents (.directory directory'))
    (hroot : (Files.within directory refusals).isFile root = false) :
    (check (Files.within directory' refusals) colored root).exit =
        (check (Files.within directory refusals) colored root).exit ∧
      (check (Files.within directory' refusals) colored root).output =
        (check (Files.within directory refusals) colored root).output := by
  have hfiles := @Files.same_of_sameContents _ _ refusals hproper hproper' hsame
  obtain ⟨hfile, -, hperm⟩ := hfiles root
  exact check_of_perm hroot (hfile.trans hroot) rfl hperm fun names _ => (hfiles _).2.1

end Findings

/--
A check of a directory fails with a report and without output if the walk stops or tells of
no program.  Otherwise it prints the finding on each program, in the order of their paths, and
succeeds exactly if all of them pass; the finding on a program is the one that a check of its
file alone prints, and depends on nothing but what reading this file gives.  Where no file name
and no reason has a line break, the status lines of the output are those of the findings.  The
order in which the walk goes plays no part.  In a proper tree a walk tells nothing twice and
leaves out no program, the path of each leads to its file, and directories may list what they
hold in any order.
-/
theorem check_judges_each_program_alone {files : Files} {colored : Bool} {args : List String}
    {root : String} (hparse : parse args = .ok (.check root)) (hroot : files.isFile root = false) :
    ((∃ stop, .error stop ∈ files.walk root) →
        ∃ stop, .error stop ∈ files.walk root ∧
          run files colored args = fail (stopFailure root stop)) ∧
      ((∀ stop, .error stop ∉ files.walk root) → (∀ names, ¬Lists files root names) →
        run files colored args = fail (.input (.noPrograms root))) ∧
      ((∀ stop, .error stop ∉ files.walk root) → (∃ names, Lists files root names) →
        ∃ programs findings,
          (∀ names, names ∈ programs ↔ Lists files root names) ∧
            ((files.walk root).Nodup → programs.Pairwise Before) ∧
            JudgedBelow files root programs findings ∧
            run files colored args =
              ⟨if findings.all Finding.passed then 0 else 1,
                findings.flatMap (Finding.text colored), none⟩ ∧
            ((∀ finding ∈ findings, '\n' ∉ finding.label) →
              statusLines (run files colored args).output =
                findings.map fun finding => Terminal.withoutCodes finding.line)) ∧
      (∀ file args' finding, files.isFile file = true → parse args' = .ok (.check file) →
        Judged files.refusals file (files.readText file) finding →
          run files colored args' =
            ⟨if finding.passed then 0 else 1, finding.text colored, none⟩) ∧
      (∀ files' : Files, files'.isFile root = false → files'.refusals = files.refusals →
        (files'.walk root).Perm (files.walk root) →
          (∀ names, Lists files root names →
            files'.readText (joinPath root names) = files.readText (joinPath root names)) →
            (run files' colored args).exit = (run files colored args).exit ∧
              (run files' colored args).output = (run files colored args).output) ∧
      ∀ directory refusals, files = Files.within directory refusals →
        (Entry.directory directory).Proper →
        (files.walk root).Nodup ∧
          (∀ names, Lists files root names ↔ IsProgram names ∧
            ∃ entry inner, files.entryAt root = .ok entry ∧ entry.at? names = some inner ∧
              inner.isFile = true) ∧
          (∀ names, Lists files root names →
            (joinPath root names).utf8ByteSize < Entry.pathLimit →
              files.isFile (joinPath root names) = true) ∧
          ∀ directory', (Entry.directory directory').Proper →
            (Entry.directory directory).SameContents (.directory directory') →
              (run (Files.within directory' refusals) colored args).exit =
                  (run files colored args).exit ∧
                (run (Files.within directory' refusals) colored args).output =
                  (run files colored args).output := by
  have hrun (files : Files) : run files colored args = check files colored root :=
    run_of_parse hparse
  refine ⟨?_, ?_, ?_, ?_, ?_, ?_⟩
  · rintro ⟨stop, hstop⟩
    rw [hrun]
    exact exists_check_of_stop colored hroot hstop
  · intro hwalk hnone
    have hlisted : listed (files.walk root) = [] :=
      List.eq_nil_iff_forall_not_mem.mpr fun names hnames => hnone names (mem_listed_iff.mp hnames)
    rw [hrun, check_of_listed_nil hroot hwalk hlisted]
  · rintro hwalk ⟨names, hnames⟩
    have hlisted : listed (files.walk root) ≠ [] :=
      List.ne_nil_of_mem (mem_listed_iff.mpr hnames)
    have hfindings := judgedBelow_findingsBelow files root (listed (files.walk root))
    rw [hrun, check_of_listed hroot hwalk hlisted hfindings]
    exact ⟨listed (files.walk root), _, fun names => mem_listed_iff, pairwise_listed, hfindings,
      rfl, fun hlabels => statusLines_findings hlabels colored⟩
  · intro file args' finding hfile hparse' hjudged
    rw [run_of_parse hparse']
    exact check_file hfile hjudged
  · intro files' hroot' hrefusals hperm hread
    rw [hrun, hrun]
    exact check_of_perm hroot hroot' hrefusals hperm hread
  · rintro directory refusals rfl hproper
    refine ⟨Files.nodup_walk hproper root, fun names => ?_, fun names hnames => ?_, ?_⟩
    · rw [Lists, and_comm, Files.file_mem_walk_iff hproper]
    · exact Files.isFile_joinPath hproper hnames.1
    · intro directory' hproper' hsame
      rw [hrun, hrun]
      exact check_of_sameContents hproper hproper' hsame hroot

/-! ## Line breaks in findings -/

/-- One program below `d`, in which the tag of a statement has a line break. -/
def brokenTag : Files :=
  .within [("d", .directory [("a.json", .file (some
    "\x7b\"type\":\"Program\",\"body\":[\x7b\"type\":\"X\\nok     d/b.json\"\x7d]\x7d"))])]

theorem status_lines_outnumber_programs :
    (∀ stop, .error stop ∉ brokenTag.walk "d") ∧
      (∀ names, Lists brokenTag "d" names ↔ names = ["a.json"]) ∧
        statusLines (run brokenTag false ["check", "d"]).output =
          ["FAILED d/a.json: unsupported node type 'X".toList,
            "ok     d/b.json' at body[0]".toList] := by
  have hwalk : brokenTag.walk "d" = [.ok ⟨[], false⟩, .ok ⟨["a.json"], true⟩] := rfl
  have hstem : IsProgram ["a.json"] := ⟨[], "a", by decide, rfl⟩
  refine ⟨fun stop hstop => ?_, fun names => ?_, by decide +kernel⟩
  · rw [hwalk] at hstop
    simp at hstop
  · rw [Lists, hwalk]
    constructor
    · rintro ⟨hnames, -⟩
      simpa using hnames
    · rintro rfl
      exact ⟨.tail _ (.head _), hstem⟩

/-! ## A mixed directory -/

def emptyProgram : String :=
  "\x7b\"type\":\"Program\",\"body\":[]\x7d"

def elementProgram : String :=
  "\x7b\"type\":\"Program\",\"body\":[\x7b\"type\":\"JSXElement\"\x7d]\x7d"

def extraProgram : String :=
  "\x7b\"type\":\"Program\",\"body\":[\x7b\"type\":\"EmptyStatement\",\"extra\":true\x7d]\x7d"

/-- Below `d` one program passes, one differs, one cannot be converted, one is not JSON and one
cannot be read. -/
def mixedTree : List (String × Entry) :=
  [("d", .directory
      [("f.json", .file (some elementProgram)), ("b.json", .file (some emptyProgram)),
        ("notes.txt", .file (some "b.json")), ("a.json", .closed true .accessDenied),
        ("a", .directory [("c.json", .file (some "x"))]),
        ("e.json", .file (some extraProgram))]),
    ("locked", .directory [("a.json", .file none), ("inner", .closed false .accessDenied)]),
    ("empty", .directory [])]

def mixedRefusals : Refusals where
  json text := if text = "x" then some "expected value at line 1 column 1" else none
  yaml _ := none

def mixedFiles : Files :=
  .within mixedTree mixedRefusals

/-- The same below `d`, come upon in another order. -/
def shuffledFiles : Files :=
  .within
    [("d", .directory
      [("a.json", .closed true .accessDenied), ("a", .directory [("c.json", .file (some "x"))]),
        ("e.json", .file (some extraProgram)), ("f.json", .file (some elementProgram)),
        ("notes.txt", .file (some "b.json")), ("b.json", .file (some emptyProgram))])]
    mixedRefusals

def mixedPaths : List (List String) :=
  [["a", "c.json"], ["a.json"], ["b.json"], ["e.json"], ["f.json"]]

def mixedFindings : List Finding :=
  [⟨"d/a/c.json",
      .fails "invalid input: 'd/a/c.json' is not valid JSON: expected value at line 1 column 1"⟩,
    ⟨"d/a.json",
      .fails "invalid input: cannot read 'd/a.json': Permission denied (os error 13)"⟩,
    ⟨"d/b.json", .passes⟩,
    ⟨"d/e.json", .differs
      "[\n  \x7b\n    \"type\": \"EmptyStatement\",\n    \"extra\": true\n  \x7d\n]".toList
      "[\n  \x7b\n    \"type\": \"EmptyStatement\"\n  \x7d\n]".toList⟩,
    ⟨"d/f.json", .fails "unsupported node type 'JSXElement' at body[0]"⟩]

def mixedStatusLines : List Line :=
  ["FAILED d/a/c.json: invalid input: 'd/a/c.json' is not valid JSON: " ++
      "expected value at line 1 column 1",
    "FAILED d/a.json: invalid input: cannot read 'd/a.json': Permission denied (os error 13)",
    "ok     d/b.json",
    "FAILED d/e.json: reconstruction differs",
    "FAILED d/f.json: unsupported node type 'JSXElement' at body[0]"].map String.toList

def differenceLines : List Line :=
  [" [",
    "   \x7b",
    "-    \"type\": \"EmptyStatement\",",
    "-    \"extra\": true",
    "+    \"type\": \"EmptyStatement\"",
    "   \x7d",
    " ]"].map String.toList

/-- The difference stands below the status line of the program that differs. -/
def mixedLines : List Line :=
  mixedStatusLines.take 4 ++ differenceLines ++ mixedStatusLines.drop 4

theorem findingsBelow_mixedFiles : findingsBelow mixedFiles "d" mixedPaths = mixedFindings := by
  decide +kernel

theorem proper_mixedTree : (Entry.directory mixedTree).Proper := by
  refine .directory (by decide) (by decide) fun name entry hentry => ?_
  simp only [mixedTree, List.mem_cons, Prod.mk.injEq, List.not_mem_nil, or_false] at hentry
  rcases hentry with ⟨rfl, rfl⟩ | ⟨rfl, rfl⟩ | ⟨rfl, rfl⟩
  · refine .directory (by decide) (by decide) fun name entry hentry => ?_
    simp only [List.mem_cons, Prod.mk.injEq, List.not_mem_nil, or_false] at hentry
    rcases hentry with ⟨rfl, rfl⟩ | ⟨rfl, rfl⟩ | ⟨rfl, rfl⟩ | ⟨rfl, rfl⟩ | ⟨rfl, rfl⟩ | ⟨rfl, rfl⟩
    · exact .file _
    · exact .file _
    · exact .file _
    · exact .closed _ _
    · refine .directory (by decide) (by decide) fun name entry hentry => ?_
      obtain ⟨rfl, rfl⟩ := Prod.mk.inj (List.mem_singleton.mp hentry)
      exact .file _
    · exact .file _
  · refine .directory (by decide) (by decide) fun name entry hentry => ?_
    simp only [List.mem_cons, Prod.mk.injEq, List.not_mem_nil, or_false] at hentry
    rcases hentry with ⟨rfl, rfl⟩ | ⟨rfl, rfl⟩
    · exact .file _
    · exact .closed _ _
  · exact .directory (by decide) (by decide) nofun

theorem listed_mixedFiles : listed (mixedFiles.walk "d") = mixedPaths := by
  refine eq_of_sorted (pairwise_sorted _) (by decide) ((List.mergeSort_perm _ _).trans ?_)
  have hfound : (((mixedFiles.walk "d").filterMap Except.toOption).filter isProgram).map
      Found.names = [["f.json"], ["b.json"], ["a.json"], ["a", "c.json"], ["e.json"]] := rfl
  rw [hfound]
  decide

theorem lists_mixedFiles_iff (names : List String) :
    Lists mixedFiles "d" names ↔ names ∈ mixedPaths := by
  rw [← listed_mixedFiles, mem_listed_iff]
  rfl

theorem text_mixedFindings :
    mixedFindings.flatMap (Finding.text false) = Terminal.unlines mixedLines := by
  decide +kernel

theorem line_mixedFindings :
    (mixedFindings.map fun finding => Terminal.withoutCodes finding.line) = mixedStatusLines := by
  decide +kernel

theorem text_findingOn_extraProgram :
    (findingOn mixedFiles "d/e.json").text false =
      Terminal.unlines ("FAILED d/e.json: reconstruction differs".toList :: differenceLines) := by
  decide +kernel

theorem check_judges_each_program_alone_mixed :
    (parse ["check", "d"] = .ok (.check "d") ∧ mixedFiles.isFile "d" = false ∧
        run mixedFiles false ["check", "d"] = ⟨1, Terminal.unlines mixedLines, none⟩ ∧
        statusLines (Terminal.unlines mixedLines) = mixedStatusLines) ∧
      (mixedFiles.isFile "d/b.json" = true ∧
        run mixedFiles false ["check", "d/b.json"] = ⟨0, "ok     d/b.json\n".toList, none⟩) ∧
      (mixedFiles.isFile "d/e.json" = true ∧
        run mixedFiles false ["check", "d/e.json"] = ⟨1, Terminal.unlines
          ("FAILED d/e.json: reconstruction differs".toList :: differenceLines), none⟩) ∧
      (run shuffledFiles false ["check", "d"]).output = Terminal.unlines mixedLines ∧
      run mixedFiles false ["check", "locked"] =
        fail (stopFailure "locked" ⟨["inner"], .accessDenied⟩) ∧
      run mixedFiles false ["check", "empty"] = fail (.input (.noPrograms "empty")) := by
  have hparse : parse ["check", "d"] = .ok (.check "d") := rfl
  have hroot : mixedFiles.isFile "d" = false := rfl
  obtain ⟨-, -, hlists, halone, horder, hproper⟩ :=
    @check_judges_each_program_alone mixedFiles false ["check", "d"] "d" hparse hroot
  have hwalk : ∀ stop, .error stop ∉ mixedFiles.walk "d" := by
    intro stop hstop
    have htold : (mixedFiles.walk "d").all Except.isOk = true := rfl
    cases List.all_eq_true.mp htold _ hstop
  obtain ⟨hnodup, -⟩ := hproper mixedTree mixedRefusals rfl proper_mixedTree
  have hprinted : run mixedFiles false ["check", "d"] = ⟨1, Terminal.unlines mixedLines, none⟩ ∧
      statusLines (Terminal.unlines mixedLines) = mixedStatusLines := by
    obtain ⟨programs, findings, hprograms, hsorted, hfindings, hrun, hstatus⟩ :=
      hlists hwalk ⟨["b.json"], (lists_mixedFiles_iff _).mpr (by decide)⟩
    obtain rfl : programs = mixedPaths :=
      (eq_listed hprograms (hsorted hnodup) hnodup).trans listed_mixedFiles
    obtain rfl : findings = mixedFindings :=
      (judgedBelow_iff.mp hfindings).symm.trans findingsBelow_mixedFiles
    have hlabels : ∀ finding ∈ mixedFindings, '\n' ∉ finding.label := by decide +kernel
    have hfailed : mixedFindings.all Finding.passed = false := rfl
    have hstatus := hstatus hlabels
    rw [hrun, text_mixedFindings, line_mixedFindings] at hstatus
    rw [text_mixedFindings, hfailed] at hrun
    exact ⟨hrun, hstatus⟩
  refine ⟨⟨hparse, hroot, hprinted⟩, ⟨rfl, ?_⟩, ⟨rfl, ?_⟩, ?_, ?_, ?_⟩
  · have hfinding : findingOn mixedFiles "d/b.json" = ⟨"d/b.json", .passes⟩ := by decide +kernel
    exact halone "d/b.json" ["check", "d/b.json"] _ rfl rfl (judged_iff.mpr hfinding.symm)
  · have hfailed : (findingOn mixedFiles "d/e.json").passed = false := by decide +kernel
    have hrun := halone "d/e.json" ["check", "d/e.json"] _ rfl rfl (judged_iff.mpr rfl)
    rw [← findingOn, hfailed, text_findingOn_extraProgram] at hrun
    exact hrun
  · have hperm : (shuffledFiles.walk "d").Perm (mixedFiles.walk "d") := by decide +kernel
    have hsame := horder shuffledFiles rfl rfl hperm fun names hnames => by
      have hnames := (lists_mixedFiles_iff names).mp hnames
      simp only [mixedPaths, List.mem_cons, List.not_mem_nil, or_false] at hnames
      rcases hnames with rfl | rfl | rfl | rfl | rfl <;> rfl
    rw [hsame.2, hprinted.1]
  · have htold : mixedFiles.walk "locked" = [.ok ⟨[], false⟩, .ok ⟨["a.json"], true⟩,
      .ok ⟨["inner"], false⟩, .error ⟨["inner"], .accessDenied⟩] := rfl
    obtain ⟨hlocked, -⟩ :=
      @check_judges_each_program_alone mixedFiles false ["check", "locked"] "locked" rfl rfl
    obtain ⟨stop, hstop, hrun⟩ := hlocked (by simp [htold])
    obtain rfl : stop = ⟨["inner"], .accessDenied⟩ := by simpa [htold] using hstop
    exact hrun
  · obtain ⟨-, hempty, -⟩ :=
      @check_judges_each_program_alone mixedFiles false ["check", "empty"] "empty" rfl rfl
    refine hempty (fun stop hstop => ?_) fun names hnames => ?_
    · cases List.mem_singleton.mp hstop
    · cases List.mem_singleton.mp hnames.1

end BuilderCalls.CommandLine
