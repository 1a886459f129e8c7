import BuilderCalls.CommandLine.Run
import BuilderCalls.Proofs.PrintedDifference

/-!
# Status lines

A finding is what a check says of one file: a status text, and a difference below it where the
tree did not come back.  Split at line breaks and without colours, the output for several
findings has their status texts as its status lines, one for each and in order, unless a file
name or a reason has a line break itself (`statusLines_findings`).
-/

namespace BuilderCalls.CommandLine

inductive Verdict where
  | passes
  | fails (reason : String)
  | differs (expected actual : List Char)
  deriving DecidableEq

structure Finding where
  file : String
  verdict : Verdict
  deriving DecidableEq

def Verdict.isPass : Verdict → Bool
  | .passes => true
  | .fails _ => false
  | .differs _ _ => false

def Verdict.reason? : Verdict → Option String
  | .passes => none
  | .fails reason => some reason
  | .differs _ _ => some "reconstruction differs"

namespace Finding

def passed (finding : Finding) : Bool :=
  finding.verdict.isPass

def label (finding : Finding) : List Char :=
  match finding.verdict.reason? with
  | none => finding.file.toList
  | some reason => finding.file.toList ++ ": ".toList ++ reason.toList

def word : Bool → String
  | true => "ok    "
  | false => "FAILED"

/-- The word in bold green or red. -/
def coloredWord : Bool → String
  | true => "\x1b[0m\x1b[1m\x1b[32mok    \x1b[0m"
  | false => "\x1b[0m\x1b[1m\x1b[31mFAILED\x1b[0m"

/-- The status text, without colours. -/
def line (finding : Finding) : List Char :=
  (word finding.passed).toList ++ ' ' :: finding.label

def status (colored : Bool) (finding : Finding) : List Char :=
  (if colored then coloredWord finding.passed else word finding.passed).toList ++
    ' ' :: finding.label

def difference (colored : Bool) (finding : Finding) : List Char :=
  match finding.verdict with
  | .passes => []
  | .fails _ => []
  | .differs expected actual => Terminal.difference colored expected actual

def text (colored : Bool) (finding : Finding) : List Char :=
  finding.status colored ++ '\n' :: finding.difference colored

end Finding

def isStatusLine (line : Line) : Bool :=
  "ok    ".toList.isPrefixOf line || "FAILED".toList.isPrefixOf line

/-- The lines of the output that say `ok` or `FAILED`, colours aside. -/
def statusLines (output : List Char) : List Line :=
  ((splitLines output).map Terminal.withoutCodes).filter isStatusLine

open Terminal

/-! ## Texts -/

theorem status_eq (colored : Bool) (finding : Finding) :
    Terminal.status colored finding.passed finding.file finding.verdict.reason? =
      finding.status colored ++ ['\n'] := by
  obtain ⟨file, verdict⟩ := finding
  cases colored <;> cases verdict <;> simp [Terminal.status, Finding.status, Finding.label,
    Finding.passed, Verdict.isPass, Verdict.reason?, Finding.word, Finding.coloredWord, setColor,
    reset, Terminal.sequence, Terminal.line, Color.code]

theorem Finding.text_eq (colored : Bool) (finding : Finding) :
    finding.text colored =
      Terminal.status colored finding.passed finding.file finding.verdict.reason? ++
        finding.difference colored := by
  rw [status_eq, List.append_assoc, Finding.text, List.singleton_append]

theorem withoutCodes_line (finding : Finding) :
    withoutCodes finding.line =
      (Finding.word finding.passed).toList ++ ' ' :: withoutCodes finding.label := by
  have hword : '\x1b' ∉ (Finding.word finding.passed).toList := by
    cases finding.passed <;> decide
  rw [Finding.line, withoutCodes_append hword, ← List.singleton_append,
    withoutCodes_append (by decide), List.singleton_append]

theorem withoutCodes_status (colored : Bool) (finding : Finding) :
    withoutCodes (finding.status colored) = withoutCodes finding.line := by
  cases colored with
  | false => rfl
  | true =>
      have hstatus : finding.status true = reset true ++ (Terminal.sequence ['1'] ++
          (Terminal.sequence ['3', if finding.passed then '2' else '1'] ++
            ((Finding.word finding.passed).toList ++ (reset true ++ ' ' :: finding.label)))) := by
        cases hpassed : finding.passed <;>
          simp [Finding.status, hpassed, Finding.word, Finding.coloredWord, reset,
            Terminal.sequence]
      have hcode : 'm' ∉ ['3', if finding.passed then '2' else '1'] := by
        cases finding.passed <;> decide
      have hword : '\x1b' ∉ (Finding.word finding.passed).toList := by
        cases finding.passed <;> decide
      rw [hstatus, withoutCodes_reset, withoutCodes_sequence (by decide),
        withoutCodes_sequence hcode, withoutCodes_append hword, withoutCodes_reset,
        Finding.line, withoutCodes_append hword]

theorem isStatusLine_line (finding : Finding) :
    isStatusLine (withoutCodes finding.line) = true := by
  rw [withoutCodes_line]
  cases finding.passed <;> simp [isStatusLine, Finding.word]

theorem newline_not_mem_status {finding : Finding} (hlabel : '\n' ∉ finding.label)
    (colored : Bool) : '\n' ∉ finding.status colored := by
  have hword : '\n' ∉ (if colored then Finding.coloredWord finding.passed
      else Finding.word finding.passed).toList := by
    cases colored <;> cases finding.passed <;> decide
  simp [Finding.status, hword, hlabel]

/-! ## Lines -/

theorem statusLines_append (left right : List Char) :
    statusLines (left ++ '\n' :: right) = statusLines left ++ statusLines right := by
  simp [statusLines, splitLines_append]

theorem statusLines_of_not_mem {line : List Char} (hline : '\n' ∉ line) :
    statusLines line = [withoutCodes line].filter isStatusLine := by
  rw [statusLines, splitLines_of_not_mem hline, List.map_singleton]

/-- Codes in front of a line play no part. -/
theorem statusLines_of_hidden {codes : List Char} (hcodes : '\n' ∉ codes)
    (hhidden : ∀ rest, withoutCodes (codes ++ rest) = withoutCodes rest) (rest : List Char) :
    statusLines (codes ++ rest) = statusLines rest := by
  obtain ⟨line, lines, hrest⟩ := List.exists_cons_of_ne_nil (splitLines_ne_nil rest)
  rw [statusLines, statusLines, splitLines_append_of_not_mem hcodes, hrest, List.modifyHead_cons,
    List.map_cons, List.map_cons, hhidden]

theorem newline_not_mem_changeColor (colored : Bool) (change : LineDiff.Change) :
    '\n' ∉ changeColor colored change := by
  cases colored <;> cases change <;> decide

/-- A line of a difference starts with its mark, which no status line does. -/
theorem statusLines_changeLine (change : LineDiff.Change) {text : Line} (htext : '\n' ∉ text)
    (rest : List Char) : statusLines (changeLine change text ++ rest) = statusLines rest := by
  have hmark : '\n' ∉ changeMark change :: text := by
    cases change <;> simp [changeMark, htext]
  have hstatus : isStatusLine (withoutCodes (changeMark change :: text)) = false := by
    cases change <;> rfl
  rw [changeLine, Terminal.line, List.append_assoc, List.singleton_append, statusLines_append,
    statusLines_of_not_mem hmark, List.filter_singleton, hstatus]
  rfl

theorem statusLines_segment (colored : Bool) (run : LineDiff.Segment) (rest : List Char) :
    statusLines (Terminal.segment colored run ++ rest) = statusLines rest := by
  have hlines : ∀ line ∈ endedLines run.text, '\n' ∉ line :=
    fun _ => newline_not_mem_of_mem_endedLines
  rw [Terminal.segment, List.append_assoc, statusLines_of_hidden
    (newline_not_mem_changeColor colored run.change) (withoutCodes_changeColor colored run.change)]
  generalize endedLines run.text = lines at hlines
  induction lines with
  | nil => rfl
  | cons line lines ih =>
      obtain ⟨hline, hlines⟩ := List.forall_mem_cons.mp hlines
      rw [List.flatMap_cons, List.append_assoc, statusLines_changeLine run.change hline, ih hlines]

theorem statusLines_difference (colored : Bool) (expected actual rest : List Char) :
    statusLines (Terminal.difference colored expected actual ++ rest) = statusLines rest := by
  have hreset : '\n' ∉ reset colored := by
    cases colored <;> decide
  rw [Terminal.difference, changes, List.append_assoc]
  induction LineDiff.compare expected actual with
  | nil => exact statusLines_of_hidden hreset (withoutCodes_reset colored) rest
  | cons run segments ih => rw [List.flatMap_cons, List.append_assoc, statusLines_segment, ih]

theorem statusLines_text {finding : Finding} (hlabel : '\n' ∉ finding.label) (colored : Bool)
    (rest : List Char) :
    statusLines (finding.text colored ++ rest) =
      withoutCodes finding.line :: statusLines rest := by
  have hdifference : statusLines (finding.difference colored ++ rest) = statusLines rest := by
    unfold Finding.difference
    cases finding.verdict with
    | passes => rfl
    | fails => rfl
    | differs expected actual => exact statusLines_difference colored expected actual rest
  rw [Finding.text, List.append_assoc, List.cons_append, statusLines_append,
    statusLines_of_not_mem (newline_not_mem_status hlabel colored), withoutCodes_status,
    List.filter_singleton, isStatusLine_line, hdifference]
  rfl

/-- The status lines of an output are those of its findings, if each of these is one line. -/
theorem statusLines_findings {findings : List Finding}
    (hlabels : ∀ finding ∈ findings, '\n' ∉ finding.label) (colored : Bool) :
    statusLines (findings.flatMap (Finding.text colored)) =
      findings.map fun finding => withoutCodes finding.line := by
  induction findings with
  | nil => rfl
  | cons finding findings ih =>
      obtain ⟨hlabel, hlabels⟩ := List.forall_mem_cons.mp hlabels
      rw [List.flatMap_cons, statusLines_text hlabel, ih hlabels, List.map_cons]

end BuilderCalls.CommandLine
