import BuilderCalls.CommandLine.Arguments
import BuilderCalls.CommandLine.Terminal
import BuilderCalls.Effectful
import BuilderCalls.Files
import BuilderCalls.RoundTrip
import BuilderCalls.Signature

/-!
# Runs

A run of the command line as a function of its arguments and a snapshot of files.
Commands print as they go, and what they have printed stays when they fail.  `check`
judges each program on its own and reports on all of them.
-/

namespace BuilderCalls.CommandLine

inductive Report where
  | failure (failure : Failure)
  | usage (usage : Usage)
  deriving DecidableEq

structure Outcome where
  exit : Nat
  output : List Char
  report : Option Report

/-! ## Printing -/

abbrev Printing : Type → Type :=
  Effectful (List Char)

def print (text : List Char) : Printing Unit :=
  modify (· ++ text)

def printLines (lines : List (List Char)) : Printing Unit :=
  lines.forM fun line => print (Terminal.line line)

/-- How a command ends that tells whether all is well. -/
def Printing.outcome (action : Printing Bool) : Outcome :=
  match action.perform [] with
  | (.ok passed, output) => ⟨if passed then 0 else 1, output, none⟩
  | (.error failure, output) => ⟨1, output, some (.failure failure)⟩

def succeed (output : List Char) : Outcome :=
  ⟨0, output, none⟩

def fail (failure : Failure) : Outcome :=
  ⟨1, [], some (.failure failure)⟩

/-- Asking for help or the version is not an error. -/
def usageOutcome (usage : Usage) : Outcome :=
  ⟨if usage = .help || usage = .version then 0 else 2, [], some (.usage usage)⟩

/-! ## Files -/

def readJson (files : Files) (file : String) : Except Failure Json :=
  match files.readText file with
  | .error fault => .error (.input (.unreadable file fault))
  | .ok text =>
      match Json.ofText? text with
      | some value => .ok value
      | none => .error (.input (.fileNotJson file (files.refusals.json text)))

def settingsFile : String := "ast-builder.yaml"

def loadSettings (files : Files) (file : String) : Except Failure Settings :=
  match files.readText file with
  | .error fault => .error (.input (.unreadableSettings file fault))
  | .ok text =>
      (Settings.ofText text files.refusals).mapError (·.withHelp ("while loading " ++ file))

/-- The settings of the working directory; what is no file or is broken counts as none. -/
def discoverSettings (files : Files) : Settings :=
  if files.isFile settingsFile then
    match loadSettings files settingsFile with
    | .ok settings => settings
    | .error _ => .default
  else .default

def configuredSettings (files : Files) (request : ConvertRequest) : Except Failure Settings :=
  match request.settings with
  | some file => loadSettings files file
  | none =>
      match files.directoryFault with
      | some fault => .error (.input (.inputOutput fault))
      | none => .ok (discoverSettings files)

def effectiveSettings (files : Files) (request : ConvertRequest) : Except Failure Settings := do
  let settings ← configuredSettings files request
  return {
    render := {
      namespaceName := request.namespaceName.getD settings.render.namespaceName
      quote := request.quote.getD settings.render.quote }
    format := request.format.getD settings.format }

def attachSource (files : Files) (source : Option String) (failure : Failure) : Failure :=
  match source with
  | none => failure
  | some file =>
      match files.readText file with
      | .ok text => failure.withSource file text
      | .error _ => failure

/-! ## Convert -/

def printCalls (settings : Settings) (calls : List Call) : Printing Unit :=
  match settings.format with
  | .text => do
      let renderer ← Renderer.ofOptions settings.render
      let lines ← renderer.renderAll calls
      printLines (lines.map String.toList)
  | .json => printLines [(Json.array (calls.map Call.toJson)).pretty]

def converting (files : Files) (request : ConvertRequest) : Printing Bool := do
  let settings ← effectiveSettings files request
  let input ← readJson files request.file
  let calls ← (Program.convert input).result.mapError (attachSource files request.source)
  printCalls settings calls
  return true

def convert (files : Files) (request : ConvertRequest) : Outcome :=
  (converting files request).outcome

/-! ## Check -/

structure Discrepancy where
  reason : String
  expected : List Char
  actual : List Char

def callLines (calls : List Call) : Except Failure (List Char) := do
  let renderer ← Renderer.ofOptions .default
  let lines ← renderer.renderAll calls
  return "\n".toList.intercalate (lines.map String.toList)

/-- Converting the rebuilt tree must give back the same calls. -/
def compareCalls (first again : List Call) : Except Failure (Option Discrepancy) := do
  if first = again then return none
  else
    return some
      ⟨"reconverting the reconstruction gives different calls", ← callLines first,
        ← callLines again⟩

def judge (input : Json) : Except Failure (Option Discrepancy) := do
  let trip ← RoundTrip.run input
  if trip.sameTree then
    compareCalls trip.calls (← trip.again)
  else return some ⟨"reconstruction differs", trip.expected.pretty, trip.actual.pretty⟩

def checkFile (files : Files) (file : String) : Except Failure (Option Discrepancy) := do
  judge (← readJson files file)

def reportFile (files : Files) (colored : Bool) (file : String) : Printing Bool :=
  match checkFile files file with
  | .ok none => do
      print (Terminal.status colored true file none)
      return true
  | .ok (some discrepancy) => do
      print (Terminal.status colored false file (some discrepancy.reason))
      print (Terminal.difference colored discrepancy.expected discrepancy.actual)
      return false
  | .error failure => do
      print (Terminal.status colored false file (some failure.text))
      return false

/-- Reports on programs one after the other; tells how many did not pass. -/
def reportFiles (files : Files) (colored : Bool) : List String → Printing Nat
  | [] => return 0
  | file :: rest => do
      let passed ← reportFile files colored file
      let failures ← reportFiles files colored rest
      return if passed then failures else failures + 1

/-- A name with the extension of programs; the extension alone is not a name with it. -/
def isProgramName (name : String) : Bool :=
  ".json".toList.isSuffixOf name.toList && name != ".json"

def pushName (path name : String) : String :=
  if path.toList.getLast? = some '/' then path ++ name else path ++ "/" ++ name

def joinPath (root : String) (names : List String) : String :=
  names.foldl pushName root

/-- Component by component, each by its characters; a path comes before those below it. -/
def pathLe : List String → List String → Bool
  | [], _ => true
  | _ :: _, [] => false
  | left :: lefts, right :: rights =>
      if left = right then pathLe lefts rights else decide (left < right)

def isProgram (found : Found) : Bool :=
  found.isFile && found.names.getLast?.any isProgramName

/-- The programs that a walk tells of, in the order of their paths; any fault stops it. -/
def discover (root : String) (told : List (Except WalkFault Found)) :
    Except Failure (List String) := do
  let found ← told.mapM fun item => item.mapError fun stop =>
    .input (.unwalkable root (joinPath root stop.names) stop.fault)
  match ((found.filter isProgram).map Found.names).mergeSort pathLe with
  | [] => .error (.input (.noPrograms root))
  | programs => .ok (programs.map (joinPath root))

def programs (files : Files) (path : String) : Except Failure (List String) :=
  if files.isFile path then .ok [path] else discover path (files.walk path)

def checking (files : Files) (colored : Bool) (path : String) : Printing Bool := do
  let programs ← programs files path
  let failures ← reportFiles files colored programs
  return failures == 0

def check (files : Files) (colored : Bool) (path : String) : Outcome :=
  (checking files colored path).outcome

/-! ## Builders -/

def tagWidth : Nat :=
  (NodeType.all.map fun nodeType => nodeType.tag.length).foldl max 0

def signatureLine (colored : Bool) (nodeType : NodeType) : List Char :=
  let tag := nodeType.tag.toList
  Terminal.setColor colored false .cyan ++ tag ++
    List.replicate (tagWidth - tag.length) ' ' ++ Terminal.reset colored ++
    Terminal.line (' ' :: ' ' :: nodeType.signatureText.toList)

def listing (colored : Bool) : Printing Bool := do
  NodeType.all.forM fun nodeType => print (signatureLine colored nodeType)
  return true

def builders (colored : Bool) : Outcome :=
  (listing colored).outcome

/-! ## Runs -/

def execute (files : Files) (colored : Bool) : Command → Outcome
  | .convert request => convert files request
  | .check path => check files colored path
  | .builders => builders colored

def run (files : Files) (colored : Bool) (args : List String) : Outcome :=
  match parse args with
  | .ok command => execute files colored command
  | .error usage => usageOutcome usage

def Command.paths : Command → List String
  | .convert request => request.file :: request.settings.getD settingsFile :: request.source.toList
  | .check path => [path]
  | .builders => []

end BuilderCalls.CommandLine
