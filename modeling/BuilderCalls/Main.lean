import BuilderCalls.CommandLine.Run

/-!
# The program

Reads the files that the arguments name, runs the command line on that snapshot and
prints what it returns.
-/

namespace BuilderCalls.Main

def faultOf : IO.Error → ReadFault
  | .inappropriateType .. => .notADirectory
  | .permissionDenied .. => .accessDenied
  | _ => .noSuchFile

/-- What is found at a place, directories with all they hold; links below it are not followed. -/
partial def snapshot (place : IO.FS.DirEntry) (type : IO.FS.FileType) : IO Entry := do
  match type with
  | .dir =>
      try
        let mut entries := #[]
        for inner in ← place.path.readDir do
          let entry ← snapshot inner (← inner.path.symlinkMetadata).type
          entries := entries.push (inner.fileName, entry)
        return .directory entries.toList
      catch fault => return .closed false (faultOf fault)
  | .file =>
      try return .file (String.fromUTF8? (← IO.FS.readBinFile place.path))
      catch fault => return .closed true (faultOf fault)
  | _ => return .special none

def found (path : String) : IO (Except ReadFault Entry) := do
  let place : IO.FS.DirEntry := { root := ".", fileName := path }
  try
    let type := (← place.path.metadata).type
    match type with
    | .other => return .ok (.special (String.fromUTF8? (← IO.FS.readBinFile place.path)))
    | type => return .ok (← snapshot place type)
  catch fault => return .error (faultOf fault)

mutual

/-- An entry and all below it, by their paths. -/
def placed (path : String) : Entry → List (String × Entry)
  | .directory entries => (path, .directory entries) :: placedEntries path entries
  | entry => [(path, entry)]
termination_by structural entry => entry

def placedEntries (path : String) : List (String × Entry) → List (String × Entry)
  | [] => []
  | (name, entry) :: rest =>
      placed (CommandLine.pushName path name) entry ++ placedEntries path rest
termination_by structural entries => entries

end

def filesOf (args : List String) : IO Files := do
  let paths :=
    match CommandLine.parse args with
    | .ok command => command.paths
    | .error _ => []
  let entries ← paths.mapM fun path => do
    match ← found path with
    | .ok entry => return (placed path entry).map fun (path, entry) => (path, Except.ok entry)
    | .error fault => return [(path, .error fault)]
  let directoryFault ←
    try
      discard IO.currentDir
      pure none
    catch fault => pure (some (faultOf fault))
  let entryAt := fun path => (entries.flatten.lookup path).getD (.error .noSuchFile)
  return ⟨entryAt, directoryFault, .silent⟩

def usageText : String :=
  "usage: ast-builder [-v] convert FILE [--source FILE] [--namespace NAME]" ++
    " [--quote single|double] [--format text|json] [--config FILE]" ++
    " | check [PATH] | builders"

def reportText : CommandLine.Report → String
  | .usage _ => usageText
  | .failure failure =>
      match failure.help with
      | some help => failure.code ++ "\n" ++ failure.text ++ "\nhelp: " ++ help
      | none => failure.code ++ "\n" ++ failure.text

end BuilderCalls.Main

def main (args : List String) : IO UInt32 := do
  let stdout ← IO.getStdout
  let files ← BuilderCalls.Main.filesOf args
  let outcome := BuilderCalls.CommandLine.run files (← stdout.isTty) args
  stdout.putStr (String.ofList outcome.output)
  if let some report := outcome.report then
    IO.eprintln (BuilderCalls.Main.reportText report)
  return outcome.exit.toUInt32
