import BuilderCalls.Failure

/-!
# Files

A snapshot of the files that a run may look at, with what the readers say of those
that they refuse.  `Files` answers what a path leads to; `Entry.resolve` is that answer
for a tree that stands for the working directory.
A walk goes through all that is below a path, in the order in which directories list
what they hold.
-/

namespace BuilderCalls

inductive Entry where
  /-- The text of a file; none when its bytes are not UTF-8. -/
  | file (text : Option String)
  | directory (entries : List (String × Entry))
  /-- A file or a directory that is there but cannot be opened. -/
  | closed (isFile : Bool) (fault : ReadFault)
  /-- Anything else, such as a pipe.  Links are such to a walk, which does not follow them. -/
  | special (text : Option String)

structure Found where
  names : List String
  isFile : Bool
  deriving DecidableEq

structure WalkFault where
  names : List String
  fault : ReadFault
  deriving DecidableEq

def parts (separator : Char) : List Char → List (List Char)
  | [] => [[]]
  | char :: rest =>
      if char = separator then [] :: parts separator rest
      else
        match parts separator rest with
        | [] => [[char]]
        | part :: others => (char :: part) :: others

namespace Entry

def isFile : Entry → Bool
  | .file _ => true
  | .directory _ => false
  | .closed isFile _ => isFile
  | .special _ => false

def nameLimit : Nat := 255

def pathLimit : Nat := 4096

/-- Follows path components; the directories passed are held to step back into. -/
def follow (passed : List Entry) (current : Entry) : List String → Except ReadFault Entry
  | [] => .ok current
  | component :: rest =>
      match current with
      | .file _ => .error .notADirectory
      | .special _ => .error .notADirectory
      | .closed isFile fault => .error (if isFile then .notADirectory else fault)
      | .directory entries =>
          if component = "" || component = "." then follow passed current rest
          else if component = ".." then
            match passed with
            | [] => follow [] current rest
            | outer :: passed => follow passed outer rest
          else if nameLimit < component.utf8ByteSize then .error .nameTooLong
          else
            match entries.lookup component with
            | some entry => follow (current :: passed) entry rest
            | none => .error .noSuchFile

def components (path : String) : List String :=
  (parts '/' path.toList).map String.ofList

def resolve (root : Entry) (path : String) : Except ReadFault Entry :=
  if path.toList.contains '\x00' then .error .nulInName
  else if pathLimit ≤ path.utf8ByteSize then .error .nameTooLong
  else follow [] root (components path)

mutual

def walk (names : List String) : Entry → List (Except WalkFault Found)
  | .file _ => [.ok ⟨names, true⟩]
  | .directory entries => .ok ⟨names, false⟩ :: walkEntries names entries
  | .closed true _ => [.ok ⟨names, true⟩]
  | .closed false fault => [.ok ⟨names, false⟩, .error ⟨names, fault⟩]
  | .special _ => [.ok ⟨names, false⟩]
termination_by structural entry => entry

def walkEntries (names : List String) :
    List (String × Entry) → List (Except WalkFault Found)
  | [] => []
  | (name, entry) :: rest => walk (names ++ [name]) entry ++ walkEntries names rest
termination_by structural entries => entries

end

def replacing (entry : Entry) : Option Entry → Entry
  | some (.directory inner) => if entry.isFile then entry else .directory inner
  | _ => entry

def inner : Option Entry → List (String × Entry)
  | some (.directory entries) => entries
  | _ => []

def putName (name : String) (entry : Entry) (entries : List (String × Entry)) :
    List (String × Entry) :=
  (name, entry) :: entries.filter fun (other, _) => other != name

def put (entry : Entry) : List String → List (String × Entry) → List (String × Entry)
  | [], entries => entries
  | [name], entries => putName name (entry.replacing (entries.lookup name)) entries
  | name :: names, entries =>
      putName name (.directory (put entry names (inner (entries.lookup name)))) entries

def tree (contents : List (String × Entry)) : List (String × Entry) :=
  contents.foldl
    (fun entries (path, entry) => put entry ((components path).filter (· != "")) entries) []

end Entry

structure Files where
  entryAt : String → Except ReadFault Entry
  /-- Why it cannot be told which directory is the working directory, if so. -/
  directoryFault : Option ReadFault
  refusals : Refusals

namespace Files

def within (directory : List (String × Entry)) (refusals : Refusals := .silent) : Files :=
  ⟨(Entry.directory directory).resolve, none, refusals⟩

def isFile (files : Files) (path : String) : Bool :=
  match files.entryAt path with
  | .ok entry => entry.isFile
  | .error _ => false

def readText (files : Files) (path : String) : Except ReadFault String :=
  match files.entryAt path with
  | .ok (.file (some text)) => .ok text
  | .ok (.file none) => .error .notUtf8
  | .ok (.directory _) => .error .isADirectory
  | .ok (.closed _ fault) => .error fault
  | .ok (.special (some text)) => .ok text
  | .ok (.special none) => .error .notUtf8
  | .error fault => .error fault

def walk (files : Files) (path : String) : List (Except WalkFault Found) :=
  match files.entryAt path with
  | .ok entry => entry.walk []
  | .error fault => [.error ⟨[], fault⟩]

end Files

end BuilderCalls
