import BuilderCalls.Settings

/-!
# Command-line arguments

Options may stand before and after the file, `--` ends them, and a value may follow
its option after a blank or after `=`.  Values are judged when the next argument is
reached that the command knows; an argument that it does not know is refused before
the value in front of it is judged.
-/

namespace BuilderCalls.CommandLine

inductive Usage where
  | help
  | version
  | missingEverything
  | missingSubcommand
  | invalidSubcommand
  | unknownArgument
  | missingArgument
  | invalidValue
  | repeatedOption
  | unneededValue
  deriving DecidableEq

structure ConvertRequest where
  file : String
  source : Option String
  namespaceName : Option String
  quote : Option Quote
  format : Option OutputFormat
  settings : Option String
  deriving DecidableEq

inductive Command where
  | convert (request : ConvertRequest)
  | check (path : String)
  | builders
  deriving DecidableEq

/-- What a subcommand takes: options with values by name, and perhaps a path. -/
structure Form where
  options : List String
  takesPath : Bool

def convertForm : Form :=
  ⟨["source", "namespace", "quote", "format", "config"], true⟩

def checkForm : Form := ⟨[], true⟩

def buildersForm : Form := ⟨[], false⟩

/-- Whether an option may have the value; words are exact and paths are not empty. -/
def acceptsValue (option value : String) : Bool :=
  if option = "quote" then (Quote.ofName? value).isSome
  else if option = "format" then (OutputFormat.ofName? value).isSome
  else if option = "namespace" then true
  else value != ""

inductive Pending where
  | nothing
  | option (name : String) (value : Option String)
  | path (value : String)

structure Given where
  values : List (String × String)
  path : Option String

namespace Given

def empty : Given := ⟨[], none⟩

def addOption (given : Given) (name : String) (value : Option String) : Except Usage Given :=
  match value with
  | none => .error .invalidValue
  | some value =>
      if (given.values.lookup name).isSome then .error .repeatedOption
      else if acceptsValue name value then
        .ok { given with values := (name, value) :: given.values }
      else .error .invalidValue

def settle (given : Given) : Pending → Except Usage Given
  | .nothing => .ok given
  | .option name value => given.addOption name value
  | .path value =>
      if value = "" then .error .invalidValue else .ok { given with path := some value }

end Given

def splitLong (arg : List Char) : String × Option String :=
  match arg.dropWhile (· ≠ '=') with
  | [] => (String.ofList arg, none)
  | _ :: value => (String.ofList (arg.takeWhile (· ≠ '=')), some (String.ofList value))

/-- What a cluster of letters after one dash asks for, at the first letter that ends it. -/
def shortFlags (hasVersion : Bool) : List Char → Option Usage
  | [] => none
  | 'v' :: rest => shortFlags hasVersion rest
  | 'h' :: _ => some .help
  | 'V' :: _ => some (if hasVersion then .version else .unknownArgument)
  | _ :: _ => some .unknownArgument

/-- An argument with a dash in front that the form has no option for. -/
inductive FlagOutcome where
  | counted
  | refused (usage : Usage)
  deriving DecidableEq

def longFlag (hasVersion : Bool) (name : String) (attached : Option String) : FlagOutcome :=
  let known := name = "verbose" || name = "help" || (hasVersion && name = "version")
  if !known then .refused .unknownArgument
  else if attached.isSome then .refused .unneededValue
  else if name = "help" then .refused .help
  else if name = "version" then .refused .version
  else .counted

/-- Refuses what no form knows at once, and all else only after the pending argument. -/
def refuse (given : Given) (pending : Pending) (usage : Usage) : Except Usage Given :=
  if usage = .unknownArgument || usage = .unneededValue then .error usage
  else do
    let _ ← given.settle pending
    .error usage

def hasPath (given : Given) : Pending → Bool
  | .path _ => true
  | _ => given.path.isSome

def takePath (form : Form) (given : Given) (pending : Pending) (value : String) :
    Except Usage (Given × Pending) := do
  if form.takesPath && !hasPath given pending then
    return (← given.settle pending, .path value)
  else .error .unknownArgument

def takeArgument (form : Form) (given : Given) (pending : Pending) (arg : String) :
    Except Usage (Given × Pending) :=
  match arg.toList with
  | '-' :: '-' :: long =>
      let (name, attached) := splitLong long
      if form.options.contains name then do
        let given ← given.settle pending
        match attached with
        | some value => return (← given.addOption name (some value), .nothing)
        | none => return (given, .option name none)
      else
        match longFlag false name attached with
        | .counted => do return (← given.settle pending, .nothing)
        | .refused usage => do return (← refuse given pending usage, .nothing)
  | '-' :: letter :: letters =>
      match shortFlags false (letter :: letters) with
      | none => do return (← given.settle pending, .nothing)
      | some usage => do
          let (given, pending) ←
            if letter = 'v' then do
              let given ← given.settle pending
              pure (given, Pending.nothing)
            else pure (given, pending)
          return (← refuse given pending usage, .nothing)
  | _ =>
      match pending with
      | .option name none => .ok (given, .option name (some arg))
      | pending => takePath form given pending arg

def takeArguments (form : Form) (trailing : Bool) (given : Given) (pending : Pending) :
    List String → Except Usage Given
  | [] => given.settle pending
  | arg :: args => do
      if trailing then
        let (given, pending) ← takePath form given pending arg
        takeArguments form true given pending args
      else if arg = "--" then takeArguments form true given pending args
      else
        let (given, pending) ← takeArgument form given pending arg
        takeArguments form false given pending args

def given (form : Form) (args : List String) : Except Usage Given :=
  takeArguments form false .empty .nothing args

def convertRequest (args : List String) : Except Usage ConvertRequest := do
  let given ← given convertForm args
  match given.path with
  | none => .error .missingArgument
  | some file =>
      return {
        file
        source := given.values.lookup "source"
        namespaceName := given.values.lookup "namespace"
        quote := (given.values.lookup "quote").bind Quote.ofName?
        format := (given.values.lookup "format").bind OutputFormat.ofName?
        settings := given.values.lookup "config" }

def defaultCheckPath : String := "tests/fixtures"

def subcommands : List String :=
  ["convert", "check", "builders", "help"]

/-- Help about one subcommand, which has none of its own. -/
def helpUsage : List String → Usage
  | [] => .help
  | [name] => if subcommands.contains name then .help else .invalidSubcommand
  | _ => .invalidSubcommand

def subcommand (name : String) (args : List String) : Except Usage Command :=
  if name = "convert" then do return .convert (← convertRequest args)
  else if name = "check" then do
    return .check ((← given checkForm args).path.getD defaultCheckPath)
  else if name = "builders" then do
    let _ ← given buildersForm args
    return .builders
  else if name = "help" then .error (helpUsage args)
  else .error .invalidSubcommand

/-- Nothing was asked for; options alone are not enough either. -/
def nothingAsked (counted : Bool) : Usage :=
  if counted then .missingSubcommand else .missingEverything

def parseFrom (counted : Bool) : List String → Except Usage Command
  | [] => .error (nothingAsked counted)
  | arg :: args =>
      if subcommands.contains arg then subcommand arg args
      else if arg = "--" then
        match args with
        | [] => .error (nothingAsked counted)
        | next :: _ =>
            .error (if subcommands.contains next then .unknownArgument else .invalidSubcommand)
      else
        match arg.toList with
        | '-' :: '-' :: long =>
            let (name, attached) := splitLong long
            match longFlag true name attached with
            | .counted => parseFrom true args
            | .refused usage => .error usage
        | '-' :: letter :: letters =>
            match shortFlags true (letter :: letters) with
            | none => parseFrom true args
            | some usage => .error usage
        | _ => .error .invalidSubcommand

def parse (args : List String) : Except Usage Command :=
  parseFrom false args

end BuilderCalls.CommandLine
