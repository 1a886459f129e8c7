import BuilderCalls.Call
import BuilderCalls.Path
import BuilderCalls.Position

/-!
# Failures

A failure is a cause together with where it arose: the path in the tree, the
position in the source and, for a report, the source itself.  Causes are data; the
functions `message` and `text` hold all wording but that of the readers of JSON and
YAML, which a cause takes over as it is.

Of several paths or positions recorded for one failure the first counts, so frames
around the one that failed may add theirs regardless.  Of several sources or pieces
of advice the last counts.
-/

namespace BuilderCalls

def quoteWord (word : String) : String :=
  "'" ++ word ++ "'"

def fieldName (field : String) : String :=
  "\x60" ++ field ++ "\x60"

def natString (value : Nat) : String :=
  String.ofList (natText value)

inductive NodeFault where
  | notAnObject (found : Json.Kind)
  | untagged
  | missing (field : String)
  | notAString (field : String) (found : Json.Kind)
  | notABoolean (field : String) (found : Json.Kind)
  | notAnArray (field : String) (found : Json.Kind)
  /-- A field says something that no slot holds. -/
  | unslotted (field builder : String)
  | foreignWord (field word : String) (allowed : List String)
  | hole (field : String) (index : Nat)
  | badRegex
  | badBigint
  | badValue (found : Json.Kind)
  | rawNotAString (field : String)
  | badCooked (field : String) (found : Json.Kind)
  | stated (reason : String)
  deriving DecidableEq

namespace NodeFault

def expected (field noun : String) (found : Json.Kind) : String :=
  "field " ++ fieldName field ++ " must be " ++ noun ++ ", found " ++ found.description

def message : NodeFault → String
  | .notAnObject found => "expected a node object, found " ++ found.description
  | .untagged => "node object has no string " ++ fieldName "type" ++ " tag"
  | .missing field => "missing field " ++ fieldName field
  | .notAString field found => expected field "a string" found
  | .notABoolean field found => expected field "a boolean" found
  | .notAnArray field found => expected field "an array" found
  | .unslotted field builder =>
      fieldName field ++ " is set but " ++ builder ++ " has no slot for it"
  | .foreignWord field word allowed =>
      fieldName field ++ " cannot be " ++ quoteWord word ++
        " (expected one of " ++ ", ".intercalate allowed ++ ")"
  | .hole field index =>
      fieldName (field ++ "[" ++ natString index ++ "]") ++
        " is null but this list cannot have holes"
  | .badRegex =>
      fieldName "regex" ++ " must have string " ++ fieldName "pattern" ++ " and " ++
        fieldName "flags"
  | .badBigint => fieldName "bigint" ++ " must be a string of digits"
  | .badValue found => "literal " ++ fieldName "value" ++ " cannot be " ++ found.description
  | .rawNotAString field => fieldName (field ++ ".raw") ++ " must be a string"
  | .badCooked field found =>
      fieldName (field ++ ".cooked") ++ " cannot be " ++ found.description
  | .stated reason => reason

end NodeFault

inductive WriteFault where
  | namespaceForm
  | numberForm (value : Double)
  | numberInJson (value : Double)
  | pattern (source : String)
  | flags (letters : String)
  | bigint (digits : String)
  | stated (reason : String)
  deriving DecidableEq

namespace WriteFault

def numberWord (value : Double) : String :=
  String.ofList value.plainText

def message : WriteFault → String
  | .namespaceForm => "namespace must be an identifier or a dotted identifier path"
  | .numberForm value => numberWord value ++ " has no literal form"
  | .numberInJson value => numberWord value ++ " cannot be represented in JSON"
  | .pattern source =>
      "regular expression /" ++ source ++ "/ cannot be written literally"
  | .flags letters => "unknown regular expression flags " ++ quoteWord letters
  | .bigint digits => "bigint " ++ quoteWord digits ++ " is not a decimal digit string"
  | .stated reason => reason

end WriteFault

inductive Mismatch where
  | arity (nodeType : NodeType) (given : Nat)
  | argument (slot : Slot) (found : Arg.Kind)
  | unknownWord (slot : Slot) (word : String)
  /-- A literal where the slot is not one for literals. -/
  | strayLiteral (slot : Slot) (found : Literal.Kind)
  | stated (expected actual : String)
  deriving DecidableEq

namespace Mismatch

def slotText (slot : Slot) : String :=
  slot.kind.description ++ " for " ++ fieldName slot.field

def expected : Mismatch → String
  | .arity nodeType _ =>
      natString nodeType.arity ++ " argument(s) " ++ nodeType.signatureText
  | .argument slot _ => slotText slot
  | .unknownWord slot _ => slotText slot
  | .strayLiteral slot _ => slotText slot
  | .stated expected _ => expected

def actual : Mismatch → String
  | .arity _ given => natString given
  | .argument _ found => found.name
  | .unknownWord _ word => "unknown keyword " ++ quoteWord word
  | .strayLiteral _ found => found.name ++ " literal"
  | .stated _ actual => actual

end Mismatch

inductive ReadFault where
  | noSuchFile
  | isADirectory
  | notADirectory
  | nameTooLong
  | nulInName
  | notUtf8
  | accessDenied
  deriving DecidableEq

def ReadFault.message : ReadFault → String
  | .noSuchFile => "No such file or directory (os error 2)"
  | .isADirectory => "Is a directory (os error 21)"
  | .notADirectory => "Not a directory (os error 20)"
  | .nameTooLong => "File name too long (os error 36)"
  | .nulInName => "file name contained an unexpected NUL byte"
  | .notUtf8 => "stream did not contain valid UTF-8"
  | .accessDenied => "Permission denied (os error 13)"

/-- What the readers say of a text that they refuse, if they say why. -/
structure Refusals where
  json : String → Option String
  yaml : String → Option String

def Refusals.silent : Refusals :=
  ⟨fun _ => none, fun _ => none⟩

def detailText : Option String → String
  | none => ""
  | some detail => ": " ++ detail

inductive InputFault where
  | notJson (detail : Option String)
  | fileNotJson (file : String) (detail : Option String)
  | unreadable (file : String) (fault : ReadFault)
  | unreadableSettings (file : String) (fault : ReadFault)
  | badSettings (detail : Option String)
  | inputOutput (fault : ReadFault)
  /-- A walk from the root could not go on at the place. -/
  | unwalkable (root place : String) (fault : ReadFault)
  | noPrograms (root : String)
  | wrapperWithoutProgram
  | foreignTag (tag : String)
  | notAProgram (found : Json.Kind)
  | bodyNotAnArray (found : Json.Kind)
  | noBody
  | stated (message : String)
  deriving DecidableEq

namespace InputFault

def message : InputFault → String
  | .notJson detail => "not valid JSON" ++ detailText detail
  | .fileNotJson file detail => quoteWord file ++ " is not valid JSON" ++ detailText detail
  | .unreadable file fault => "cannot read " ++ quoteWord file ++ ": " ++ fault.message
  | .unreadableSettings file fault =>
      "cannot read config " ++ quoteWord file ++ ": " ++ fault.message
  | .badSettings detail => "bad config" ++ detailText detail
  | .inputOutput fault => "i/o error: " ++ fault.message
  | .unwalkable root place fault =>
      "failed to walk " ++ root ++ ": IO error for operation on " ++ place ++ ": " ++
        fault.message
  | .noPrograms root => "no .json files under " ++ root
  | .wrapperWithoutProgram =>
      "File node has no " ++ fieldName "program" ++ " of type Program"
  | .foreignTag tag => "expected a Program node, found " ++ quoteWord tag
  | .notAProgram found => "expected a Program node, found " ++ found.description
  | .bodyNotAnArray found =>
      "Program " ++ fieldName "body" ++ " must be an array, found " ++ found.description
  | .noBody => "Program has no " ++ fieldName "body"
  | .stated message => message

end InputFault

inductive Cause where
  | unsupported (tag : String)
  | malformed (nodeType : String) (fault : NodeFault)
  | unwritable (subject : String) (fault : WriteFault)
  | mismatch (builder : String) (fault : Mismatch)
  | input (fault : InputFault)
  deriving DecidableEq

namespace Cause

def message : Cause → String
  | .unsupported tag => "unsupported node type " ++ quoteWord tag
  | .malformed nodeType fault => "malformed " ++ nodeType ++ " node: " ++ fault.message
  | .unwritable subject fault => "cannot render " ++ subject ++ ": " ++ fault.message
  | .mismatch builder fault =>
      builder ++ " expects " ++ fault.expected ++ ", got " ++ fault.actual
  | .input fault => "invalid input: " ++ fault.message

def category : Cause → String
  | .unsupported _ => "convert"
  | .malformed _ _ => "convert"
  | .unwritable _ _ => "render"
  | .mismatch _ _ => "interpret"
  | .input _ => "input"

def codeSuffix : Cause → String
  | .unsupported _ => "unsupported_node_type"
  | .malformed _ _ => "malformed_node"
  | .unwritable _ _ => "render_error"
  | .mismatch _ _ => "signature_mismatch"
  | .input _ => "invalid_input"

def code (cause : Cause) : String :=
  "ast_builder::" ++ cause.category ++ "::" ++ cause.codeSuffix

/-- What a report writes at the place it points to. -/
def label : Cause → String
  | .unsupported _ => "no builder for this node"
  | .malformed _ _ => "malformed node"
  | .unwritable _ _ => "cannot be rendered"
  | .mismatch _ _ => "signature mismatch"
  | .input _ => "invalid input"

def help? : Cause → Option String
  | .unsupported _ => some "run \x60ast-builder builders\x60 to list the supported node types"
  | .malformed _ _ => none
  | .unwritable _ _ => some "hand-built expressions must follow the builder signature exactly"
  | .mismatch _ _ => some "hand-built expressions must follow the builder signature exactly"
  | .input _ => some "expected ESTree JSON for a Program (or a File wrapping one)"

def subject? : Cause → Option String
  | .unsupported tag => some tag
  | .malformed nodeType _ => some nodeType
  | .unwritable subject _ => some subject
  | .mismatch builder _ => some builder
  | .input _ => none

end Cause

structure Source where
  name : String
  text : String
  deriving DecidableEq

structure Failure where
  cause : Cause
  path : Option Path
  position : Option Position
  source : Option Source
  help : Option String
  code : String
  deriving DecidableEq

namespace Failure

def ofCause (cause : Cause) : Failure :=
  ⟨cause, none, none, none, cause.help?, cause.code⟩

def unsupported (tag : String) : Failure :=
  ofCause (.unsupported tag)

def malformed (nodeType : String) (fault : NodeFault) : Failure :=
  ofCause (.malformed nodeType fault)

def unwritable (subject : String) (fault : WriteFault) : Failure :=
  ofCause (.unwritable subject fault)

def mismatch (builder : String) (fault : Mismatch) : Failure :=
  ofCause (.mismatch builder fault)

def input (fault : InputFault) : Failure :=
  ofCause (.input fault)

def atPath (failure : Failure) (path : Path) : Failure :=
  { failure with path := failure.path <|> some path }

def atPosition (failure : Failure) (position : Option Position) : Failure :=
  { failure with position := failure.position <|> position }

def withSource (failure : Failure) (name text : String) : Failure :=
  { failure with source := some ⟨name, text⟩ }

def withHelp (failure : Failure) (help : String) : Failure :=
  { failure with help := some help }

/--
The failure seen from further out, from where the steps lead to the failing part.
A failure without a path arose at that part itself.
-/
def under (failure : Failure) (steps : Path) : Failure :=
  { failure with path := some (steps ++ failure.path.getD []) }

/-- The place that a report points to; there is none without a source to show. -/
def label? (failure : Failure) : Option (String × Span) := do
  let _ ← failure.source
  let position ← failure.position
  let span ← position.span
  return (failure.cause.label, span)

def pathText (failure : Failure) : String :=
  match failure.path with
  | none => ""
  | some [] => ""
  | some path => " at " ++ path.text

def positionText (failure : Failure) : String :=
  match failure.position with
  | some ⟨_, some line, some column⟩ =>
      " (line " ++ natString line ++ ", column " ++ natString column ++ ")"
  | _ => ""

def text (failure : Failure) : String :=
  failure.cause.message ++ failure.pathText ++ failure.positionText

end Failure

end BuilderCalls
