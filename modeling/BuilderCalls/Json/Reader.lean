import BuilderCalls.Json.Token

/-!
# Reading JSON

The reader takes one token at a time and keeps the containers that are still open
on a stack, so the depth of nesting is the height of that stack.  The grammar is
strict: one value, no trailing commas, at most `nestingLimit` nested containers.
-/

namespace BuilderCalls.Json

def nestingLimit : Nat := 127

/-- An open container around the value that is due. -/
inductive Frame where
  /-- The items so far, in reverse. -/
  | array (items : List Json)
  | object (members : Members) (key : String)

inductive Reading where
  | valueDue (frames : List Frame)
  | firstItem (frames : List Frame)
  | moreItems (items : List Json) (frames : List Frame)
  | keyDue (members : Members) (mayClose : Bool) (frames : List Frame)
  | colonDue (members : Members) (key : String) (frames : List Frame)
  | moreMembers (members : Members) (frames : List Frame)
  | finished (value : Json)

def Reading.deliver (value : Json) : List Frame → Reading
  | [] => .finished value
  | .array items :: frames => .moreItems (value :: items) frames
  | .object members key :: frames => .moreMembers (members.insert key value) frames

def Reading.begin? (frames : List Frame) : Token → Option Reading
  | .null => some (.deliver .null frames)
  | .bool value => some (.deliver (.bool value) frames)
  | .number value => some (.deliver (.number value) frames)
  | .string value => some (.deliver (.string value) frames)
  | .openArray => if frames.length < nestingLimit then some (.firstItem frames) else none
  | .openObject => if frames.length < nestingLimit then some (.keyDue [] true frames) else none
  | _ => none

def Reading.step? : Reading → Token → Option Reading
  | .valueDue frames, token => Reading.begin? frames token
  | .firstItem frames, .closeArray => some (.deliver (.array []) frames)
  | .firstItem frames, token => Reading.begin? (.array [] :: frames) token
  | .moreItems items frames, .comma => some (.valueDue (.array items :: frames))
  | .moreItems items frames, .closeArray => some (.deliver (.array items.reverse) frames)
  | .keyDue members _ frames, .string key => some (.colonDue members key frames)
  | .keyDue members true frames, .closeObject => some (.deliver (.object members) frames)
  | .colonDue members key frames, .colon => some (.valueDue (.object members key :: frames))
  | .moreMembers members frames, .comma => some (.keyDue members false frames)
  | .moreMembers members frames, .closeObject => some (.deliver (.object members) frames)
  | _, _ => none

def Reading.run? : Reading → List Token → Option Reading
  | reading, [] => some reading
  | reading, token :: tokens => (reading.step? token).bind (Reading.run? · tokens)

def Reading.result? : Reading → Option Json
  | .finished value => some value
  | _ => none

def ofTokens? (tokens : List Token) : Option Json :=
  (Reading.run? (.valueDue []) tokens).bind Reading.result?

def ofText? (text : String) : Option Json :=
  (tokens? text.toList).bind ofTokens?

end BuilderCalls.Json
