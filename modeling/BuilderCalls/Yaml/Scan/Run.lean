import BuilderCalls.Yaml.Scan

/-!
# Scanning YAML

The scanner takes one character at a time and looks at those that follow without
consuming them.
-/

namespace BuilderCalls.Yaml

namespace Scan

/-! ## Between lexemes -/

def isDocumentMarker (mark char : Char) (ahead : List Char) : Bool :=
  match ahead with
  | second :: third :: rest => char = mark && second = mark && third = mark && blankAhead rest
  | _ => false

def marksDocument (scan : Scan) (char : Char) (ahead : List Char) : Bool :=
  scan.column = 0 && (isDocumentMarker '-' char ahead || isDocumentMarker '.' char ahead)

def startsPlain (scan : Scan) (char : Char) (ahead : List Char) : Bool :=
  (!isBlank char && !isIndicator char) || (char = '-' && !(ahead.head?.any isBlank)) ||
    (!scan.inFlow && (char = '?' || char = ':') && !blankAhead ahead)

def token? (scan : Scan) (char : Char) (ahead : List Char) : Option Scan := do
  let scan ← scan.expireKeys?
  let scan := scan.unroll
  let indicates := scan.inFlow || blankAhead ahead
  if scan.column = 0 && char = '%' then scan.startDirective?
  else if scan.marksDocument char ahead then
    scan.document? (if char = '-' then .documentStart else .documentEnd)
  else if char = '[' then scan.openFlow? .flowSequence
  else if char = '\x7b' then scan.openFlow? .flowMapping
  else if char = ']' then scan.closeFlow? .flowSequenceEnd
  else if char = '\x7d' then scan.closeFlow? .flowMappingEnd
  else if char = ',' then scan.flowEntry?
  else if char = '-' && blankAhead ahead then scan.blockEntry?
  else if char = '?' && indicates then scan.key?
  else if char = ':' && indicates then scan.value?
  else if char = '*' then scan.startNode? (.anchor true [])
  else if char = '&' then scan.startNode? (.anchor false [])
  else if char = '!' then scan.startNode? (.tag ['!'])
  else if char = '|' && !scan.inFlow then scan.startBlockScalar? true
  else if char = '>' && !scan.inFlow then scan.startBlockScalar? false
  else if char = '\'' then scan.startNode? (.single [] .none)
  else if char = '"' then scan.startNode? (.double [] .none)
  else if scan.startsPlain char ahead then scan.startNode? (.plain [char] .none)
  else none

def between? (scan : Scan) (char : Char) (ahead : List Char) : Option Scan :=
  if char = ' ' then some scan
  else if char = '\t' && (scan.inFlow || !scan.keyAllowed) then some scan
  else if char = byteOrderMark && scan.column = 0 then some scan
  else if char = '#' then some (scan.reading .comment)
  else if isBreak char then some (if scan.inFlow then scan else scan.allowKey true)
  else scan.token? char ahead

/-! ## Directives, anchors and tags -/

def finishDirective? (scan : Scan) (text : List Char) : Option Scan := do
  let names ← scan.names.direct? (← directiveOfText? text.reverse)
  return ({ scan with names := names }.emit .directive).reading .none

def finishAnchor? (scan : Scan) (isAlias : Bool) (name : List Char) : Option Scan :=
  let name := String.ofList name.reverse
  if name = "" then none
  else if isAlias then
    (scan.names.alias? name).map fun number => (scan.emit (.alias number)).reading .none
  else
    let (number, names) := scan.names.anchor name
    some (({ scan with names := names }.emit (.anchor number)).reading .none)

def anchor? (scan : Scan) (isAlias : Bool) (name : List Char) (char : Char)
    (ahead : List Char) : Option Scan := do
  if isNameChar char then return scan.reading (.anchor isAlias (char :: name))
  else if endsName char then (← scan.finishAnchor? isAlias name).between? char ahead
  else none

def finishTag? (scan : Scan) (text : List Char) : Option Scan :=
  (tagOfText? scan.names.stems text.reverse).map fun name =>
    (scan.emit (.tag name)).reading .none

def isOpenVerbatim (text : List Char) : Bool :=
  ['!', '<'].isPrefixOf text.reverse && !text.contains '>'

def tag? (scan : Scan) (text : List Char) (char : Char) (ahead : List Char) :
    Option Scan := do
  if isBlank char || isBreak char || (scan.inFlow && char = ',' && !isOpenVerbatim text) then
    (← scan.finishTag? text).between? char ahead
  else return scan.reading (.tag (char :: text))

/-! ## Plain scalars -/

def finishPlain (scan : Scan) (text : List Char) (gap : Gap) : Scan :=
  ((scan.emit (.scalar (String.ofList text.reverse) true)).allowKey gap.spansLines).reading .none

def endsPlain (scan : Scan) (gap : Gap) (char : Char) (ahead : List Char) : Bool :=
  (match gap with
    | .none => false
    | .blanks _ => char = '#'
    | .lines _ _ =>
        char = '#' || (!scan.inFlow && !scan.isDeeper scan.column) ||
          scan.marksDocument char ahead) ||
    (char = ':' && blankAhead ahead) || (scan.inFlow && isFlowIndicator char)

/-- A colon that a plain scalar in a flow collection may not hold. -/
def strayColon (scan : Scan) (char : Char) (ahead : List Char) : Bool :=
  scan.inFlow && char = ':' &&
    ahead.head?.any fun following => isFlowIndicator following || following = '?'

def plain? (scan : Scan) (text : List Char) (gap : Gap) (char : Char) (ahead : List Char) :
    Option Scan :=
  if isBreak char then some (scan.reading (.plain text (gap.addBreak char)))
  else if isBlank char then
    if gap.spansLines && char = '\t' && !scan.isDeeper scan.column then none
    else some (scan.reading (.plain text (gap.addBlank char)))
  else if scan.endsPlain gap char ahead then
    (scan.finishPlain text gap).between? char ahead
  else if scan.strayColon char ahead then none
  else some (scan.reading (.plain (char :: (gap.folded ++ text)) .none))

/-! ## Quoted scalars -/

def finishQuoted (scan : Scan) (text : List Char) : Scan :=
  (scan.emit (.scalar (String.ofList text.reverse) false)).reading .none

def escape? (scan : Scan) (text : List Char) (char : Char) : Option Scan :=
  if isBreak char then some (scan.reading (.double text (.lines none [])))
  else
    match codeLength? char with
    | some length => some (scan.reading (.code text length 0))
    | none => (escapes.lookup char).map fun meant => scan.reading (.double (meant :: text) .none)

def code? (scan : Scan) (text : List Char) (remaining value : Nat) (char : Char) :
    Option Scan := do
  let value := 16 * value + (← hexDigit? char)
  if 1 < remaining then return scan.reading (.code text (remaining - 1) value)
  else if value.isValidChar then
    return scan.reading (.double (Char.ofNat value :: text) .none)
  else none

def quoted? (scan : Scan) (lexeme : List Char → Gap → Lexeme) (text : List Char) (gap : Gap)
    (char : Char) (ahead : List Char) : Option Scan :=
  if scan.marksDocument char ahead then none
  else if isBreak char then some (scan.reading (lexeme text (gap.addBreak char)))
  else if isBlank char then some (scan.reading (lexeme text (gap.addBlank char)))
  else some (scan.reading (lexeme (char :: (gap.folded ++ text)) .none))

/-! ## Block scalars -/

def finishBlock (scan : Scan) (scalar : BlockScalar) : Scan :=
  (scan.emit (.scalar (String.ofList scalar.content) false)).reading .none

def header? (scan : Scan) (header : BlockHeader) (char : Char) : Option Scan :=
  if isBreak char then
    some (scan.reading (.blockMargin (.ofHeader header scan.indents.head?)))
  else (header.add? char).map fun header => scan.reading (.blockHeader header)

def margin? (scan : Scan) (scalar : BlockScalar) (char : Char) (ahead : List Char) :
    Option Scan :=
  let scalar := scalar.reach scan.column
  if isBlank char && scalar.inIndentation scan.column then
    if char = ' ' then some (scan.reading (.blockMargin scalar)) else none
  else if isBreak char then some (scan.reading (.blockMargin (scalar.addEmptyLine char)))
  else if scalar.settle.indent = some scan.column then
    some (scan.reading (.blockLine (scalar.settle.beginLine char)))
  else (scan.finishBlock scalar).between? char ahead

def blockLine (scan : Scan) (scalar : BlockScalar) (char : Char) : Scan :=
  scan.reading
    (if isBreak char then .blockMargin (scalar.endLine char) else .blockLine (scalar.addChar char))

/-! ## The scan -/

def act? (scan : Scan) (char : Char) (ahead : List Char) : Option Scan :=
  match scan.lexeme with
  | .none => scan.between? char ahead
  | .marker remaining =>
      some (scan.reading (if 1 < remaining then .marker (remaining - 1) else .none))
  | .comment =>
      if isBreak char then (scan.reading .none).between? char ahead else some scan
  | .directive text =>
      if isBreak char then do (← scan.finishDirective? text).between? char ahead
      else some (scan.reading (.directive (char :: text)))
  | .anchor isAlias name => scan.anchor? isAlias name char ahead
  | .tag text => scan.tag? text char ahead
  | .plain text gap => scan.plain? text gap char ahead
  | .single text gap =>
      if char = '\'' then
        if startsWith ahead '\'' then some (scan.reading (.doubled (gap.folded ++ text)))
        else some (scan.finishQuoted (gap.folded ++ text))
      else scan.quoted? .single text gap char ahead
  | .doubled text => some (scan.reading (.single ('\'' :: text) .none))
  | .double text gap =>
      if char = '"' then some (scan.finishQuoted (gap.folded ++ text))
      else if char = '\\' then some (scan.reading (.escape (gap.folded ++ text)))
      else scan.quoted? .double text gap char ahead
  | .escape text => scan.escape? text char
  | .code text remaining value => scan.code? text remaining value char
  | .blockHeader header => scan.header? header char
  | .blockMargin scalar => scan.margin? scalar char ahead
  | .blockLine scalar => some (scan.blockLine scalar char)

def run? : Scan → List Char → Option Scan
  | scan, [] => some scan
  | scan, char :: ahead => do
      let next ← scan.act? char ahead
      run? (next.advance char) ahead

def finishLexeme? (scan : Scan) : Option Scan :=
  match scan.lexeme with
  | .none => some scan
  | .comment => some scan
  | .directive text => scan.finishDirective? text
  | .anchor isAlias name => scan.finishAnchor? isAlias name
  | .tag text => scan.finishTag? text
  | .plain text gap => some (scan.finishPlain text gap)
  | .blockHeader header => some (scan.finishBlock (.ofHeader header scan.indents.head?))
  | .blockMargin scalar => some (scan.finishBlock scalar)
  | .blockLine scalar => some (scan.finishBlock scalar)
  | _ => none

/-- Ends the lexeme that the text ends in and closes the open block collections. -/
def finish? (scan : Scan) : Option (List Token) := do
  let scan ← (← scan.finishLexeme?).expireKeys?
  let scan ← scan.unrollAll.dropKey?
  return scan.tokens.toList

end Scan

def tokens? (text : List Char) : Option (List Token) := do
  if text.all isPrintable then
    let scan ← Scan.run? .initial (normalizeBreaks text)
    scan.finish?
  else none

end BuilderCalls.Yaml
