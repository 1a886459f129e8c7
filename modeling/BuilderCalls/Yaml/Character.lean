import BuilderCalls.Number.Text

/-!
# YAML characters

The classes of characters that the YAML scanner tells apart, and the one spelling
that all ordinary line breaks are given before scanning.
-/

namespace BuilderCalls.Yaml

def isBreak (char : Char) : Bool :=
  char = '\n' || char = '\u2028' || char = '\u2029'

def isBlank (char : Char) : Bool :=
  char = ' ' || char = '\t'

def byteOrderMark : Char := '\ufeff'

def blankAhead : List Char → Bool
  | [] => true
  | char :: _ => isBlank char || isBreak char

def startsWith (text : List Char) (char : Char) : Bool :=
  text.head? = some char

def isPrintable (char : Char) : Bool :=
  let code := char.toNat
  code = 0x09 || code = 0x0a || code = 0x0d || (0x20 ≤ code && code ≤ 0x7e) || code = 0x85 ||
    (0xa0 ≤ code && code ≤ 0xfffd) || 0x10000 ≤ code

def normalizeBreaks : List Char → List Char
  | '\r' :: '\n' :: rest => '\n' :: normalizeBreaks rest
  | '\r' :: rest => '\n' :: normalizeBreaks rest
  | '\x85' :: rest => '\n' :: normalizeBreaks rest
  | char :: rest => char :: normalizeBreaks rest
  | [] => []

def isFlowIndicator (char : Char) : Bool :=
  [',', '[', ']', '\x7b', '\x7d'].contains char

def isIndicator (char : Char) : Bool :=
  isFlowIndicator char ||
    ['-', '?', ':', '#', '&', '*', '!', '|', '>', '\'', '"', '%', '@', '\x60'].contains char

def isNameChar (char : Char) : Bool :=
  char.isAlphanum || char = '-' || char = '_'

def endsName (char : Char) : Bool :=
  isBlank char || isBreak char || ['?', ':', ',', ']', '\x7d', '%', '@', '\x60'].contains char

end BuilderCalls.Yaml
