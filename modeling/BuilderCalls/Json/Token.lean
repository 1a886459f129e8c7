import BuilderCalls.Json.Basic
import BuilderCalls.Number.Text

/-!
# JSON tokens

The scanner reads one character at a time.  `Scan` is what it knows between two
characters: the lexeme it is inside of and the tokens completed so far.  Numbers
and words are collected as far as their characters go and judged as a whole.
-/

namespace BuilderCalls.Json

inductive Token where
  | openArray
  | closeArray
  | openObject
  | closeObject
  | colon
  | comma
  | null
  | bool (value : Bool)
  | number (value : Number)
  | string (value : String)

def isBlank (char : Char) : Bool :=
  char = ' ' || char = '\t' || char = '\n' || char = '\r'

def isWordChar (char : Char) : Bool :=
  char.isLower

def isNumberChar (char : Char) : Bool :=
  char.isDigit || char = '-' || char = '+' || char = '.' || char = 'e' || char = 'E'

def digitsValue (digits : List Char) : Nat :=
  digits.foldl (fun value digit => 10 * value + (digit.toNat - 48)) 0

def digits? (text : List Char) : Option (List Char × List Char) :=
  match text.takeWhile Char.isDigit with
  | [] => none
  | digits => some (digits, text.dropWhile Char.isDigit)

/-- The whole part of a number has no leading zero. -/
def wholePart? (text : List Char) : Option (List Char × List Char) :=
  match digits? text with
  | some ('0' :: _ :: _, _) => none
  | found => found

/-- The digits after a point; none are read when there is no point. -/
def fraction? : List Char → Option (Option (List Char) × List Char)
  | '.' :: rest => (digits? rest).map fun (digits, rest) => (some digits, rest)
  | text => some (none, text)

def exponentDigits? (negative : Bool) (text : List Char) : Option Int :=
  match digits? text with
  | some (digits, []) =>
      let value : Int := digitsValue digits
      some (if negative then -value else value)
  | _ => none

/-- The exponent that ends a number; it may be missing, but nothing may follow it. -/
def exponent? (text : List Char) : Option (Option Int) :=
  match text with
  | [] => some none
  | mark :: rest =>
      if mark = 'e' || mark = 'E' then
        match rest with
        | '-' :: rest => (exponentDigits? true rest).map some
        | '+' :: rest => (exponentDigits? false rest).map some
        | rest => (exponentDigits? false rest).map some
      else none

/--
An integer that fits 64 bits unless it has a point, an exponent or is `-0`; all
else is a double, which must be finite.  Decimals are rounded to the nearest double;
readers that are off by a bit in the last place for some long ones are not modelled.
-/
def numberOfParts? (negative : Bool) (whole : List Char) (fraction : Option (List Char))
    (exponent : Option Int) : Option Number :=
  let digits := whole ++ fraction.getD []
  let scale : Int := exponent.getD 0 - (fraction.getD []).length
  let double := Decimal.toDouble negative ⟨digitsValue digits, scale⟩
  let value : Int := digitsValue whole
  let integer :=
    if fraction.isNone && exponent.isNone && !(negative && value == 0) then
      Number.ofInt? (if negative then -value else value)
    else none
  match integer with
  | some found => some found
  | none => Number.ofDouble? double

def unsignedNumber? (negative : Bool) (text : List Char) : Option Number := do
  let (whole, rest) ← wholePart? text
  let (fraction, rest) ← fraction? rest
  let exponent ← exponent? rest
  numberOfParts? negative whole fraction exponent

def numberOfText? : List Char → Option Number
  | '-' :: text => unsignedNumber? true text
  | text => unsignedNumber? false text

def wordToken? (word : List Char) : Option Token :=
  if word = "null".toList then some .null
  else if word = "true".toList then some (.bool true)
  else if word = "false".toList then some (.bool false)
  else none

def punctuation? (char : Char) : Option Token :=
  if char = '[' then some .openArray
  else if char = ']' then some .closeArray
  else if char = '\x7b' then some .openObject
  else if char = '\x7d' then some .closeObject
  else if char = ':' then some .colon
  else if char = ',' then some .comma
  else none

def simpleEscape? (char : Char) : Option Char :=
  if char = '"' then some '"'
  else if char = '\\' then some '\\'
  else if char = '/' then some '/'
  else if char = 'b' then some '\x08'
  else if char = 'f' then some '\x0c'
  else if char = 'n' then some '\n'
  else if char = 'r' then some '\r'
  else if char = 't' then some '\t'
  else none

def isHighSurrogate (unit : Nat) : Bool :=
  0xD800 ≤ unit && unit < 0xDC00

def isLowSurrogate (unit : Nat) : Bool :=
  0xDC00 ≤ unit && unit < 0xE000

/-- The lexeme being read.  Collected characters are held in reverse. -/
inductive Lexeme where
  | none
  | word (chars : List Char)
  | number (chars : List Char)
  | string (chars : List Char)
  | escape (chars : List Char)
  /-- Inside `\u`: the high surrogate before it if there is one, and the digits so far. -/
  | unit (chars : List Char) (high : Option Nat) (value count : Nat)
  /-- After a high surrogate, whose low half must follow. -/
  | lowHalf (chars : List Char) (high : Nat)
  | lowHalfMark (chars : List Char) (high : Nat)

structure Scan where
  lexeme : Lexeme
  tokens : List Token

def unitDone? (chars : List Char) (high : Option Nat) (unit : Nat) : Option Lexeme :=
  match high with
  | some high =>
      if isLowSurrogate unit then
        some (.string (Char.ofNat (0x10000 + (high - 0xD800) * 0x400 + (unit - 0xDC00)) :: chars))
      else none
  | none =>
      if isHighSurrogate unit then some (.lowHalf chars unit)
      else if isLowSurrogate unit then none
      else some (.string (Char.ofNat unit :: chars))

def Scan.open? (tokens : List Token) (char : Char) : Option Scan :=
  if isBlank char then some ⟨.none, tokens⟩
  else if char = '"' then some ⟨.string [], tokens⟩
  else if isNumberChar char && char != 'e' then some ⟨.number [char], tokens⟩
  else if isWordChar char then some ⟨.word [char], tokens⟩
  else (punctuation? char).map fun token => ⟨.none, token :: tokens⟩

/-- Ends a word or a number; no other lexeme ends by the character after it. -/
def Scan.finish? (scan : Scan) : Option (List Token) :=
  match scan.lexeme with
  | .none => some scan.tokens
  | .word chars => (wordToken? chars.reverse).map (· :: scan.tokens)
  | .number chars => (numberOfText? chars.reverse).map (Token.number · :: scan.tokens)
  | _ => none

def Scan.step? (scan : Scan) (char : Char) : Option Scan :=
  let inside (lexeme : Lexeme) : Option Scan := some ⟨lexeme, scan.tokens⟩
  match scan.lexeme with
  | .none => Scan.open? scan.tokens char
  | .word chars =>
      if isWordChar char then inside (.word (char :: chars))
      else scan.finish?.bind (Scan.open? · char)
  | .number chars =>
      if isNumberChar char then inside (.number (char :: chars))
      else scan.finish?.bind (Scan.open? · char)
  | .string chars =>
      if char = '"' then some ⟨.none, .string (String.ofList chars.reverse) :: scan.tokens⟩
      else if char = '\\' then inside (.escape chars)
      else if char.toNat < 0x20 then none
      else inside (.string (char :: chars))
  | .escape chars =>
      if char = 'u' then inside (.unit chars .none 0 0)
      else (simpleEscape? char).bind fun meant => inside (.string (meant :: chars))
  | .unit chars high value count =>
      (hexDigit? char).bind fun digit =>
        let value := 16 * value + digit
        if count = 3 then
          (unitDone? chars high value).bind inside
        else inside (.unit chars high value (count + 1))
  | .lowHalf chars high => if char = '\\' then inside (.lowHalfMark chars high) else none
  | .lowHalfMark chars high =>
      if char = 'u' then inside (.unit chars (some high) 0 0) else none

def Scan.run? : Scan → List Char → Option Scan
  | scan, [] => some scan
  | scan, char :: chars => (scan.step? char).bind (Scan.run? · chars)

def tokens? (text : List Char) : Option (List Token) :=
  ((Scan.run? ⟨.none, []⟩ text).bind Scan.finish?).map List.reverse

end BuilderCalls.Json
