import BuilderCalls.Json.Printer

/-!
# Quoted strings

A string in source text stands between two quotes of one style.  Quotes of that
style, backslashes, control characters and the line separators are escaped; every
other character stands for itself.
-/

namespace BuilderCalls

inductive Quote where
  | single
  | double
  deriving DecidableEq

namespace Quote

def char : Quote → Char
  | .single => '\''
  | .double => '"'

def name : Quote → String
  | .single => "single"
  | .double => "double"

def ofName? (name : String) : Option Quote :=
  if name = "single" then some .single
  else if name = "double" then some .double
  else none

end Quote

def isControl (char : Char) : Bool :=
  char.toNat < 0x20 || (0x7f ≤ char.toNat && char.toNat < 0xa0)

def lineSeparator : Char := '\u2028'

def paragraphSeparator : Char := '\u2029'

def unicodeEscape (char : Char) : List Char :=
  '\\' :: 'u' :: hexText 4 char.toNat

def Quote.escapeChar (quote : Quote) (char : Char) : List Char :=
  if char = '\\' then ['\\', '\\']
  else if char = '\n' then ['\\', 'n']
  else if char = '\r' then ['\\', 'r']
  else if char = '\t' then ['\\', 't']
  else if char = '\x08' then ['\\', 'b']
  else if char = '\x0b' then ['\\', 'v']
  else if char = '\x0c' then ['\\', 'f']
  else if char = quote.char then ['\\', char]
  else if isControl char || char = lineSeparator || char = paragraphSeparator then
    unicodeEscape char
  else [char]

def Quote.quoted (quote : Quote) (text : String) : List Char :=
  quote.char :: text.toList.flatMap quote.escapeChar ++ [quote.char]

end BuilderCalls
