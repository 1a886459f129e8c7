/-!
# Namespaces

A namespace is an identifier or several of them with points between.  The check
reads it character by character and only knows whether a part has begun.
-/

namespace BuilderCalls

namespace Namespace

def isPartStart (char : Char) : Bool :=
  char.isAlpha || char = '_' || char = '$'

def isPartChar (char : Char) : Bool :=
  char.isAlphanum || char = '_' || char = '$'

/-- Reads on, inside a part or where one has to begin. -/
def scan : (inside : Bool) → List Char → Bool
  | inside, [] => inside
  | false, char :: rest => isPartStart char && scan true rest
  | true, char :: rest => if char = '.' then scan false rest else isPartChar char && scan true rest

def isDotted (text : String) : Bool :=
  scan false text.toList

end Namespace

end BuilderCalls
