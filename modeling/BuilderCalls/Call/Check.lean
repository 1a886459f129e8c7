import BuilderCalls.Failure

/-!
# Checking calls

A call fits its signature when it has one argument for each slot and each argument
may stand in its slot.  The check looks at the call alone, not at its children.
-/

namespace BuilderCalls

namespace Mismatch

def ofArg {ν : Type} (slot : Slot) (arg : Arg ν) : Mismatch :=
  match slot.kind, arg with
  | .keyword _, .string word => .unknownWord slot word
  | _, arg => .argument slot arg.kind

end Mismatch

namespace NodeType

variable {ν : Type}

def checkArity (nodeType : NodeType) (args : List (Arg ν)) : Except Failure Unit :=
  if args.length = nodeType.arity then .ok ()
  else .error (.mismatch nodeType.builder (.arity nodeType args.length))

/-- Each argument must fit the slot at its place; the first that does not is named. -/
def checkSlots (nodeType : NodeType) : List Slot → List (Arg ν) → Except Failure Unit
  | slot :: slots, arg :: args =>
      if arg.fits slot.kind then checkSlots nodeType slots args
      else .error (.mismatch nodeType.builder (.ofArg slot arg))
  | _, _ => .ok ()

def check (nodeType : NodeType) (args : List (Arg ν)) : Except Failure Unit := do
  nodeType.checkArity args
  nodeType.checkSlots nodeType.slots args

end NodeType

def Call.check (call : Call) : Except Failure Unit :=
  call.nodeType.check call.args

end BuilderCalls
