import BuilderCalls.Call.Check

/-!
# Evaluation

A builder set makes a node of some kind for each call, from the arguments that hold
the nodes already made for the children.  It may do so in any monad in which failures
can be thrown, so a set can also count, record or number the nodes it makes.

A call is checked before its arguments are looked at, so of two faults the outer one
is reported; nodes are built from the inside out and from left to right.
-/

namespace BuilderCalls

structure BuilderSet (m : Type → Type) (ν : Type) where
  build : NodeType → List (Arg ν) → m ν

variable {m : Type → Type} {ν : Type} [Monad m] [MonadExceptOf Failure m]

mutual

def Call.evaluate (builders : BuilderSet m ν) : Call → m ν
  | .mk nodeType args => do
      MonadExcept.ofExcept (nodeType.check args)
      builders.build nodeType (← Call.evaluateArgs builders args)
termination_by structural call => call

def Call.evaluateArg (builders : BuilderSet m ν) : Arg Call → m (Arg ν)
  | .null => return .null
  | .bool value => return .bool value
  | .string value => return .string value
  | .literal value => return .literal value
  | .node call => Arg.node <$> Call.evaluate builders call
  | .list items => Arg.list <$> Call.evaluateArgs builders items
  | .template cooked raw => return .template cooked raw
termination_by structural arg => arg

def Call.evaluateArgs (builders : BuilderSet m ν) : List (Arg Call) → m (List (Arg ν))
  | [] => return []
  | arg :: args => do
      let built ← Call.evaluateArg builders arg
      (built :: ·) <$> Call.evaluateArgs builders args
termination_by structural args => args

end

def evaluateAll (builders : BuilderSet m ν) (calls : List Call) : m (List ν) :=
  calls.mapM (Call.evaluate builders)

end BuilderCalls
