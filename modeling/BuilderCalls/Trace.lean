import BuilderCalls.Evaluation

/-!
# Traced results

A traced computation yields a value or a failure together with the entries it
recorded on the way.  Entries come in the order of the work; a failure keeps those
recorded before it.
-/

namespace BuilderCalls

inductive TraceEntry where
  | wrapper
  | statements (count : Nat)
  | statement (index : Nat) (nodeType : NodeType)
  | converting (nodeType : NodeType) (path : Path)
  | building (nodeType : NodeType)
  deriving DecidableEq

namespace TraceEntry

inductive Level where
  | warn
  | debug
  | trace
  deriving DecidableEq

def Level.name : Level → String
  | .warn => "WARN"
  | .debug => "DEBUG"
  | .trace => "TRACE"

def level : TraceEntry → Level
  | .wrapper => .warn
  | .statements _ => .debug
  | .statement _ _ => .debug
  | .converting _ _ => .trace
  | .building _ => .trace

def message : TraceEntry → String
  | .wrapper => "input is a File wrapper; converting its " ++ fieldName "program"
  | .statements count => "building " ++ natString count ++ " top-level statement(s)"
  | .statement index nodeType => "body[" ++ natString index ++ "] -> " ++ nodeType.builder
  | .converting nodeType path => "converting " ++ nodeType.tag ++ " at " ++ path.text
  | .building nodeType => "building " ++ nodeType.builder

def text (entry : TraceEntry) : String :=
  entry.level.name ++ " " ++ entry.message

/-- The entry seen from further out: a path gets the steps in front. -/
def under (steps : Path) : TraceEntry → TraceEntry
  | .converting nodeType path => .converting nodeType (steps ++ path)
  | entry => entry

end TraceEntry

structure Traced (α : Type) where
  entries : List TraceEntry
  result : Except Failure α

namespace Traced

variable {α β : Type}

def pure (value : α) : Traced α :=
  ⟨[], .ok value⟩

def bind (traced : Traced α) (next : α → Traced β) : Traced β :=
  match traced.result with
  | .ok value => ⟨traced.entries ++ (next value).entries, (next value).result⟩
  | .error failure => ⟨traced.entries, .error failure⟩

def map (change : α → β) (traced : Traced α) : Traced β :=
  ⟨traced.entries, traced.result.map change⟩

instance : Monad Traced where
  pure := Traced.pure
  bind := Traced.bind
  map := Traced.map

def fail (failure : Failure) : Traced α :=
  ⟨[], .error failure⟩

instance : MonadExceptOf Failure Traced where
  throw := Traced.fail
  tryCatch traced handle :=
    match traced.result with
    | .ok _ => traced
    | .error failure =>
        ⟨traced.entries ++ (handle failure).entries, (handle failure).result⟩

def record (entry : TraceEntry) : Traced Unit :=
  ⟨[entry], .ok ()⟩

def ofExcept (result : Except Failure α) : Traced α :=
  ⟨[], result⟩

/-- The computation as part of one further out, at the end of the given steps. -/
def under (steps : Path) (traced : Traced α) : Traced α :=
  ⟨traced.entries.map (TraceEntry.under steps),
    traced.result.mapError (Failure.under · steps)⟩

end Traced

/-- The same builders, each use of which is recorded before the node is built. -/
def BuilderSet.traced {ν : Type} (builders : BuilderSet (Except Failure) ν) :
    BuilderSet Traced ν :=
  ⟨fun nodeType args => do
    Traced.record (.building nodeType)
    Traced.ofExcept (builders.build nodeType args)⟩

end BuilderCalls
