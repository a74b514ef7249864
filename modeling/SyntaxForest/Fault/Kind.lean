/-!
The kinds of fault, and the issues of a record.

The word for a kind is what callers tell faults apart by. Values that break the rules of a record
are reported together, with an `Issue` per bad field.
-/

namespace SyntaxForest

/-- A step on the way to a bad value inside a record. -/
inductive Step where
  | field (name : String)
  | index (position : Nat)
deriving DecidableEq, Repr

/-- One broken rule of a record: which rule, where, and in words. -/
structure Issue where
  rule : String
  path : List Step
  message : String
deriving DecidableEq, Repr

namespace Issue

/-- The same issue seen from the record that holds the bad one at `step`. -/
def under (step : Step) (i : Issue) : Issue := { i with path := step :: i.path }

end Issue

/-- The kinds of fault that carry nothing but a message. -/
inductive FaultKind where
  | badValue
  | badType
  | badKey
  | badIndex
  | overflow
  | noAttribute
  | noImport
  | noModule
  | noFile
  | isDirectory
  | notDirectory
  | badPath
  | outOfMemory
  | cancelled
  | interrupted
  | badTransition
  | malformedYaml
  | runtime
deriving DecidableEq, Repr

namespace FaultKind

def name : FaultKind → String
  | badValue => "ValueError"
  | badType => "TypeError"
  | badKey => "KeyError"
  | badIndex => "IndexError"
  | overflow => "OverflowError"
  | noAttribute => "AttributeError"
  | noImport => "ImportError"
  | noModule => "ModuleNotFoundError"
  | noFile => "FileNotFoundError"
  | isDirectory => "IsADirectoryError"
  | notDirectory => "NotADirectoryError"
  | badPath => "OSError"
  | outOfMemory => "MemoryError"
  | cancelled => "CancelledError"
  | interrupted => "BaseException"
  | badTransition => "InvalidStateTransitionError"
  | malformedYaml => "YAMLError"
  | runtime => "RuntimeError"

/-- The kinds that can be asked for by name. -/
def named : List FaultKind :=
  [badValue, runtime, noImport, outOfMemory, badType, badKey, cancelled, badTransition]

def ofName? (s : String) : Option FaultKind := named.find? (·.name = s)

/-- The name by which a report of where a fault arose shows its kind. -/
def fullName : FaultKind → String
  | cancelled => "asyncio.exceptions.CancelledError"
  | badTransition => "polyast.errors.InvalidStateTransitionError"
  | kind => kind.name

end FaultKind

end SyntaxForest
