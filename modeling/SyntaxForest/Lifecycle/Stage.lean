import SyntaxForest.Fault

/-!
The stages of a parser's life.

A parser starts uninitialized, loads its grammar, and is initialized once the grammar is there. A
load that fails leads back to the start. Disposal is possible from everywhere and final.
-/

namespace SyntaxForest

inductive Stage where
  | uninitialized
  | initializing
  | initialized
  | disposed
deriving DecidableEq, Repr

namespace Stage

def name : Stage → String
  | uninitialized => "uninitialized"
  | initializing => "initializing"
  | initialized => "initialized"
  | disposed => "disposed"

/-- The stage that a value names. -/
def ofDatum (d : Datum) : Except Fault Stage :=
  match [uninitialized, initializing, initialized, disposed].find? fun stage =>
    d.isText stage.name with
  | some stage => .ok stage
  | none => .error (.badValue (d.quoted ++ " is not a valid ParserState"))

/-- The stages that can follow a stage. -/
def successors : Stage → List Stage
  | uninitialized => [initializing, disposed]
  | initializing => [initialized, uninitialized, disposed]
  | initialized => [disposed]
  | disposed => []

end Stage

end SyntaxForest
