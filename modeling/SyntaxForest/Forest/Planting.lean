import SyntaxForest.Forest.Basic

/-!
Planting a forest from a list of nodes, parents before their children.

Each node is made, filled and then linked under its parent, which comes earlier in the list. The
first node that is refused ends the planting.
-/

namespace SyntaxForest

/-- A node to plant. -/
structure Seed where
  kind : String
  name : Option String := none
  /-- The numbers of the node's span, if it has one. -/
  span : Option (Assoc String Datum) := none
  text : Option String := none
  isError : Bool := false
  isMissing : Bool := false
  metadata : Assoc String Datum := []
  categories : List String := [baseCategory]
  /-- The position of the parent in the list; below zero it counts from the last node planted. -/
  parent : Option Int := none

namespace Seed

/-- What the planted node says. -/
def info (s : Seed) : Except Fault NodeInfo := do
  let span ← s.span.mapM Span.make
  return { kind := s.kind, name := s.name, span, text := s.text, isError := s.isError,
           isMissing := s.isMissing, metadata := s.metadata, categories := s.categories }

end Seed

namespace Forest

/-- Plants one node. -/
def plant (f : Forest) (s : Seed) : Except Fault (Forest × NodeId) := do
  let info ← s.info
  let (grown, id) ← (f.insert info).mapError NodeError.fault
  match s.parent with
  | none => return (grown, id)
  | some place =>
    let parent ← f.idAt place
    return (← (grown.addChild parent id).mapError NodeError.fault, id)

/-- Plants nodes one after another in an empty forest, so that each one's id is its position. -/
def ofSeeds (seeds : List Seed) : Except Fault Forest :=
  seeds.foldlM (fun f s => (f.plant s).map (·.1)) {}

end Forest

end SyntaxForest
