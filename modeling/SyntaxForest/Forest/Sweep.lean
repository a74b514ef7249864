import SyntaxForest.Forest.Walk

/-!
Forgetting nodes.

A node owns its children, but a child does not own its parent. So a node stays in the forest as long
as someone holds it or one of its ancestors; all others go, and their children then have no parent.
-/

namespace SyntaxForest.Forest

open SyntaxForest

/-- The held nodes and everything below them. -/
def reachable (f : Forest) (held : List NodeId) : List NodeId :=
  held.flatMap fun id => id :: f.descendants id

/-- The node without its link to a parent that is not among `kept`. -/
def Node.forgetParent (kept : Array Bool) (node : Node) : Node :=
  match node.parent with
  | some p => if kept.getD p false then node else { node with parent := none }
  | none => node

/-- Which ids are in the list, as a table of `size` entries. -/
def marks (size : Nat) (ids : List NodeId) : Array Bool :=
  ids.foldl (fun table id => table.modify id fun _ => true) (Array.replicate size false)

/-- Keeps the held nodes and everything below them, and removes the others. -/
def sweep (f : Forest) (held : List NodeId) : Forest :=
  let kept := marks f.size (f.reachable held)
  { nodes := f.nodes.mapIdx fun id slot =>
      if kept.getD id false then slot.map (Node.forgetParent kept) else none }

end SyntaxForest.Forest
