import SyntaxForest.Tree.SyntaxNode

/-!
Counting the nodes of a tree.

A census goes through a tree once, with the nodes that it has still to visit on a stack. It counts
the nodes of each kind under the spelling that it met first, and keeps a second table that leads
from the folded form of a kind to that spelling.
-/

namespace SyntaxForest

/-- What has been counted so far. -/
structure Census where
  total : Nat := 0
  /-- The greatest distance of a node from the root. -/
  deepest : Nat := 0
  /-- The spelling under which the kinds with some folded form are counted. -/
  spellings : Assoc String String := []
  counts : Assoc String Int := []

namespace Census

/-- Counts a node of a kind that is `depth` levels below the root. -/
def count (fold : String → String) (c : Census) (depth : Nat) (kind : String) : Census :=
  let spelling := (Assoc.get? c.spellings (fold kind)).getD kind
  { total := c.total + 1
    deepest := max c.deepest depth
    spellings := Assoc.set c.spellings (fold kind) spelling
    counts := Assoc.alter c.counts spelling fun earlier => earlier.getD 0 + 1 }

/-- Some nodes at one depth. -/
def atDepth (depth : Nat) (nodes : List SyntaxNode) : List (Nat × SyntaxNode) :=
  nodes.map fun n => (depth, n)

theorem map_atDepth (depth : Nat) (nodes : List SyntaxNode) :
    (atDepth depth nodes).map (·.2) = nodes := by
  rw [atDepth, List.map_map]
  exact List.map_id nodes

/-- Counts the nodes on a stack, each with its depth, and all below them. The children of a node go
on top of the stack. -/
def walk (fold : String → String) (c : Census) : List (Nat × SyntaxNode) → Census
  | [] => c
  | (depth, .node _ info children) :: rest =>
    walk fold (c.count fold depth info.kind) (atDepth (depth + 1) children ++ rest)
termination_by stack => SyntaxNode.sizeAll (stack.map (·.2))
decreasing_by
  rw [List.map_append, map_atDepth, SyntaxNode.sizeAll_append, List.map_cons, SyntaxNode.sizeAll,
    SyntaxNode.size]
  omega

end Census

end SyntaxForest
