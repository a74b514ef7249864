import SyntaxForest.Forest.Walk

/-!
Cursors: walks that stop after each node they find, while the forest may change.

A fresh cursor has read nothing. Its first step reads the children of the start node; every later
step first reads the children that the node found last has by then. So a change is seen exactly if
it is made before the walk reaches the place. A finished cursor stays finished and holds no node.
-/

namespace SyntaxForest

/-- Where a stepwise walk stands. -/
inductive Cursor where
  | fresh (start : NodeId)
  /-- The walk stopped at `current`; the nodes of `stack` come after everything below it. -/
  | paused (start current : NodeId) (stack : List NodeId)
  | finished
deriving DecidableEq, Repr

namespace Cursor

/-- The nodes that an unfinished walk keeps alive. -/
def held : Cursor → List NodeId
  | fresh start => [start]
  | paused start current stack => start :: current :: stack
  | finished => []

/-- Goes on from a stack to the next node that the search accepts. -/
def seek (f : Forest) (accepts : NodeId → Bool) (start : NodeId) :
    Nat → List NodeId → Option NodeId × Cursor
  | 0, _ => (none, finished)
  | _ + 1, [] => (none, finished)
  | fuel + 1, id :: rest =>
    if accepts id then (some id, paused start id rest)
    else seek f accepts start fuel (f.children id ++ rest)

/-- More steps than a walk from this stack can take: each tree on it has at most `f.size` nodes. -/
def bound (f : Forest) (stack : List NodeId) : Nat := stack.length * (f.size + 1) + 1

/-- One step: the next node found, and where the walk stands then. -/
def advance (f : Forest) (accepts : NodeId → Bool) : Cursor → Option NodeId × Cursor
  | fresh start =>
    let stack := f.children start
    seek f accepts start (bound f stack) stack
  | paused start current stack =>
    let stack := f.children current ++ stack
    seek f accepts start (bound f stack) stack
  | finished => (none, finished)

/-- Up to `count` steps: the nodes found, whether the walk ended, and where it stands then. -/
def collect (f : Forest) (accepts : NodeId → Bool) : Nat → Cursor → List NodeId × Bool × Cursor
  | 0, cursor => ([], false, cursor)
  | count + 1, cursor =>
    match cursor.advance f accepts with
    | (some id, next) =>
      let (ids, ended, last) := collect f accepts count next
      (id :: ids, ended, last)
    | (none, next) => ([], true, next)

end Cursor

end SyntaxForest
