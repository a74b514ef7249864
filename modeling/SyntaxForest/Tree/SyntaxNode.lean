import SyntaxForest.Forest.Walk

/-!
Syntax nodes: a tree of the forest as a value of its own.

A `SyntaxNode` holds what its node says and the syntax nodes of its children, and still knows the
node's id. It can be taken apart by recursion, so the queries on finished trees are stated on it.
-/

namespace SyntaxForest

/-- A node with everything below it. -/
inductive SyntaxNode where
  | node (id : NodeId) (info : NodeInfo) (children : List SyntaxNode)

namespace SyntaxNode

def id : SyntaxNode → NodeId
  | node id _ _ => id

def info : SyntaxNode → NodeInfo
  | node _ info _ => info

def children : SyntaxNode → List SyntaxNode
  | node _ _ children => children

def kind (n : SyntaxNode) : String := n.info.kind

def span (n : SyntaxNode) : Option Span := n.info.span

mutual

/-- How many nodes the tree has. -/
def size : SyntaxNode → Nat
  | node _ _ children => sizeAll children + 1

def sizeAll : List SyntaxNode → Nat
  | [] => 0
  | n :: rest => size n + sizeAll rest

end

theorem sizeAll_append (nodes others : List SyntaxNode) :
    sizeAll (nodes ++ others) = sizeAll nodes + sizeAll others := by
  induction nodes with
  | nil => exact (Nat.zero_add _).symm
  | cons n rest ih => rw [List.cons_append, sizeAll, sizeAll, ih, Nat.add_assoc]

mutual

/-- The node and all below it, in document order. -/
def preorder : SyntaxNode → List SyntaxNode
  | node id info children => node id info children :: preorderAll children

def preorderAll : List SyntaxNode → List SyntaxNode
  | [] => []
  | n :: rest => preorder n ++ preorderAll rest

end

mutual

/-- The number of levels of the tree. -/
def height : SyntaxNode → Nat
  | node _ _ children => tallest children + 1

/-- The greatest height in a list of trees, zero if it is empty. -/
def tallest : List SyntaxNode → Nat
  | [] => 0
  | n :: rest => max (height n) (tallest rest)

end

mutual

/-- The nodes in document order, each with the place of its parent in that order; the root's own is
`place`. -/
def withParents (parent : Option Nat) (place : Nat) : SyntaxNode → List (Option Nat × SyntaxNode)
  | node id info children =>
    (parent, node id info children) :: withParentsAll place (place + 1) children

def withParentsAll (parent place : Nat) : List SyntaxNode → List (Option Nat × SyntaxNode)
  | [] => []
  | n :: rest => withParents (some parent) place n ++ withParentsAll parent (place + size n) rest

end

/-- The node has a span that contains the offset. -/
def covers (offset : Int) (n : SyntaxNode) : Bool := n.span.any (·.contains offset)

mutual

/-- Goes down from a node, always into the first child that covers the offset. -/
def innermost (offset : Int) : SyntaxNode → SyntaxNode
  | node id info children => (innermostOf offset children).getD (node id info children)

/-- The innermost node below the first of several nodes that covers the offset. -/
def innermostOf (offset : Int) : List SyntaxNode → Option SyntaxNode
  | [] => none
  | n :: rest => if covers offset n then some (innermost offset n) else innermostOf offset rest

end

end SyntaxNode

namespace Forest

mutual

/-- The tree below a node, at most `fuel` levels of it. -/
def viewFrom (f : Forest) : Nat → NodeId → Option SyntaxNode
  | 0, _ => none
  | fuel + 1, id =>
    match f.get? id with
    | some node => some (.node id node.toNodeInfo (viewAll f fuel node.children))
    | none => none

def viewAll (f : Forest) : Nat → List NodeId → List SyntaxNode
  | 0, _ => []
  | _ + 1, [] => []
  | fuel + 1, id :: rest =>
    match viewFrom f fuel id with
    | some n => n :: viewAll f fuel rest
    | none => viewAll f fuel rest

end

/-- The tree below a node. -/
def view? (f : Forest) (id : NodeId) : Option SyntaxNode := f.viewFrom (2 * f.size + 2) id

end Forest

end SyntaxForest
