import SyntaxForest.Forest.Basic

/-!
Walks through a forest.

Descendants come in document order: a node before its children, siblings from left to right. The
walk keeps the nodes still to be visited on a stack.
-/

namespace SyntaxForest.Forest

open SyntaxForest

/-- Visits the nodes on the stack and all below them, at most `fuel` of them. -/
def visit (f : Forest) : Nat → List NodeId → List NodeId
  | 0, _ => []
  | _ + 1, [] => []
  | fuel + 1, id :: rest => id :: visit f fuel (f.children id ++ rest)

/-- All nodes below a node, in document order. -/
def descendants (f : Forest) (id : NodeId) : List NodeId := f.visit f.size (f.children id)

/-- Makes a node and everything below it read-only. -/
def freeze (f : Forest) (id : NodeId) : Forest :=
  (id :: f.descendants id).foldl (fun g n => g.modify n fun node => { node with frozen := true }) f

/-- The nodes from the root of the tree down to this node. -/
def path (f : Forest) (id : NodeId) : List NodeId := (f.lineage id).reverse

/-- How many steps up a walk can take, at most `fuel`. -/
def stepsUp (f : Forest) : Nat → NodeId → Nat
  | 0, _ => 0
  | fuel + 1, id =>
    match f.parent? id with
    | some p => stepsUp f fuel p + 1
    | none => 0

/-- How many steps up the root is. -/
def depth (f : Forest) (id : NodeId) : Nat := f.stepsUp f.size id

/-! ### Searching -/

/-- Which nodes a search accepts. -/
inductive Selection where
  | all
  | category (name : String)
  | named (name : Option String)
  | failed
  | missing
  | withName
  | leaf
  | located
deriving DecidableEq, Repr

namespace Selection

def accepts (s : Selection) (node : Node) : Bool :=
  match s with
  | all => true
  | category c => node.belongsTo c
  | named n => NodeInfo.namesMatch node.name n
  | failed => node.isError
  | missing => node.isMissing
  | withName => node.isNamed
  | leaf => node.children.isEmpty
  | located => node.span.isSome

end Selection

/-- The search accepts the node with this id. -/
def selects (f : Forest) (s : Selection) (id : NodeId) : Bool :=
  ((f.get? id).map s.accepts).getD false

/-- The first child that a search accepts. -/
def findChild? (f : Forest) (id : NodeId) (accepts : NodeId → Bool) : Option NodeId :=
  (f.children id).find? accepts

/-- The children that a search accepts. -/
def childrenWhere (f : Forest) (id : NodeId) (accepts : NodeId → Bool) : List NodeId :=
  (f.children id).filter accepts

/-- The descendants that a search accepts, in document order. -/
def descendantsWhere (f : Forest) (id : NodeId) (accepts : NodeId → Bool) : List NodeId :=
  (f.descendants id).filter accepts

/-- The first descendant that a search accepts. -/
def findDescendant? (f : Forest) (id : NodeId) (accepts : NodeId → Bool) : Option NodeId :=
  (f.descendants id).find? accepts

end SyntaxForest.Forest
