import SyntaxForest.Data.Lookup
import SyntaxForest.Forest.Node

/-!
The forest: all nodes, linked into trees.

A node holds the list of its children; each child points back to its parent. A new node stands
alone. Linking refuses a child that already has a parent and one that is the new parent or an
ancestor of it, so the links always form trees. A frozen node refuses every change.

A change goes step by step: it looks at the forest, writes to it, and may be refused at any step.
Nothing takes back what it wrote before it was refused.
-/

namespace SyntaxForest

/-- Nodes by id. A node that is gone leaves a hole, so ids are never used twice. -/
structure Forest where
  nodes : Array (Option Node) := #[]

namespace Forest

/-- The node with this id, if it is there. -/
def get? (f : Forest) (id : NodeId) : Option Node := (f.nodes[id]?).join

/-- How many ids were given out. -/
def size (f : Forest) : Nat := f.nodes.size

/-- The id at a place in the order in which ids were given out; places below zero count from the
end. -/
def idAt (f : Forest) (place : Int) : Except Fault NodeId := Lookup.position f.size place

/-- Replaces a node by a function of it. -/
def modify (f : Forest) (id : NodeId) (change : Node → Node) : Forest :=
  { nodes := f.nodes.modify id (Option.map change) }

/-- The children of a node, from left to right. -/
def children (f : Forest) (id : NodeId) : List NodeId := ((f.get? id).map (·.children)).getD []

/-- The parent of a node. -/
def parent? (f : Forest) (id : NodeId) : Option NodeId := (f.get? id).bind (·.parent)

def isFrozen (f : Forest) (id : NodeId) : Bool := ((f.get? id).map (·.frozen)).getD false

/-! ### Making nodes -/

/-- Adds a node that stands alone, under the next id. -/
def insert (f : Forest) (info : NodeInfo) : Except NodeError (Forest × NodeId) :=
  if info.kind = "" then .error .kindRequired
  else .ok ({ nodes := f.nodes.push (some { info with }) }, f.nodes.size)

/-! ### Checks -/

/-- A node that may change. -/
def mutable (f : Forest) (id : NodeId) : Except NodeError Node :=
  match f.get? id with
  | some node => if node.frozen then .error (.readOnly node.kind) else .ok node
  | none => .error .absent

/-- A node and its ancestors, the nearest first; at most `fuel` of them. -/
def lineageFrom (f : Forest) : Nat → NodeId → List NodeId
  | 0, _ => []
  | fuel + 1, id =>
    match f.parent? id with
    | some p => id :: lineageFrom f fuel p
    | none => [id]

/-- A node and its ancestors, the nearest first. -/
def lineage (f : Forest) (id : NodeId) : List NodeId := f.lineageFrom f.size id

/-- Links a child that was found fit under its parent, as the last one. -/
def link (f : Forest) (parent child : NodeId) : Forest :=
  (f.modify child fun node => { node with parent := some parent }).modify parent
    fun node => { node with children := node.children ++ [child] }

/-- The child, as long as it has no parent. -/
def unattached (f : Forest) (child : NodeId) : Except NodeError Node :=
  match f.get? child with
  | none => .error .absent
  | some node =>
    match node.parent.bind f.get? with
    | some owner => .error (.attached node.kind owner.kind)
    | none => .ok node

/-- Refuses a child that is the parent or an ancestor of it. -/
def acyclic (f : Forest) (parent child : NodeId) : Except NodeError Unit :=
  if (f.lineage parent).contains child then .error .cycle else .ok ()

/-! ### Changes -/

/-- A change of the forest, step by step. A step looks at the forest, or writes to it, or refuses to
go on; what was written before stays. -/
abbrev Change := EStateM NodeError Forest

namespace Change

/-- Goes on only with a value that is given. -/
def given {α : Type} (refusal : NodeError) : Option α → Change α
  | some a => return a
  | none => throw refusal

/-- Goes on only if the forest passes a check. -/
def check {α : Type} (test : Forest → Except NodeError α) : Change α := do
  match test (← get) with
  | .ok a => return a
  | .error e => throw e

/-- Writes to one node. -/
def write (id : NodeId) (change : Node → Node) : Change Unit :=
  modifyGet fun f => ((), f.modify id change)

/-- Changes a node, unless it is frozen. -/
def update (id : NodeId) (change : Node → Node) : Change Unit := do
  let _ ← check (·.mutable id)
  write id change

/-- Sets a metadata entry; a missing key is refused before anything else. -/
def setMetadata (id : NodeId) (key : Option String) (value : Datum) : Change Unit := do
  let key ← given .keyRequired key
  update id fun node => { node with metadata := Assoc.set node.metadata key value }

/-- Adds a child at the end. The parent must not be frozen, the child must have no parent, and must
be neither the parent nor an ancestor of it. -/
def addChild (parent : NodeId) (child : Option NodeId) : Change Unit := do
  let child ← given .childRequired child
  let _ ← check (·.mutable parent)
  let _ ← check (·.unattached child)
  check (·.acyclic parent child)
  modifyGet fun f => ((), f.link parent child)

/-- Adds children one after another, up to the first one refused. -/
def addChildren (parent : NodeId) (children : Option (List (Option NodeId))) : Change Unit := do
  let children ← given .childrenRequired children
  forM children (addChild parent)

/-- Unlinks a child; false if it is no child of the parent. -/
def removeChild (parent : NodeId) (child : Option NodeId) : Change Bool := do
  let child ← given .childRequired child
  let node ← check (·.mutable parent)
  if node.children.contains child then
    write parent fun n => { n with children := n.children.erase child }
    write child fun n => { n with parent := none }
    return true
  else return false

/-- What a change comes to, if nothing is kept of one that is refused. -/
def outcome {α : Type} (change : Change α) (f : Forest) : Except NodeError (Forest × α) :=
  match change.run f with
  | .ok a g => .ok (g, a)
  | .error e _ => .error e

end Change

/-- What a node can be asked for that may change the forest. -/
inductive Request where
  | addChild (child : Option NodeId)
  | addChildren (children : Option (List (Option NodeId)))
  | removeChild (child : Option NodeId)
  | setText (text : Option String)
  | setError (isError : Bool)
  | setMissing (isMissing : Bool)
  | setMetadata (key : Option String) (value : Datum)

/-- The change that a request makes, and what it answers, if anything. -/
def Request.change (id : NodeId) : Request → Change (Option Bool)
  | addChild child => do
    Change.addChild id child
    return none
  | addChildren children => do
    Change.addChildren id children
    return none
  | removeChild child => do
    let removed ← Change.removeChild id child
    return some removed
  | setText text => do
    Change.update id fun node => { node with text }
    return none
  | setError isError => do
    Change.update id fun node => { node with isError }
    return none
  | setMissing isMissing => do
    Change.update id fun node => { node with isMissing }
    return none
  | setMetadata key value => do
    Change.setMetadata id key value
    return none

/-! ### Changes where a refusal is the end -/

/-- The forest with a changed node. -/
def update (f : Forest) (id : NodeId) (change : Node → Node) : Except NodeError Forest :=
  ((Change.update id change).outcome f).map (·.1)

def setText (f : Forest) (id : NodeId) (text : Option String) : Except NodeError Forest :=
  f.update id fun node => { node with text }

/-- The forest with a child added. -/
def addChild (f : Forest) (parent child : NodeId) : Except NodeError Forest :=
  ((Change.addChild parent (some child)).outcome f).map (·.1)

/-- The forest with a child unlinked; false if it is no child of the parent. -/
def removeChild (f : Forest) (parent child : NodeId) : Except NodeError (Forest × Bool) :=
  (Change.removeChild parent (some child)).outcome f

end Forest

end SyntaxForest
