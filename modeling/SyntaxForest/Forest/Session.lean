import SyntaxForest.Forest.Cursor
import SyntaxForest.Forest.Planting
import SyntaxForest.Forest.Sweep
import SyntaxForest.Tree.SyntaxNode

/-!
Sessions: a forest that is grown, changed and searched step by step, with its nodes known by labels.

A label holds the node it was given to. The nodes that neither a label nor an unfinished walk holds
are forgotten with the step that lets go of them. A node keeps its label as its name in answers
after the label was taken back.

What is set on a node may be any value. The forest holds what it counts as, a flag or a text, and
the session holds the value itself, for showing it.
-/

namespace SyntaxForest

/-- What can be computed by going through the tree below a node. -/
inductive Visitor where
  /-- The kinds of the nodes in document order. -/
  | kinds
  /-- The number of levels. -/
  | height
deriving DecidableEq, Repr

/-- What can be set on a node to any value. -/
inductive Mark where
  | text
  | error
  | missing
deriving DecidableEq, Repr

/-- One step of a session. Nodes are given by label. -/
inductive Action where
  | create (label : String) (seed : Seed)
  | addChild (node : String) (child : Option String)
  | addChildren (node : String) (children : Option (List (Option String)))
  | removeChild (node : String) (child : Option String)
  | setText (node : String) (value : Datum)
  | setError (node : String) (value : Datum)
  | setMissing (node : String) (value : Datum)
  | setMetadata (node : String) (key : Option String) (value : Datum)
  | getMetadata (node : String) (key : Option String) (default : Datum)
  | overwriteMetadata (node : String)
  | freeze (node : String)
  | findChild (node : String) (which : Forest.Selection)
  | childrenWhere (node : String) (which : Forest.Selection)
  | descendantsWhere (node : String) (which : Forest.Selection)
  | findDescendant (node : String) (which : Forest.Selection)
  | path (node : String)
  | depth (node : String)
  | accept (node : String) (visitor : Option Visitor)
  | shown (node : String)
  | described (node : String)
  | parent (node : String)
  | inspect (node : String)
  | walk (cursor : String) (node : String) (which : Forest.Selection)
  | advance (cursor : String) (count : Nat)
  | release (node : String)

/-- What a step answers. -/
inductive Reply where
  | done
  | flag (value : Bool)
  | number (value : Nat)
  | text (value : String)
  | texts (values : List String)
  | value (value : Datum)
  | node (id : Option NodeId)
  | nodes (ids : List NodeId)
  /-- The nodes a walk found, and whether it ended. -/
  | found (ids : List NodeId) (ended : Bool)
  | created (node : Node)
  | inspected (id : NodeId) (node : Node)

/-- A forest with labelled nodes and running walks. -/
structure Session where
  forest : Forest := {}
  /-- The label each node was created under, by id. -/
  labels : Array String := #[]
  holders : Assoc String NodeId := []
  cursors : Assoc String (Forest.Selection × Cursor) := []
  /-- The values that were set on nodes. -/
  marks : Assoc (NodeId × Mark) Datum := []

namespace Session

/-- The label a node is answered by. -/
def labelOf (s : Session) (id : NodeId) : String := s.labels.getD id ""

/-- What a mark of a node shows: the value that was set, or what it was made with. -/
def markOf (s : Session) (id : NodeId) (node : Node) (mark : Mark) : Datum :=
  match s.marks.get? (id, mark), mark with
  | some value, _ => value
  | none, .text => .ofText? node.text
  | none, .error => .bool node.isError
  | none, .missing => .bool node.isMissing

/-- The nodes that labels and unfinished walks hold. -/
def held (s : Session) : List NodeId :=
  s.holders.values ++ s.cursors.values.flatMap fun entry => entry.2.held

/-- Forgets the nodes that nobody holds. -/
def settle (s : Session) : Session := { s with forest := s.forest.sweep s.held }

/-- The node under a label. -/
def find (s : Session) (label : String) : Except Fault NodeId :=
  match s.holders.get? label with
  | some id => .ok id
  | none => .error (.badKey label)

/-- The text that a value counts as; a value that is not given counts as none. -/
def textOf : Datum → Option String
  | .text s => some s
  | d => if d.isGiven then some d.shown else none

/-- Creates a node and gives it a label. -/
def create (s : Session) (label : String) (seed : Seed) : Except Fault (Session × Reply) := do
  let (forest, id) ← s.forest.plant seed
  let node := (forest.get? id).getD { kind := seed.kind }
  return ({ s with forest, labels := s.labels.push label, holders := s.holders.set label id },
    .created node)

/-- What a visitor computes from the tree below a node. -/
def visit (s : Session) (id : NodeId) : Visitor → Reply
  | .kinds => .texts (((s.forest.view? id).map (·.preorder)).getD [] |>.map (·.kind))
  | .height => .number ((s.forest.view? id).map (·.height) |>.getD 0)

/-- The value of a function of the labelled node. -/
def ask (s : Session) (label : String) (answer : NodeId → Node → Reply) :
    Except Fault (Session × Reply) := do
  let id ← s.find label
  match s.forest.get? id with
  | some node => return (s, answer id node)
  | none => throw (NodeError.fault .absent)

/-! ### Requests -/

/-- The request that an action makes of a node, with the nodes that its labels stand for. -/
def request? (s : Session) : Action → Option (Except Fault (NodeId × Forest.Request))
  | .addChild node child => some do
    return (← s.find node, .addChild (← child.mapM s.find))
  | .addChildren node children => some do
    return (← s.find node,
      .addChildren (← children.mapM fun labels => labels.mapM fun label => label.mapM s.find))
  | .removeChild node child => some do
    return (← s.find node, .removeChild (← child.mapM s.find))
  | .setText node value => some do
    return (← s.find node, .setText (textOf value))
  | .setError node value => some do
    return (← s.find node, .setError value.isGiven)
  | .setMissing node value => some do
    return (← s.find node, .setMissing value.isGiven)
  | .setMetadata node key value => some do
    return (← s.find node, .setMetadata key value)
  | _ => none

/-- The session with the value that an action set a mark to. -/
def withMark (s : Session) (id : NodeId) : Action → Session
  | .setText _ value => { s with marks := s.marks.set (id, .text) value }
  | .setError _ value => { s with marks := s.marks.set (id, .error) value }
  | .setMissing _ value => { s with marks := s.marks.set (id, .missing) value }
  | _ => s

/-- Makes the request of an action. The forest is as the request leaves it, also if it is
refused. -/
def submit (s : Session) (action : Action) (id : NodeId) (request : Forest.Request) :
    Session × Except Fault Reply :=
  match (request.change id).run s.forest with
  | .ok answer forest => ({ s with forest }.withMark id action, .ok ((answer.map .flag).getD .done))
  | .error e forest => ({ s with forest }, .error e.fault)

/-! ### Steps -/

/-- Performs a step other than a request. -/
def perform (s : Session) : Action → Except Fault (Session × Reply)
  | .create label seed => s.create label seed
  | .getMetadata node key default =>
    s.ask node fun _ n => .value ((key.bind (Assoc.get? n.metadata)).getD default)
  | .overwriteMetadata node => do
    let _ ← s.find node
    throw (.badType "metadata is a read-only view")
  | .freeze node => do
    let id ← s.find node
    return ({ s with forest := s.forest.freeze id }, .done)
  | .findChild node which =>
    s.ask node fun id _ => .node (s.forest.findChild? id (s.forest.selects which))
  | .childrenWhere node which =>
    s.ask node fun id _ => .nodes (s.forest.childrenWhere id (s.forest.selects which))
  | .descendantsWhere node which =>
    s.ask node fun id _ => .nodes (s.forest.descendantsWhere id (s.forest.selects which))
  | .findDescendant node which =>
    s.ask node fun id _ => .node (s.forest.findDescendant? id (s.forest.selects which))
  | .path node => s.ask node fun id _ => .nodes (s.forest.path id)
  | .depth node => s.ask node fun id _ => .number (s.forest.depth id)
  | .accept node none => do
    let _ ← s.find node
    throw (NodeError.fault .visitorRequired)
  | .accept node (some visitor) => s.ask node fun id _ => s.visit id visitor
  | .shown node => s.ask node fun _ n => .text n.shown
  | .described node => s.ask node fun _ n => .text n.described
  | .parent node => s.ask node fun _ n => .node n.parent
  | .inspect node => s.ask node .inspected
  | .walk cursor node which => do
    let id ← s.find node
    return ({ s with cursors := s.cursors.set cursor (which, .fresh id) }, .done)
  | .advance cursor count =>
    match s.cursors.get? cursor with
    | none => throw (.badKey cursor)
    | some (which, c) =>
      let (ids, ended, last) := c.collect s.forest (s.forest.selects which) count
      return ({ s with cursors := s.cursors.set cursor (which, last) }, .found ids ended)
  | .release node => do
    let _ ← s.find node
    return ({ s with holders := s.holders.erase node }, .flag false)
  | _ => return (s, .done)

/-- After such a step a node may be held no more that was held before: a label or a walk lets go of
it, or its parent does. -/
def letsGo (s : Session) : Action → Bool
  | .create label _ => s.holders.contains label
  | .removeChild .. | .walk .. | .advance .. | .release .. => true
  | _ => false

/-- What an action comes to: a request, or a step that changes nothing when it fails. -/
def attempt (s : Session) (action : Action) : Session × Except Fault Reply :=
  match s.request? action with
  | some (.ok (id, request)) => s.submit action id request
  | some (.error e) => (s, .error e)
  | none =>
    match s.perform action with
    | .ok (after, reply) => (after, .ok reply)
    | .error e => (s, .error e)

/-- Performs one step, and forgets the nodes that nobody holds any more. -/
def step (s : Session) (action : Action) : Session × Except Fault Reply :=
  let (after, reply) := s.attempt action
  (if s.letsGo action then after.settle else after, reply)

end Session

end SyntaxForest
