import SyntaxForest.Yaml.Atom

/-!
Documents: the values of the nodes of a text.

A value is an atom, a list, a table, a set or a list of pairs; the parts of lists and tables are
given by their numbers, since a value can be part of several others, and of itself. Of equal names
in one table the last value counts, at the place of the first. A table can take over the entries of
others, which its own entries win over.

Collections are filled in the order in which they are met, after the collections around them; the
first fault met that way is reported.
-/

namespace SyntaxForest.Yaml

open SyntaxForest

/-- The value of a node. -/
inductive Cell where
  | atom (value : Atom)
  | list (items : List NodeRef)
  | table (entries : List (Atom × NodeRef))
  | set (members : List Atom)
  | pairs (count : Nat)

/-- The values of a document, by the numbers of their nodes, and the number of the whole. -/
structure Document where
  cells : Array (Option Cell) := #[]
  root : NodeRef := 0

namespace Document

/-- The value of a node; a node without one stands for nothing. -/
def cell (d : Document) (ref : NodeRef) : Cell := ((d.cells.getD ref none)).getD (.atom .null)

def whole (d : Document) : Cell := d.cell d.root

end Document

/-- Where making the values of nodes stands. -/
structure Making where
  nodes : Array Node
  cells : Array (Option Cell)
  /-- The collections that are not filled yet, in the order in which they were met. -/
  pending : Array NodeRef := #[]
  /-- A bound on how deep the taking over of entries can go. -/
  mergeFuel : Nat := 0

abbrev Maker := StateT Making (Except Failure)

namespace Making

def nodeOf (ref : NodeRef) : Maker Node := do
  return ((← get).nodes[ref]?).getD { tag := textTag, content := .scalar (.ofText ""), start := {} }

def store (ref : NodeRef) (cell : Cell) : Maker Unit :=
  modify fun m => { m with cells := m.cells.setIfInBounds ref (some cell) }

/-! ### Meeting a node -/

/-- The collections that tags stand for, before they are filled. -/
def emptyOf? (tag : String) : Option Cell :=
  if tag = sequenceTag then some (.list [])
  else if tag = mappingTag then some (.table [])
  else if tag = coreTag "set" then some (.set [])
  else if tag = coreTag "omap" then some (.pairs 0)
  else if tag = coreTag "pairs" then some (.pairs 0)
  else none

/-- The text of a scalar. A mapping counts as the scalar that its entry with an equals sign for a
name holds. -/
def textOf : Nat → NodeRef → Maker WideText
  | 0, _ => return .ofText ""
  | fuel + 1, ref => do
    let node ← nodeOf ref
    match node.content with
    | .scalar text => return text
    | .sequence _ => throw (.plain "expected a scalar node, but found sequence" node.start)
    | .mapping entries =>
      let nodes := (← get).nodes
      match entries.find? fun entry => (nodes[entry.1]?.map (·.tag)) = some valueTag with
      | some (_, value) => textOf fuel value
      | none => throw (.plain "expected a scalar node, but found mapping" node.start)

/-- The value of a node that is met: an atom at once, a collection empty and to be filled later. -/
def meet (ref : NodeRef) : Maker Cell := do
  let m ← get
  match m.cells.getD ref none with
  | some cell => return cell
  | none =>
    let node ← nodeOf ref
    match emptyOf? node.tag with
    | some cell =>
      store ref cell
      modify fun m => { m with pending := m.pending.push ref }
      return cell
    | none =>
      match Atom.read? node.tag ref node.start (.ofText "") with
      | none =>
        throw (.plain ("could not determine a constructor for the tag " ++ Text.quoted node.tag)
          node.start)
      | some _ =>
        let text ← textOf (m.nodes.size + 1) ref
        if node.tag = coreTag "timestamp" && !node.content.isScalar then
          throw (.fault (.badType "a date is spelled by a text"))
        match Atom.read? node.tag ref node.start text with
        | some (.ok atom) =>
          store ref (.atom atom)
          return .atom atom
        | some (.error e) => throw e
        | none => return .atom .null

/-! ### Entries taken over from other tables -/

/-- The entries of a mapping, none of other nodes. -/
def entriesOf (ref : NodeRef) : Maker (List (NodeRef × NodeRef)) := do
  match (← nodeOf ref).content with
  | .mapping entries => return entries
  | _ => return []

def setEntries (ref : NodeRef) (entries : List (NodeRef × NodeRef)) : Maker Unit :=
  modify fun m =>
    { m with nodes := m.nodes.modify ref fun node => { node with content := .mapping entries } }

/-- A name that is an equals sign is text. -/
def nameAsText (ref : NodeRef) : Maker Unit :=
  modify fun m =>
    { m with nodes := m.nodes.modify ref fun node =>
        if node.tag = valueTag then { node with tag := textTag } else node }

/-- What merging a table with something else than tables runs into. -/
def cannotMerge (start : Mark) (wanted : String) (other : Node) : Failure :=
  .within "while constructing a mapping" start
    ("expected " ++ wanted ++ " for merging, but found " ++ other.content.shown) other.start

/-- The first of the entries from number `index` on that names other tables, with its number. A name
that is passed over on the way is text if it is an equals sign. -/
def findMerge? : Nat → List (NodeRef × NodeRef) → Maker (Option (Nat × NodeRef))
  | _, [] => return none
  | index, (name, value) :: rest => do
    if (← nodeOf name).tag = mergeTag then return some (index, value)
    else
      nameAsText name
      findMerge? (index + 1) rest

mutual

/-- Replaces the entries of a mapping that name other tables by the entries of those, put in front.
Every entry that names tables is taken out once, so that their number bounds the work. -/
def flatten : Nat → NodeRef → Maker Unit
  | 0, _ => pure ()
  | fuel + 1, ref => do
    let merged ← takeMerges fuel ref 0 []
    if !merged.isEmpty then setEntries ref (merged ++ (← entriesOf ref))

/-- The entries that the mapping takes over, from its entry number `index` on. -/
def takeMerges : Nat → NodeRef → Nat → List (NodeRef × NodeRef) → Maker (List (NodeRef × NodeRef))
  | 0, _, _, acc => return acc
  | fuel + 1, ref, index, acc => do
    let entries ← entriesOf ref
    match ← findMerge? index (entries.drop index) with
    | none => return acc
    | some (found, value) =>
      setEntries ref (entries.eraseIdx found)
      let more ← mergedEntries fuel (← nodeOf ref).start value
      takeMerges fuel ref found (acc ++ more)

/-- The entries of a table, or of several of which the first wins. -/
def mergedEntries : Nat → Mark → NodeRef → Maker (List (NodeRef × NodeRef))
  | 0, _, _ => return []
  | fuel + 1, start, value => do
    let node ← nodeOf value
    match node.content with
    | .mapping _ =>
      flatten fuel value
      entriesOf value
    | .sequence items => return (← items.mapM (mergedItem fuel start)).reverse.flatten
    | .scalar _ => throw (cannotMerge start "a mapping or list of mappings" node)

/-- The entries of one table of several. -/
def mergedItem : Nat → Mark → NodeRef → Maker (List (NodeRef × NodeRef))
  | 0, _, _ => return []
  | fuel + 1, start, item => do
    let node ← nodeOf item
    match node.content with
    | .mapping _ =>
      flatten fuel item
      entriesOf item
    | _ => throw (cannotMerge start "a mapping" node)

end

/-! ### Filling collections -/

/-- Sets an entry: in place if its name is there, at the end otherwise. -/
def setEntry (name : Atom) (value : NodeRef) : List (Atom × NodeRef) → List (Atom × NodeRef)
  | [] => [(name, value)]
  | entry :: rest =>
    if entry.1.same name then (entry.1, value) :: rest else entry :: setEntry name value rest

/-- The entries of a table; only atoms can name one. -/
def fillEntries (start : Mark) :
    List (NodeRef × NodeRef) → List (Atom × NodeRef) → Maker (List (Atom × NodeRef))
  | [], acc => return acc
  | (name, value) :: rest, acc => do
    match ← meet name with
    | .atom atom =>
      let _ ← meet value
      fillEntries start rest (setEntry atom value acc)
    | _ =>
      throw (.within "while constructing a mapping" start "found unhashable key"
        (← nodeOf name).start)

/-- The entries of a mapping with those taken over. -/
def tableOf (ref : NodeRef) (node : Node) : Maker (List (Atom × NodeRef)) := do
  match node.content with
  | .mapping _ =>
    flatten (← get).mergeFuel ref
    fillEntries node.start (← entriesOf ref) []
  | other => throw (.plain ("expected a mapping node, but found " ++ other.shown) node.start)

/-- One entry each of several mappings. -/
def fillPairs (context : String) (start : Mark) : List NodeRef → Maker Unit
  | [] => return ()
  | item :: rest => do
    let node ← nodeOf item
    match node.content with
    | .mapping [(name, value)] =>
      let _ ← meet name
      let _ ← meet value
      fillPairs context start rest
    | .mapping entries =>
      throw (.within context start
        s!"expected a single mapping item, but found {entries.length} items" node.start)
    | other =>
      throw (.within context start
        ("expected a mapping of length 1, but found " ++ other.shown) node.start)

/-- A list of pairs, ordered or not. -/
def pairsOf (node : Node) : Maker Cell := do
  let context :=
    if node.tag = coreTag "omap" then "while constructing an ordered map"
    else "while constructing pairs"
  match node.content with
  | .sequence items =>
    fillPairs context node.start items
    return .pairs items.length
  | other =>
    throw (.within context node.start ("expected a sequence, but found " ++ other.shown) node.start)

/-- Fills a collection. -/
def fill (ref : NodeRef) : Maker Unit := do
  let node ← nodeOf ref
  if node.tag = sequenceTag then
    match node.content with
    | .sequence items =>
      for item in items do
        let _ ← meet item
      store ref (.list items)
    | other => throw (.plain ("expected a sequence node, but found " ++ other.shown) node.start)
  else if node.tag = mappingTag then store ref (.table (← tableOf ref node))
  else if node.tag = coreTag "set" then
    let entries ← tableOf ref node
    store ref (.set (entries.map (·.1)))
  else store ref (← pairsOf node)

/-- Fills the collections from number `i` on, and those met in doing so; each node is met once. -/
def fillAll : Nat → Nat → Maker Unit
  | 0, _ => pure ()
  | fuel + 1, i => do
    match (← get).pending[i]? with
    | none => pure ()
    | some ref =>
      fill ref
      fillAll fuel (i + 1)

/-- Makes the value of a node and of all nodes that it leads to. -/
def make (ref : NodeRef) : Maker Unit := do
  let _ ← meet ref
  fillAll ((← get).nodes.size + 1) 0

end Making

/-- How many entries the mappings among some nodes have together. -/
def entryCount (nodes : Array Node) : Nat :=
  nodes.foldl (fun count node => match node.content with
    | .mapping entries => count + entries.length
    | _ => count) 0

/-- The document that nodes describe. -/
def Document.ofNodes (nodes : Array Node) (root : NodeRef) : Except Failure Document := do
  let start : Making := {
    nodes, cells := Array.replicate nodes.size none, mergeFuel := 4 * entryCount nodes + 4 }
  let (_, made) ← (Making.make root).run start
  return { cells := made.cells, root }

/-- The document that a text holds; a text without content stands for nothing. A character that no
text may hold is what is wrong with the text as soon as its piece is looked at. -/
def read (text : String) : Except Failure Document := do
  let cs := text.toList
  let bad := firstUnacceptable? 0 cs
  let seenAt (reach : Nat) : Except Failure Unit :=
    match bad with
    | none => .ok ()
    | some (c, position) =>
      if pieceStart position ≤ reach then .error (.flaw (.unacceptable c.toNat position))
        else .ok ()
  seenAt 0
  match (Reading.document (8 * cs.length + 32)).run { stream := TokenStream.ofText cs } with
  | .error halt =>
    seenAt halt.reach
    throw halt.failure
  | .ok (root, reading) =>
    seenAt cs.length
    match root with
    | none => return {}
    | some ref => Document.ofNodes reading.nodes ref

end SyntaxForest.Yaml
