import SyntaxForest.Declaration.Converter

/-!
Declarations read from linked nodes.

The nodes of a forest know their parents and their children, and declarations are read by going from
node to node. A search goes down, with the nodes that it has still to visit on a stack. A namespace
without a body of its own goes up to its parent, looks for itself among the children there, and
takes the ones after it.

Links can be such that a node is not among the children of its parent, or that going on never ends.
So a reading may fail, and it has a limit: a search visits at most that many nodes, and what is
nested in a declaration is read with a smaller limit.
-/

namespace SyntaxForest

/-- Why nothing can be read from linked nodes. -/
inductive LinkError where
  /-- The node is not in the forest. -/
  | missing (node : NodeId)
  /-- The node is not among the children of its parent. -/
  | stray (node : NodeId)
  /-- There is more to visit than the limit admits. -/
  | overLimit
deriving DecidableEq, Repr

/-- What reading linked nodes comes to. -/
abbrev Reading := Except LinkError

namespace Forest

/-- The node has a kind that passes the test. -/
def isOf (f : Forest) (test : String → Bool) (id : NodeId) : Bool :=
  (f.get? id).any fun node => test node.kind

/-- The node with all that is below it. -/
def read (f : Forest) (id : NodeId) : Reading SyntaxNode :=
  match f.view? id with
  | some n => return n
  | none => throw (.missing id)

/-- The nearest accepted nodes among those on the stack and below them, in document order. The
children of a node that is neither left out nor accepted, and that closes no scope, go on top of the
stack. -/
def nearest (f : Forest) (accept closed : NodeId → Bool) (skip : List NodeId) :
    (limit : Nat) → (stack : List NodeId) → Reading (List NodeId)
  | _, [] => return []
  | 0, _ :: _ => throw .overLimit
  | limit + 1, id :: rest =>
    if skip.contains id then f.nearest accept closed skip limit rest
    else if accept id then do
      let found ← f.nearest accept closed skip limit rest
      return id :: found
    else if closed id then f.nearest accept closed skip limit rest
    else f.nearest accept closed skip limit (f.children id ++ rest)

end Forest

namespace Converter

/-- The nearest accepted nodes among some nodes and below them, where declaration scopes are not
searched. -/
def collect (c : Converter) (f : Forest) (accept : NodeId → Bool) (skip : List NodeId) (limit : Nat)
    (nodes : List NodeId) : Reading (List NodeId) :=
  f.nearest accept (f.isOf c.classifier.isScope) skip limit nodes

/-- The siblings that belong to a namespace without a body of its own, as its parent has them. -/
def readFollowers (c : Converter) (f : Forest) (id : NodeId) : Reading (List NodeId) :=
  match f.parent? id with
  | none => return []
  | some p =>
    if f.isOf c.classifier.isFileScoped id then
      match (f.children p).idxOf? id with
      | some place => return (f.children p).drop (place + 1)
      | none => throw (.stray id)
    else return []

/-- The nearest declarations in a namespace. -/
def readWithin (c : Converter) (f : Forest) (accept : Classifier → String → Bool) (limit : Nat)
    (id : NodeId) : Reading (List NodeId) := do
  let followers ← c.readFollowers f id
  c.collect f (f.isOf (accept c.classifier)) [] limit (f.children id ++ followers)

/-- The nearest members of a type. -/
def readMembers (c : Converter) (f : Forest) (limit : Nat) (id : NodeId) : Reading (List NodeId) :=
  c.collect f (f.isOf c.classifier.isMember) [] limit (f.children id)

/-- What each of some nodes declares. -/
def readEach {α : Type} (t : SyntaxTree) (decl : SyntaxNode → α) (ids : List NodeId) :
    Reading (List α) := do
  let nodes ← ids.mapM t.nodes.read
  return nodes.map decl

def readInterface (c : Converter) (t : SyntaxTree) (limit : Nat) (id : NodeId) :
    Reading InterfaceDecl := do
  let n ← t.nodes.read id
  let members ← c.readMembers t.nodes limit id
  let methods ← readEach t (c.method t) (members.filter (t.nodes.isOf c.classifier.isCallable))
  let properties ← readEach t (property t) (members.filter (t.nodes.isOf c.classifier.isProperty))
  return { node := id, name := nameOr t n "UnknownInterface", span := n.span, methods, properties }

/-- A class with everything declared inside it. -/
def readClass (c : Converter) (t : SyntaxTree) : (limit : Nat) → NodeId → Reading ClassDecl
  | 0, _ => throw .overLimit
  | limit + 1, id => do
    let n ← t.nodes.read id
    let members ← c.readMembers t.nodes limit id
    let methods ← readEach t (c.method t) (members.filter (t.nodes.isOf c.classifier.isCallable))
    let properties ← readEach t (property t) (members.filter (t.nodes.isOf c.classifier.isProperty))
    let fields ← readEach t (field t) (members.filter (t.nodes.isOf c.classifier.isField))
    let classes ← (members.filter (t.nodes.isOf c.classifier.isClass)).mapM (c.readClass t limit)
    let interfaces ← (members.filter (t.nodes.isOf c.classifier.isInterface)).mapM
        (c.readInterface t limit)
    return { node := id, name := nameOr t n "UnknownClass", kind := n.kind, span := n.span,
             methods, properties, fields, classes, interfaces }

/-- A namespace with the types and namespaces declared inside it. -/
def readNamespace (c : Converter) (t : SyntaxTree) : (limit : Nat) → NodeId → Reading NamespaceDecl
  | 0, _ => throw .overLimit
  | limit + 1, id => do
    let n ← t.nodes.read id
    let classes ← (← c.readWithin t.nodes Classifier.isClass limit id).mapM (c.readClass t limit)
    let interfaces ← (← c.readWithin t.nodes Classifier.isInterface limit id).mapM
        (c.readInterface t limit)
    let namespaces ← (← c.readWithin t.nodes Classifier.isNamespace limit id).mapM
        (c.readNamespace t limit)
    return {
      node := id, name := nameOr t n "UnknownNamespace", span := n.span
      classes, interfaces, namespaces }

/-! ### The unit -/

/-- The nearest declarations below a node, those left out that some namespace has claimed. -/
def readUnclaimed (c : Converter) (f : Forest) (claimed : List NodeId)
    (accept : Classifier → String → Bool) (limit : Nat) (id : NodeId) : Reading (List NodeId) :=
  c.collect f (f.isOf (accept c.classifier)) claimed limit (f.children id)

/-- The nodes that belong to the namespaces before them. -/
def readClaimed (c : Converter) (f : Forest) (limit : Nat) (id : NodeId) :
    Reading (List NodeId) := do
  let spaces ← c.readUnclaimed f [] Classifier.isNamespace limit id
  let followers ← spaces.mapM (c.readFollowers f)
  return followers.flatten

/-- What a source file declares. -/
def readUnit (c : Converter) (t : SyntaxTree) (limit : Nat) : Reading UnitDecl := do
  let root := t.root.id
  let claimed ← c.readClaimed t.nodes limit root
  let imports ← readEach t (fun n => Text.trim ((textOf t n).getD ""))
    (← c.readUnclaimed t.nodes [] Classifier.isImport limit root)
  let namespaces ← (← c.readUnclaimed t.nodes claimed Classifier.isNamespace limit root).mapM
      (c.readNamespace t limit)
  let classes ← (← c.readUnclaimed t.nodes claimed Classifier.isClass limit root).mapM
      (c.readClass t limit)
  let interfaces ← (← c.readUnclaimed t.nodes claimed Classifier.isInterface limit root).mapM
      (c.readInterface t limit)
  let functions ← readEach t (c.method t)
      (← c.readUnclaimed t.nodes claimed Classifier.isFunction limit root)
  return {
    name := t.file, language := c.language, span := t.root.span, imports := imports.filter (· ≠ ""),
           namespaces, classes, interfaces, functions }

end Converter

end SyntaxForest
