import SyntaxForest.Data.Lookup

/-!
Native trees: what a scanner for some grammar returns.

A native node gives its kind, the bytes it covers and four marks. A child can be marked as the name
of its parent; if several are, the first one counts. A listing of rows names at most one child of a
node, the last one whose row says so.
-/

namespace SyntaxForest

/-- What the scanner says about one node. -/
structure NativeInfo where
  kind : String
  startByte : Int
  stopByte : Int
  isNamed : Bool := false
  isError : Bool := false
  isMissing : Bool := false
  hasError : Bool := false
deriving DecidableEq, Repr

/-- A tree as the scanner returns it; `isName` marks the name of the parent. -/
inductive NativeTree where
  | node (info : NativeInfo) (isName : Bool) (children : List NativeTree)

namespace NativeTree

def info : NativeTree → NativeInfo
  | node info _ _ => info

def isName : NativeTree → Bool
  | node _ isName _ => isName

def children : NativeTree → List NativeTree
  | node _ _ children => children

/-- The child that is the node's name. -/
def nameOf? (children : List NativeTree) : Option NativeTree := children.find? isName

mutual

/-- The number of nodes of a native tree. -/
def size : NativeTree → Nat
  | node _ _ children => 1 + sizeAll children

def sizeAll : List NativeTree → Nat
  | [] => 0
  | n :: rest => size n + sizeAll rest

end

/-- One line of a listing: a node and the place of its parent among the lines before it. -/
structure Row where
  parent : Option Int
  info : NativeInfo
  isName : Bool := false

/-- Hangs the last row under its parent; `pending` holds the finished children of every row. Later
rows have been seen already, and a name among them stays the only one. -/
def attach (pending : Array (List NativeTree)) (position : Nat) (row : Row) :
    Array (List NativeTree) :=
  match row.parent.bind fun place => (Lookup.position position place).toOption with
  | some p => pending.modify p fun siblings =>
    node row.info (row.isName && !siblings.any isName) (pending.getD position []) :: siblings
  | none => pending

/-- The tree that a listing describes; the first row is its root. -/
def ofRows? (rows : List Row) : Option NativeTree :=
  match rows with
  | [] => none
  | root :: _ =>
    let numbered := rows.zipIdx.drop 1
    let pending := numbered.foldr (fun entry acc => attach acc entry.2 entry.1)
      (Array.replicate rows.length [])
    some (node root.info root.isName (pending.getD 0 []))

end NativeTree

/-- What asking the scanner comes to. -/
inductive NativeReply where
  | tree (root : Option NativeTree)
  | raises (fault : Fault)

end SyntaxForest
