import SyntaxForest.Forest.Basic
import SyntaxForest.Native.Tree
import SyntaxForest.Source.ByteOffsets
import SyntaxForest.Source.LineIndex
import SyntaxForest.Text.Slice

/-!
Growing a forest from a native tree.

Every native node that is kept becomes a node with its span in characters, lines and columns, the
beginning of its text, and its marks. Nodes are made in document order, from a stack of native trees
that are still to be grown, and linked under the node of their parent. Native nodes that are neither
named nor failed nor made up are left out with everything below them, unless anonymous nodes are
wanted.
-/

namespace SyntaxForest

/-- How much of a native tree is kept. -/
structure GrowthSettings where
  /-- The longest text captured with a node; a longer one is cut and marked. -/
  textLimit : Int := 1000
  keepAnonymous : Bool := false

/-- A source text with what is needed to find places in it. -/
structure Scan where
  source : String
  table : Option (List Nat)
  lines : LineIndex
  settings : GrowthSettings

namespace Scan

def ofSource (settings : GrowthSettings) (source : String) : Scan :=
  { source, table := ByteOffsets.table? source.toList, lines := LineIndex.ofText source, settings }

def toChar (s : Scan) (byte : Int) : Except Fault Int := ByteOffsets.toCharSigned s.table byte

/-- The span between two character offsets, with lines and columns. -/
def span (s : Scan) (start stop : Int) : Except Fault Span :=
  (Span.between start stop (s.lines.lineColumn start) (s.lines.lineColumn stop)).orFault
    Span.recordName

/-- The text between two character offsets, cut after the limit. -/
def capture (s : Scan) (start stop : Int) : String :=
  let limit := s.settings.textLimit
  let text := Text.slice s.source start (min stop (start + limit + 1))
  if Int.ofNat text.length ≤ limit then text else Text.slice text 0 limit ++ "..."

/-- The name a native node declares: the text of the child that is its name, unless it is empty. -/
def nameOf (s : Scan) (children : List NativeTree) : Except Fault (Option String) :=
  match NativeTree.nameOf? children with
  | none => .ok none
  | some name => do
    let start ← s.toChar name.info.startByte
    let stop ← s.toChar name.info.stopByte
    let text := Text.slice s.source start stop
    return if text = "" then none else some text

/-- A native node is kept if it is named, failed or made up, or if all are. -/
def keeps (s : Scan) (info : NativeInfo) : Bool :=
  info.isNamed || info.isError || info.isMissing || s.settings.keepAnonymous

/-- What the node of a native node says. -/
def nodeInfo (s : Scan) (info : NativeInfo) (children : List NativeTree) :
    Except Fault NodeInfo := do
  let start ← s.toChar info.startByte
  let stop ← s.toChar info.stopByte
  let name ← s.nameOf children
  let span ← s.span start stop
  return {
    kind := info.kind
    name
    span := some span
    text := some (s.capture start stop)
    isError := info.isError
    isMissing := info.isMissing
    metadata := [("is_named", .bool info.isNamed), ("has_error", .bool info.hasError)] }

/-- Makes a node and links it under its parent. -/
def sprout (s : Scan) (f : Forest) (parent : Option NodeId) (info : NativeInfo)
    (children : List NativeTree) : Except Fault (Forest × NodeId) := do
  let made ← s.nodeInfo info children
  let (grown, id) ← (f.insert made).mapError NodeError.fault
  match parent with
  | none => return (grown, id)
  | some p => return (← (grown.addChild p id).mapError NodeError.fault, id)

/-- The kept ones of several native trees, each with the node that it goes under. -/
def entries (s : Scan) (parent : NodeId) (children : List NativeTree) :
    List (Option NodeId × NativeTree) :=
  (children.filter fun c => s.keeps c.info).map fun c => (some parent, c)

theorem entries_cons (s : Scan) (parent : NodeId) (c : NativeTree) (rest : List NativeTree) :
    s.entries parent (c :: rest)
      = if s.keeps c.info then (some parent, c) :: s.entries parent rest
        else s.entries parent rest := by
  rw [entries, List.filter_cons]
  split <;> rfl

/-- The number of native nodes that a stack holds. -/
def pending : List (Option NodeId × NativeTree) → Nat
  | [] => 0
  | (_, native) :: rest => native.size + pending rest

theorem pending_append (stack rest : List (Option NodeId × NativeTree)) :
    pending (stack ++ rest) = pending stack + pending rest := by
  induction stack with
  | nil => exact (Nat.zero_add _).symm
  | cons e stack ih => rw [List.cons_append, pending, pending, ih, Nat.add_assoc]

theorem pending_entries_le (s : Scan) (parent : NodeId) (children : List NativeTree) :
    pending (s.entries parent children) ≤ NativeTree.sizeAll children := by
  induction children with
  | nil => exact Nat.le_refl _
  | cons c rest ih =>
    rw [entries_cons, NativeTree.sizeAll]
    split
    · exact Nat.add_le_add_left ih _
    · exact Nat.le_trans ih (Nat.le_add_left _ _)

/-- Makes the nodes of the native trees on a stack. The kept children of a node go on top of the
stack, so that all that is below a node is made before what follows it. -/
def growStack (s : Scan) (f : Forest) : List (Option NodeId × NativeTree) → Except Fault Forest
  | [] => .ok f
  | (parent, .node info _ children) :: rest =>
    match s.sprout f parent info children with
    | .error fault => .error fault
    | .ok (grown, id) => growStack s grown (s.entries id children ++ rest)
termination_by stack => pending stack
decreasing_by
  have hentries := pending_entries_le s id children
  rw [pending_append, pending, NativeTree.size]
  omega

end Scan

namespace NativeReply

/-- The forest grown from the scanner's reply for a source text. Its root has id zero. -/
def forest (reply : NativeReply) (settings : GrowthSettings) (source : String) :
    Except Fault Forest :=
  match reply with
  | raises fault => .error fault
  | tree none => .error (.badValue "tree-sitter returned no root node")
  | tree (some root) => (Scan.ofSource settings source).growStack {} [(none, root)]

end NativeReply

end SyntaxForest
