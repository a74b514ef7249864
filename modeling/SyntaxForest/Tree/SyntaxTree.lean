import SyntaxForest.Source.Position
import SyntaxForest.Tree.Census
import SyntaxForest.Tree.Diagnostic
import SyntaxForest.Tree.Metrics
import SyntaxForest.Text.Slice

/-!
Syntax trees: a finished tree together with the source text it was made from.

Making a syntax tree freezes its nodes. From then on it answers questions and nothing else: which
nodes it has, which node is at a place, what text a node covers, what is wrong with the source, and
how large the tree is. No question fails on a place outside the text.
-/

namespace SyntaxForest

/-- A parsed source text. -/
structure SyntaxTree where
  /-- The forest that holds the tree's nodes, all of them frozen. -/
  nodes : Forest
  root : SyntaxNode
  source : String
  language : String
  file : Option String := none
  /-- A tree can come with a reason why its declarations cannot be described. -/
  refusal : Option Fault := none

/-- What a syntax tree cannot be made without. -/
inductive TreeError where
  | rootRequired
  | sourceRequired
  | languageRequired
  | nodeRequired
deriving DecidableEq, Repr

namespace TreeError

def message : TreeError → String
  | rootRequired => "root is required"
  | sourceRequired => "source_text is required"
  | languageRequired => "language is required"
  | nodeRequired => "node is required"

def fault (e : TreeError) : Fault := .badValue e.message

end TreeError

namespace SyntaxTree

/-- Freezes the tree below `root` and joins it to its source. -/
def make (nodes : Forest) (root : Option NodeId) (source : Option String)
    (language : Option String) (file : Option String) : Except TreeError SyntaxTree :=
  match root with
  | none => .error .rootRequired
  | some id =>
    match source with
    | none => .error .sourceRequired
    | some source =>
      match language with
      | none => .error .languageRequired
      | some language =>
        if language = "" then .error .languageRequired
        else
          let frozen := nodes.freeze id
          match frozen.view? id with
          | some root => .ok { nodes := frozen, root, source, language, file }
          | none => .error .rootRequired

/-! ### Traversal -/

/-- The root and all nodes below it, in document order. -/
def allNodes (t : SyntaxTree) : List SyntaxNode := t.root.preorder

/-- The nodes of a category. -/
def nodesIn (t : SyntaxTree) (category : String) : List SyntaxNode :=
  t.allNodes.filter (·.info.belongsTo category)

/-- The nodes whose kind counts as `kind`, where `fold` says which kinds count as one. -/
def nodesOfKindBy (fold : String → String) (t : SyntaxTree) (kind : String) : List SyntaxNode :=
  t.allNodes.filter fun n => fold n.kind = fold kind

/-- The nodes whose kind agrees with `kind` up to letter case. -/
def nodesOfKind (t : SyntaxTree) (kind : String) : List SyntaxNode :=
  t.nodesOfKindBy Text.caseFold kind

/-! ### Places -/

def lineIndex (t : SyntaxTree) : LineIndex := LineIndex.ofText t.source

/-- The innermost node at an offset, if the offset is in the text and the root covers it. -/
def nodeAt? (t : SyntaxTree) (offset : Int) : Option SyntaxNode :=
  if offset < 0 || Int.ofNat t.source.length ≤ offset then none
  else if t.root.covers offset then some (t.root.innermost offset)
  else none

/-- The innermost node at a line and column. -/
def nodeAtLine? (t : SyntaxTree) (line column : Int) : Option SyntaxNode :=
  (t.lineIndex.offset? line column).bind fun offset => t.nodeAt? (Int.ofNat offset)

/-- The innermost node at a position that is given as plain data. -/
def nodeAtGiven (t : SyntaxTree) (position : Datum) : Except Fault (Option SyntaxNode) :=
  (Number.ofDatum position).map fun x => x.floor?.bind t.nodeAt?

/-- The innermost node at a line and column that are given as plain data. -/
def nodeAtLineGiven (t : SyntaxTree) (line column : Datum) : Except Fault (Option SyntaxNode) :=
  (t.lineIndex.offsetGiven line column).map fun x => (x.bind Number.floor?).bind t.nodeAt?

/-- The text that a span covers, empty if the span does not fit the source. -/
def textOf (t : SyntaxTree) (span : Option Span) : String :=
  match span with
  | none => ""
  | some s =>
    if s.start < s.stop && s.stop ≤ t.source.length then
      Text.slice t.source s.start s.stop
    else ""

/-- The text of a node, which has to be given. -/
def nodeText (t : SyntaxTree) (node : Option SyntaxNode) : Except TreeError String :=
  match node with
  | some n => .ok (t.textOf n.span)
  | none => .error .nodeRequired

/-! ### Diagnostics and metrics -/

/-- One diagnostic per failed node, in document order. -/
def errors (t : SyntaxTree) : List Diagnostic :=
  (t.allNodes.filter (·.info.isError)).map fun n =>
    { message := "Syntax error", code := some n.kind, span := n.span, file := t.file }

def hasErrors (t : SyntaxTree) : Bool := !t.errors.isEmpty

/-- The metrics of the tree, where `fold` says which kinds count as one. -/
def metricsBy (fold : String → String) (t : SyntaxTree) : TreeMetrics :=
  let census := Census.walk fold {} [(0, t.root)]
  { totalNodes := census.total
    maxDepth := census.deepest
    errorCount := t.errors.length
    kindCounts := census.counts
    sourceLength := t.source.length
    lineCount := t.source.toList.count '\n' + 1 }

/-- The metrics of the tree; kinds that differ in letter case count as one. -/
def metrics (t : SyntaxTree) : TreeMetrics := t.metricsBy Text.caseFold

/-- The tree in a line. -/
def shown (t : SyntaxTree) : String :=
  "SyntaxTree(language=" ++ Text.quoted t.language ++ ", file_path="
    ++ (Datum.ofText? t.file).quoted ++ s!", errors={t.errors.length})"

end SyntaxTree

end SyntaxForest
