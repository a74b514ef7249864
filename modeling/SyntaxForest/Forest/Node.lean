import SyntaxForest.Fault
import SyntaxForest.Source.Span
import SyntaxForest.Text.CaseFold

/-!
Nodes of a forest.

A node says what stood at a place of a source text: its grammatical kind, the name it declares, the
span it covers, the text captured there, and whether the grammar failed to match it or had to make
it up. Nodes are known by their `NodeId`, and name their parent and their children by id.
-/

namespace SyntaxForest

/-- The identity of a node in its forest. -/
abbrev NodeId := Nat

/-- The category every node belongs to. -/
def baseCategory : String := "AstNode"

/-- What a node says about its place in the source text. -/
structure NodeInfo where
  kind : String
  name : Option String := none
  span : Option Span := none
  text : Option String := none
  isError : Bool := false
  isMissing : Bool := false
  metadata : Assoc String Datum := []
  /-- The categories the node belongs to, the narrowest first. -/
  categories : List String := [baseCategory]

namespace NodeInfo

/-- Two names match when they are both absent, or equal up to letter case. -/
def namesMatch (left right : Option String) : Bool :=
  match left, right with
  | some a, some b => Text.caseFold a = Text.caseFold b
  | none, none => true
  | _, _ => false

def belongsTo (info : NodeInfo) (category : String) : Bool := info.categories.contains category

/-- A name with at least one character. -/
def isNamed (info : NodeInfo) : Bool := info.name.any (· != "")

/-- The node in a line: its kind, its name in brackets, its text between quotes. -/
def shown (info : NodeInfo) : String :=
  let part (opening closing : String) (value : Option String) : String :=
    match value with
    | some s => if s = "" then "" else opening ++ s ++ closing
    | none => ""
  info.kind ++ part " (" ")" info.name ++ part " '" "'" info.text

/-- The node with the values it was made from. -/
def described (info : NodeInfo) : String :=
  let name := (Datum.ofText? info.name).quoted
  let span := (info.span.map Span.shown).getD "None"
  "AstNode(node_type=" ++ Text.quoted info.kind ++ ", name=" ++ name ++ ", location=" ++ span ++ ")"

end NodeInfo

/-- A node with its place in the forest. -/
structure Node extends NodeInfo where
  frozen : Bool := false
  parent : Option NodeId := none
  children : List NodeId := []

/-- Why a node refuses an operation. -/
inductive NodeError where
  | kindRequired
  | childRequired
  | childrenRequired
  | keyRequired
  | visitorRequired
  /-- The node, of this kind, can no longer change. -/
  | readOnly (kind : String)
  /-- The child, of the first kind, has a parent, of the second. -/
  | attached (kind parentKind : String)
  | cycle
  /-- No such node is in the forest. -/
  | absent
deriving DecidableEq, Repr

namespace NodeError

def message : NodeError → String
  | kindRequired => "node_type is required"
  | childRequired => "child is required"
  | childrenRequired => "children is required"
  | keyRequired => "metadata key is required"
  | visitorRequired => "visitor is required"
  | readOnly kind => "AST node '" ++ kind ++ "' is read-only"
  | attached kind parentKind => "Node '" ++ kind ++ "' already belongs to '" ++ parentKind ++ "'"
  | cycle => "Adding this child would create a cycle"
  | absent => "no such node"

/-- The fault under which the refusal is reported. -/
def fault (e : NodeError) : Fault :=
  match e with
  | readOnly _ => .ofText .runtime e.message
  | _ => .badValue e.message

end NodeError

end SyntaxForest
