import SyntaxForest.Schema.Scalar
import SyntaxForest.Text.CaseFold

/-!
Structural metrics of a syntax tree.

Nodes are counted per kind without regard to letter case: kinds with one folded form share a
counter, which stands under the spelling that was seen first.
-/

namespace SyntaxForest

open Schema

/-- A snapshot of a tree's size and shape. -/
structure TreeMetrics where
  totalNodes : Int := 0
  maxDepth : Int := 0
  errorCount : Int := 0
  kindCounts : Assoc String Int := []
  sourceLength : Int := 0
  lineCount : Int := 0

namespace TreeMetrics

/-- The counter of a kind under a folding of its spelling. -/
def countFor (fold : String → String) (metrics : TreeMetrics) (kind : String) : Int :=
  ((metrics.kindCounts.find? fun entry => fold entry.1 = fold kind).map (·.2)).getD 0

def recordName : String := "SyntaxTreeMetrics"

/-- The metrics that a record describes. -/
def make (fields : Assoc String Datum) : Except Fault TreeMetrics :=
  Checked.orFault recordName
    (TreeMetrics.mk <$> defaulted fields "total_nodes" 0 integer
      <*> defaulted fields "max_depth" 0 integer
      <*> defaulted fields "error_count" 0 integer
      <*> defaulted fields "node_type_counts" [] (tableOf integer)
      <*> defaulted fields "source_length" 0 integer
      <*> defaulted fields "line_count" 0 integer)

/-- The metrics as plain data. -/
def toDatum (m : TreeMetrics) : Datum :=
  .record [("total_nodes", .int m.totalNodes), ("max_depth", .int m.maxDepth),
    ("error_count", .int m.errorCount), ("node_type_counts", .pairsOf .int m.kindCounts),
    ("source_length", .int m.sourceLength), ("line_count", .int m.lineCount)]

end TreeMetrics

end SyntaxForest
