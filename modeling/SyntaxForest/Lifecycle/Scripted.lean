import SyntaxForest.Forest.Planting
import SyntaxForest.Lifecycle.Engine
import SyntaxForest.Text.Blank

/-!
Scripted engines: engines without a grammar, for trying out how parsers behave.

A script says where loads and parses wait, how they fail, and which nodes a parse gives. Without
nodes, a parse gives one node per line of the text, and a line with nothing but a question mark is
an error.
-/

namespace SyntaxForest

/-- What a scripted engine does. -/
structure Script where
  loadGate : Bool := false
  loadFault : Option Fault := none
  parseGate : Bool := false
  parseFault : Option Fault := none
  nodes : Option (List Seed) := none

namespace Script

/-- The fields of a span that has only its offsets. -/
def offsets (start stop : Nat) : Assoc String Datum :=
  [("start_offset", .nat start), ("end_offset", .nat stop)]

/-- One node per line, where the first line begins at `start`. -/
def lineSeeds (start : Nat) : List String → List Seed
  | [] => []
  | line :: rest =>
    let stop := start + line.length
    { kind := "statement", span := some (offsets start stop), isError := Text.trim line = "?",
      parent := some 0 } :: lineSeeds (stop + 1) rest

/-- A root over the whole text, and one node per line below it. -/
def textSeeds (source : String) : List Seed :=
  { kind := "program", span := some (offsets 0 source.length) }
    :: lineSeeds 0 (Text.pieces '\n' source)

/-- How a parse ends. -/
def parse (s : Script) (source : String) : Except Fault Forest :=
  match s.parseFault with
  | some fault => .error fault
  | none => Forest.ofSeeds (s.nodes.getD (textSeeds source))

/-- The engine that follows a script. -/
def engine (s : Script) : Engine where
  loadPause := if s.loadGate then .gate "init" else .none
  load := match s.loadFault with
    | some fault => .error fault
    | none => .ok ()
  parsePause := if s.parseGate then .gate "parse" else .none
  parse := fun _ source _ => s.parse source

/-- A tree of one node, whose declarations cannot be described. -/
def closedTree (fault : Fault) (language : String) (source file : Option String) :
    Except Fault (ParseResult SyntaxTree) :=
  match Forest.ofSeeds [{ kind := "program" }] with
  | .error e => .error e
  | .ok forest =>
    match SyntaxTree.make forest (some 0) source (some language) file with
    | .error e => .error e.fault
    | .ok tree => .ok (.ok { tree with refusal := some fault })

end Script

end SyntaxForest
