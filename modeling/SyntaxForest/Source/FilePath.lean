import SyntaxForest.Text.Blank

/-!
Paths of files, told apart by their names and not looked up.

A path is a beginning and the names below it. Doubled slashes, single dots and a slash at the end
say nothing and are dropped. A path that begins with exactly two slashes keeps both. A path can also
begin at a place that only the program knows; no text leads there, whatever such a place is shown
as.
-/

namespace SyntaxForest

/-- Where a path begins. -/
inductive PathRoot where
  /-- The current directory. -/
  | here
  | slash
  | twoSlashes
  /-- A place of the program's own, and what it is shown as. -/
  | place (shown : String)
deriving DecidableEq, Repr

/-- A path: where it begins, and its names. -/
structure FilePath where
  root : PathRoot
  names : List String
deriving DecidableEq, Repr

namespace FilePath

/-- Where a text says that a path begins. -/
def rootOf : List Char → PathRoot
  | '/' :: '/' :: '/' :: _ => .slash
  | '/' :: '/' :: _ => .twoSlashes
  | '/' :: _ => .slash
  | _ => .here

def ofText (s : String) : FilePath :=
  { root := rootOf s.toList,
    names := (Text.pieces '/' s).filter fun name => name ≠ "" && name ≠ "." }

/-- The path of a place of the program's own. -/
def ofPlace (shown : String) : FilePath := { root := .place shown, names := [] }

/-- The path as text; an empty one is the current directory. -/
def toText (p : FilePath) : String :=
  let below := "/".intercalate p.names
  match p.root with
  | .here => if p.names.isEmpty then "." else below
  | .slash => "/" ++ below
  | .twoSlashes => "//" ++ below
  | .place shown => if p.names.isEmpty then shown else shown ++ "/" ++ below

/-- The path that a second one leads to from this one; one that begins elsewhere begins anew. -/
def join (p q : FilePath) : FilePath :=
  if q.root = .here then { p with names := p.names ++ q.names } else q

/-- The last name, empty for a root. -/
def name (p : FilePath) : String := p.names.getLastD ""

/-- The ending of a name from its last dot on. A dot at either end of the name begins none. -/
def endingOf (name : List Char) : List Char :=
  let after := name.reverse.takeWhile (· ≠ '.')
  let before := name.length - after.length - 1
  if after.isEmpty || after.length = name.length || before = 0 then []
  else '.' :: after.reverse

/-- The ending of the last name, with its dot; empty if it has none. -/
def ending (p : FilePath) : String := String.ofList (endingOf p.name.toList)

end FilePath

end SyntaxForest
