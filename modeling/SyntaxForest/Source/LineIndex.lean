/-!
Offsets, lines and columns of a source text.

Lines and columns are counted from one, in characters; a new line begins after every line feed. The
index holds the offset at which each line begins, and finds the line of an offset by halving.
-/

namespace SyntaxForest

/-- The offsets of the characters after a line feed, where the text begins at `offset`. -/
def startsAfterFeeds (offset : Nat) : List Char → List Nat
  | [] => []
  | c :: rest =>
    if c = '\n' then (offset + 1) :: startsAfterFeeds (offset + 1) rest
    else startsAfterFeeds (offset + 1) rest

/-- How many entries of a growing table come before the first one that is past the mark: those
before `low` are known to come before it, and those from `high` on not to. -/
def bisect (table : Array Nat) (isPast : Nat → Bool) (low high : Nat) : Nat :=
  if low < high then
    let middle := (low + high) / 2
    if isPast (table.getD middle 0) then bisect table isPast low middle
    else bisect table isPast (middle + 1) high
  else low
termination_by high - low

/-- Where the lines of a text begin, and how long the text is. -/
structure LineIndex where
  length : Nat
  starts : Array Nat

namespace LineIndex

def ofChars (cs : List Char) : LineIndex :=
  { length := cs.length, starts := (0 :: startsAfterFeeds 0 cs).toArray }

/-- The line index of a text. -/
def ofText (text : String) : LineIndex := ofChars text.toList

def lineCount (index : LineIndex) : Nat := index.starts.size

/-- The number of the last line that does not begin past the mark. -/
def lineUpTo (index : LineIndex) (isPast : Nat → Bool) : Nat :=
  bisect index.starts isPast 0 index.lineCount

/-- Where a line begins. -/
def lineStart (index : LineIndex) (line : Nat) : Nat := index.starts.getD (line - 1) 0

/-- The line and column of an offset; one that is not in the text counts as its beginning. -/
def lineColumn (index : LineIndex) (offset : Int) : Nat × Nat :=
  if offset < 0 || Int.ofNat index.length < offset then (1, 1)
  else
    let line := index.lineUpTo (offset.toNat < ·)
    (line, offset.toNat - index.lineStart line + 1)

/-- The offset of the character at a line and column, if there is one. -/
def offset? (index : LineIndex) (line column : Int) : Option Nat :=
  if line < 1 || column < 1 then none
  else
    match index.starts[line.toNat - 1]? with
    | none => none
    | some start =>
      let offset := start + column.toNat - 1
      if offset < index.starts.getD line.toNat index.length then some offset else none

end LineIndex

end SyntaxForest
