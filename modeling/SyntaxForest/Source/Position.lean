import SyntaxForest.Data.Number
import SyntaxForest.Source.LineIndex
import SyntaxForest.Source.Span

/-!
Positions that are given as plain data.

A position need not be whole: it lies in a span or on a line as a number does, and its column then
is no whole number either. What is no number is no position, and only a whole number is the number
of a line.
-/

namespace SyntaxForest

/-- The position lies inside the span. -/
def Span.containsGiven (s : Span) (position : Datum) : Except Fault Bool :=
  (Number.ofDatum position).map fun x => x.floor?.any s.contains

namespace LineIndex

/-- The line and column of a position; one that is not in the text counts as its beginning. -/
def lineColumnAt (index : LineIndex) (x : Number) : Nat × Number :=
  if x.isBelow 0 || x.isAbove (Int.ofNat index.length) then (1, .int 1)
  else
    let line := index.lineUpTo fun start => x.isBelow (Int.ofNat start)
    (line, (x.plus (-(Int.ofNat (index.lineStart line)))).plus 1)

def lineColumnGiven (index : LineIndex) (position : Datum) : Except Fault (Nat × Number) :=
  (Number.ofDatum position).map index.lineColumnAt

/-- The position at a line and column, if it is one in the text. -/
def offsetGiven (index : LineIndex) (line column : Datum) : Except Fault (Option Number) := do
  let l ← Number.ofDatum line
  if l.isBelow 1 then return none
  let c ← Number.ofDatum column
  if c.isBelow 1 then return none
  if l.isAbove (Int.ofNat index.lineCount) then return none
  match l with
  | .float _ => throw (.badType "the number of a line is an integer")
  | .int n =>
    match index.starts[n.toNat - 1]? with
    | none => return none
    | some start =>
      let offset := (c.plus (Int.ofNat start)).plus (-1)
      let stop := Int.ofNat (index.starts.getD n.toNat index.length)
      return if offset.reaches stop then none else some offset

end LineIndex

end SyntaxForest
