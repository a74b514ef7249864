import SyntaxForest.Schema.Scalar

/-!
Spans of a source text.

A span covers the characters from `start` up to but not including `stop`, counted from zero. It may
also say on which line and in which column it begins and ends; those are counted from one, and each
of the four may be missing. A span never ends before it starts.
-/

namespace SyntaxForest

open Schema

/-- A stretch of source text, with optional line and column numbers. -/
structure Span where
  start : Nat
  stop : Nat
  startLine : Option Nat := none
  startColumn : Option Nat := none
  stopLine : Option Nat := none
  stopColumn : Option Nat := none
  start_le_stop : start ≤ stop := by omega
deriving DecidableEq

namespace Span

/-- How many characters the span covers. -/
def length (s : Span) : Nat := s.stop - s.start

/-- The offset lies inside the span; an empty span contains no offset. -/
def contains (s : Span) (offset : Int) : Bool :=
  Int.ofNat s.start ≤ offset && offset < Int.ofNat s.stop

def recordName : String := "SourceLocation"

/-- The issue with a span that would end before it starts. -/
def reversed (start stop : Int) : Issue :=
  { rule := "value_error", path := [],
    message := s!"Value error, end_offset ({stop}) must not be before start_offset ({start})" }

/-- Puts checked numbers together, unless they run backwards. -/
def build (start stop : Nat) (startLine startColumn stopLine stopColumn : Option Nat) :
    Checked Span :=
  if h : start ≤ stop then
    .good { start, stop, startLine, startColumn, stopLine, stopColumn, start_le_stop := h }
  else .bad [reversed start stop]

/-- The span that a record describes. -/
def ofFields (fields : Assoc String Datum) : Checked Span :=
  let parts : Checked (Checked Span) :=
    build <$> required fields "start_offset" (atLeast 0)
      <*> required fields "end_offset" (atLeast 0)
      <*> optional fields "start_line" (atLeast 1)
      <*> optional fields "start_column" (atLeast 1)
      <*> optional fields "end_line" (atLeast 1)
      <*> optional fields "end_column" (atLeast 1)
  parts.andThen id

/-- The span between two offsets, with the lines and columns of its ends. -/
def between (start stop : Int) (first last : Nat × Nat) : Checked Span :=
  if 0 ≤ start && 0 ≤ stop then
    build start.toNat stop.toNat (some first.1) (some first.2) (some last.1) (some last.2)
  else ofFields [("start_offset", .int start), ("end_offset", .int stop)]

/-- The span that a value describes, which has to be a record. -/
def ofDatum : Datum → Checked Span
  | .record fields => ofFields fields
  | _ =>
    .refuse "model_type" "Input should be a valid dictionary or instance of SourceLocation"

/-- The span as an operation makes it, or the fault of a bad record. -/
def make (fields : Assoc String Datum) : Except Fault Span :=
  (ofFields fields).orFault recordName

def shownNat? : Option Nat → String
  | some n => toString n
  | none => "None"

/-- The span with all its numbers, in words. -/
def shown (s : Span) : String :=
  recordName ++ s!"(start_offset={s.start}, end_offset={s.stop}"
    ++ ", start_line=" ++ shownNat? s.startLine ++ ", start_column=" ++ shownNat? s.startColumn
    ++ ", end_line=" ++ shownNat? s.stopLine ++ ", end_column=" ++ shownNat? s.stopColumn ++ ")"

/-- The numbers of a span, those that are missing as nothing. -/
def numbers (s : Span) : List (Option Nat) :=
  [some s.start, some s.stop, s.startLine, s.startColumn, s.stopLine, s.stopColumn]

/-- Tables keep numbers that differ by a multiple of this one in the same place. -/
def hashModulus : Nat := Nat.pow 2 61 - 1

/-- What tells the place of a span in a table. -/
def hashKey (s : Span) : List (Option Nat) := s.numbers.map (·.map (· % hashModulus))

/-- The span as plain data. -/
def toDatum (s : Span) : Datum := .list (s.numbers.map .ofNat?)

end Span

end SyntaxForest
