import SyntaxForest.Yaml.Token

/-!
Scalars that take whole lines.

A bar before the lines keeps their ends, an angle bracket folds single ones into spaces. The lines
are indented alike; deeper indentation belongs to the text. The line ends after the text are kept,
dropped, or cut to one.
-/

namespace SyntaxForest.Yaml

open SyntaxForest

/-- What becomes of the line ends after the text. -/
inductive Chomping where
  | strip
  | clip
  | keep
deriving DecidableEq, Repr

/-- What is said before the lines: the chomping, and how much deeper they are indented. -/
structure BlockHeader where
  chomping : Chomping := .clip
  increment : Option Nat := none

def blockContext : String := "while scanning a block scalar"

/-- A sign for the chomping, if there is one. -/
def readChomping (c : Cursor) : Option Chomping × Cursor :=
  if c.peek = '+' then (some .keep, c.next)
  else if c.peek = '-' then (some .strip, c.next)
  else (none, c)

/-- A digit for the indentation, if there is one. -/
def readIncrement (start : Mark) (c : Cursor) : Except Halt (Option Nat × Cursor) :=
  if c.peek = '0' then
    .error (c.problemIn blockContext start
      "expected indentation indicator in the range 1-9, but found 0")
  else if c.peek.isDigit then .ok (some (c.peek.toNat - 48), c.next)
  else .ok (none, c)

/-- The two signs before the lines, in any order. -/
def readHeader (start : Mark) (c : Cursor) : Except Halt (BlockHeader × Cursor) := do
  let (early, c) := readChomping c
  let (increment, c) ← readIncrement start c
  let (late, c) := if early.isNone && increment.isSome then readChomping c else (none, c)
  if endsWord c.peek then
    return ({ chomping := (early.or late).getD .clip, increment }, c)
  else
    throw (c.problemIn blockContext start
      ("expected chomping or indentation indicators, but found " ++ shownChar c.peek))

/-- The rest of a line that may only hold a comment; `context` tells what it belongs to. -/
def skipIgnored (context : String) (start : Mark) (c : Cursor) : Except Halt Cursor :=
  let c := c.skipSpaces.skipComment
  if endsLine c.peek then .ok c.lineBreak.2
  else
    .error (c.problemIn context start
      ("expected a comment or a line break, but found " ++ shownChar c.peek))

/-- Line ends before the first line of the text, the deepest indentation among them and of that
line, the place after the last of them, and the cursor after them. -/
def leadingBreaks : Nat → Nat → Mark → Cursor → List Char × Nat × Mark × Cursor
  | 0, deepest, stop, c => ([], deepest, stop, c)
  | fuel + 1, deepest, stop, c =>
    if c.peek = ' ' then
      let next := c.next
      leadingBreaks fuel (max deepest next.mark.column) stop next
    else if isBreak c.peek then
      let (line, next) := c.lineBreak
      let (more, rest) := leadingBreaks fuel deepest next.mark next
      (line ++ more, rest)
    else ([], deepest, stop, c)

/-- Skips spaces up to a column. -/
def skipIndent (indent : Nat) (c : Cursor) : Cursor :=
  c.advance (min (indent - c.mark.column) (c.run (· = ' ')).length)

/-- Line ends between lines of a text with a known indentation. -/
def innerBreaks (indent : Nat) : Nat → Mark → Cursor → List Char × Mark × Cursor
  | 0, stop, c => ([], stop, c)
  | fuel + 1, stop, c =>
    let c := skipIndent indent c
    if isBreak c.peek then
      let (line, next) := c.lineBreak
      let (more, rest) := innerBreaks indent fuel next.mark next
      (line ++ more, rest)
    else ([], stop, c)

/-- The text read so far: its lines, the end of the last one, and the line ends after it. -/
structure BlockLines where
  text : List Char
  lineBreak : List Char
  breaks : List Char
  stop : Mark
  after : Cursor

/-- A line of the text begins here. -/
def atLine (indent : Nat) (c : Cursor) : Bool := c.mark.column = indent && c.peek ≠ textEnd

/-- Reads the lines of a text. -/
def blockLines (folded : Bool) (indent : Nat) : Nat → BlockLines → BlockLines
  | 0, sofar => sofar
  | fuel + 1, sofar =>
    let c := sofar.after
    if !atLine indent c then sofar
    else
      let line := c.run (!isBreak ·)
      let (lineBreak, next) := (c.advance line.length).lineBreak
      let (breaks, stop, after) := innerBreaks indent (next.left + 1) next.mark next
      let text := sofar.text ++ sofar.breaks ++ line
      let isPlain (d : Char) : Bool := d ≠ ' ' && d ≠ '\t'
      let joint :=
        if !atLine indent after then []
        else if folded && lineBreak = ['\n'] && isPlain c.peek && isPlain after.peek then
          (if breaks.isEmpty then [' '] else [])
        else lineBreak
      blockLines folded indent fuel { text := text ++ joint, lineBreak, breaks, stop, after }

/-- What the chomping leaves of the line ends after the text. -/
def chomped (chomping : Chomping) (lines : BlockLines) : List Char :=
  match chomping with
  | .strip => []
  | .clip => lines.lineBreak
  | .keep => lines.lineBreak ++ lines.breaks

/-- A scalar of whole lines inside of a block that is indented by `parent`; the cursor is at its
sign. -/
def readBlockText (parent : Int) (c : Cursor) : Except Halt (Token × Cursor) := do
  let (header, afterHeader) ← readHeader c.mark c.next
  let first ← skipIgnored blockContext c.mark afterHeader
  let least := max 1 (parent + 1).toNat
  let fuel := first.left + 1
  let (breaks, indent, stop, after) := match header.increment with
    | none =>
      let (breaks, deepest, stop, after) := leadingBreaks fuel 0 first.mark first
      (breaks, max least deepest, stop, after)
    | some n =>
      let indent := least + n - 1
      let (breaks, stop, after) := innerBreaks indent fuel first.mark first
      (breaks, indent, stop, after)
  let lines := blockLines (c.peek = '>') indent fuel
    { text := [], lineBreak := [], breaks, stop, after }
  let text := lines.text ++ chomped header.chomping lines
  return (⟨.scalar (.ofText (String.ofList text)) false, c.mark, lines.stop⟩, lines.after)

end SyntaxForest.Yaml
