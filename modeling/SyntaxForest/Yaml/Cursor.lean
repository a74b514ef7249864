import SyntaxForest.Fault

/-!
Places in a YAML text, and what is reported about them.

A cursor is a place with the text from there on. The end of the text is seen as the character with
code zero, which no text holds. Line ends are line feeds and the three line separators of Unicode.

A text is looked at piece by piece, and only as far as it is needed. A character that no text may
hold is noticed when the piece that holds it is looked at, which may be never if something else is
wrong earlier. So a halt tells how far the text was looked at.
-/

namespace SyntaxForest.Yaml

open SyntaxForest

/-- A place in a text, counted from zero. -/
structure Mark where
  index : Nat := 0
  line : Nat := 0
  column : Nat := 0
deriving DecidableEq, Repr

/-- What is wrong with a text. -/
inductive Flaw where
  /-- A character that no text may hold. -/
  | unacceptable (code position : Nat)
  /-- A problem at a place, perhaps inside of something that begins elsewhere. -/
  | misplaced (context : Option (String × Option Mark)) (problem : String) (mark : Mark)
deriving DecidableEq, Repr

namespace Flaw

def place (file : String) (m : Mark) : String :=
  s!"  in \"{file}\", line {m.line + 1}, column {m.column + 1}"

/-- The context in words. Its place is left out if it is that of the problem. -/
def contextText (file : String) (mark : Mark) : Option (String × Option Mark) → List String
  | none => []
  | some (what, none) => [what]
  | some (what, some start) =>
    if start.line = mark.line && start.column = mark.column then [what]
    else [what, place file start]

/-- The flaw in words. -/
def text (file : String) : Flaw → String
  | unacceptable code position =>
    let digits := String.ofList (Text.hexDigits 4 code)
    s!"unacceptable character #x{digits}: special characters are not allowed\n"
      ++ s!"  in \"{file}\", position {position}"
  | misplaced context problem mark =>
    "\n".intercalate (contextText file mark context ++ [problem, place file mark])

end Flaw

/-- Why a text gives no document: a flaw of the text, or a value that cannot be made. -/
inductive Failure where
  | flaw (f : Flaw)
  | fault (f : Fault)

namespace Failure

/-- A problem at a place. -/
def plain (problem : String) (mark : Mark) : Failure := .flaw (.misplaced none problem mark)

/-- A problem at a place inside of what begins at `start`. -/
def within (context : String) (start : Mark) (problem : String) (mark : Mark) : Failure :=
  .flaw (.misplaced (some (context, some start)) problem mark)

end Failure

/-- Where reading came to a halt: why, and the last place of the text that was looked at. -/
structure Halt where
  failure : Failure
  reach : Nat

/-! ### Characters -/

/-- What is seen at the end of a text. -/
def textEnd : Char := Char.ofNat 0

def isBreak (c : Char) : Bool :=
  c = '\n' || c.toNat = 0x85 || c.toNat = 0x2028 || c.toNat = 0x2029

def endsLine (c : Char) : Bool := c = textEnd || isBreak c

/-- What can follow a word that ends a line or stands before a space. -/
def endsWord (c : Char) : Bool := c = ' ' || endsLine c

/-- What can follow a sign of its own. -/
def isGap (c : Char) : Bool := c = '\t' || endsWord c

/-- The signs that have a meaning inside brackets. -/
def isBracketSign (c : Char) : Bool :=
  c = ',' || c = '[' || c = ']' || c = '\x7b' || c = '\x7d'

def isHexDigit (c : Char) : Bool :=
  c.isDigit || ('a' ≤ c && c ≤ 'f') || ('A' ≤ c && c ≤ 'F')

/-- The value of hexadecimal digits. -/
def hexValue (cs : List Char) : Nat :=
  cs.foldl (fun n c =>
    n * 16 + (if c.isDigit then c.toNat - 48 else if c ≤ 'F' then c.toNat - 55 else c.toNat - 87)) 0

/-- A letter, a digit, a hyphen or an underscore, all of the ASCII range. -/
def isNameChar (c : Char) : Bool := c.isAlphanum || c = '-' || c = '_'

def shownChar (c : Char) : String := Text.quoted c.toString

/-! ### Cursors -/

/-- A place and the text from there on. -/
structure Cursor where
  rest : List Char
  /-- The length of the whole text. -/
  size : Nat
  mark : Mark := {}
  /-- The last place looked at without going there. -/
  seen : Nat := 0

namespace Cursor

def ofText (cs : List Char) : Cursor := { rest := cs, size := cs.length }

/-- How many characters are left. -/
def left (c : Cursor) : Nat := c.size - c.mark.index

/-- The character at the cursor. -/
def peek (c : Cursor) : Char := c.rest.headD textEnd

/-- Looks `k` places further. -/
def look (c : Cursor) (k : Nat) : Cursor := { c with seen := max c.seen (c.mark.index + k) }

/-- The last place that was looked at. -/
def reach (c : Cursor) : Nat := max c.seen c.mark.index

/-- Reading comes to a halt here. -/
def fail (c : Cursor) (failure : Failure) : Halt := ⟨failure, c.reach⟩

/-- There is a problem here. -/
def problem (c : Cursor) (what : String) : Halt := c.fail (.plain what c.mark)

/-- There is a problem here, inside of what begins at `start`. -/
def problemIn (c : Cursor) (context : String) (start : Mark) (what : String) : Halt :=
  c.fail (.within context start what c.mark)

/-- The character `k` places further. -/
def ahead (c : Cursor) (k : Nat) : Char := (c.rest.drop k).headD textEnd

/-- One character further. A byte order mark takes no column. -/
def next (c : Cursor) : Cursor :=
  match c.rest with
  | [] => c
  | d :: rest =>
    let index := c.mark.index + 1
    let mark : Mark :=
      if isBreak d then ⟨index, c.mark.line + 1, 0⟩
      else if d.toNat = 0xFEFF then ⟨index, c.mark.line, c.mark.column⟩
      else ⟨index, c.mark.line, c.mark.column + 1⟩
    { c with rest, mark }

/-- `n` characters further. -/
def advance (c : Cursor) : Nat → Cursor
  | 0 => c
  | n + 1 => c.next.advance n

/-- The characters from here on that satisfy a test. -/
def run (c : Cursor) (test : Char → Bool) : List Char := c.rest.takeWhile test

def skipWhile (c : Cursor) (test : Char → Bool) : Cursor := c.advance (c.run test).length

def skipSpaces (c : Cursor) : Cursor := c.skipWhile (· = ' ')

/-- Skips a comment up to the end of its line. -/
def skipComment (c : Cursor) : Cursor :=
  if c.peek = '#' then c.skipWhile (!isBreak ·) else c

/-- A line end, as it counts in a text, and what follows it; nothing if there is none here. -/
def lineBreak (c : Cursor) : List Char × Cursor :=
  if c.peek = '\n' || c.peek.toNat = 0x85 then (['\n'], c.next)
  else if isBreak c.peek then ([c.peek], c.next)
  else ([], c)

/-- The three signs that separate documents stand here, whatever follows them. -/
def atTriple (c : Cursor) : Bool :=
  c.rest.take 3 = ['-', '-', '-'] || c.rest.take 3 = ['.', '.', '.']

/-- What separates documents stands here. -/
def atSeparator (c : Cursor) : Bool := c.atTriple && isGap (c.ahead 3)

/-- Looks whether what separates documents stands here. -/
def lookForSeparator (c : Cursor) : Cursor := c.look (if c.atTriple then 3 else 2)

end Cursor

/-! ### Texts -/

/-- Whether a text may hold a character. -/
def isAcceptable (c : Char) : Bool :=
  let n := c.toNat
  n = 9 || n = 10 || n = 13 || (32 ≤ n && n ≤ 126) || n = 133 || (160 ≤ n && n ≤ 0xD7FF)
    || (0xE000 ≤ n && n ≤ 0xFFFD) || 0x10000 ≤ n

/-- The first character that a text may not hold, and its place. -/
def firstUnacceptable? (position : Nat) : List Char → Option (Char × Nat)
  | [] => none
  | c :: rest =>
    if isAcceptable c then firstUnacceptable? (position + 1) rest else some (c, position)

/-- A text is looked at in pieces. The first piece has this length. -/
def firstPiece : Nat := 8192

/-- The length of the other pieces. -/
def laterPiece : Nat := 4096

/-- The beginning of the piece in which a place lies. -/
def pieceStart (position : Nat) : Nat :=
  if position < firstPiece then 0
  else firstPiece + (position - firstPiece) / laterPiece * laterPiece

end SyntaxForest.Yaml
