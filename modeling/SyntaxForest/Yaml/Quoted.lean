import SyntaxForest.Yaml.Token

/-!
Scalars between quotes.

Spaces around a line end are dropped; a single line end stands for a space, and of several the first
stands for nothing. Between single quotes a doubled quote stands for one. Between double quotes a
backslash begins an escape; before a line end it makes that vanish.
-/

namespace SyntaxForest.Yaml

open SyntaxForest

/-- What single characters after a backslash stand for. -/
def simpleEscapes : List (Char × Nat) :=
  [('0', 0), ('a', 7), ('b', 8), ('t', 9), ('\t', 9), ('n', 10), ('v', 11), ('f', 12), ('r', 13),
   ('e', 27), (' ', 32), ('"', 34), ('\\', 92), ('/', 47), ('N', 0x85), ('_', 0xA0), ('L', 0x2028),
   ('P', 0x2029)]

/-- How many hexadecimal digits follow these letters. -/
def codeEscapes : List (Char × Nat) := [('x', 2), ('u', 4), ('U', 8)]

/-- The spelling of the character or half with a code, if there is one. -/
def textWithCode (code : Nat) : Except Fault (List Char) :=
  if code < 0x110000 then .ok (WideText.spell code)
  else if code < Nat.pow 2 31 then .error (.badValue "chr() arg not in range(0x110000)")
  else .error (.ofText .overflow "Python int too large to convert to C int")

/-- The line ends from here on, with the spaces around them. No document may end here. -/
def quotedBreaks (start : Mark) : Nat → Cursor → Except Halt (List Char × Cursor)
  | 0, c => .ok ([], c)
  | fuel + 1, c =>
    let c := c.lookForSeparator
    if c.atSeparator then
      .error (c.problemIn "while scanning a quoted scalar" start
        "found unexpected document separator")
    else
      let after := c.skipWhile fun d => d = ' ' || d = '\t'
      if isBreak after.peek then do
        let (line, next) := after.lineBreak
        let (more, last) ← quotedBreaks start fuel next
        return (line ++ more, last)
      else .ok ([], after)

/-- The digits of an escape, all of which have to be hexadecimal. -/
def readCode (start : Mark) (digits : Nat) (c : Cursor) : Except Halt (List Char × Cursor) :=
  match (List.range digits).find? fun k => !isHexDigit (c.ahead k) with
  | some k =>
    .error ((c.look k).problemIn "while scanning a double-quoted scalar" start
      (s!"expected escape sequence of {digits} hexadecimal numbers, but found "
        ++ shownChar (c.ahead k)))
  | none =>
    match textWithCode (hexValue (c.rest.take digits)) with
    | .ok text => .ok (text, c.advance digits)
    | .error fault => .error ((c.look (digits - 1)).fail (.fault fault))

/-- What an escape stands for; the cursor is after its backslash. -/
def readEscape (start : Mark) (c : Cursor) : Except Halt (List Char × Cursor) :=
  match simpleEscapes.find? (·.1 = c.peek), codeEscapes.find? (·.1 = c.peek) with
  | some (_, code), _ => .ok ([Char.ofNat code], c.next)
  | none, some (_, digits) => readCode start digits c.next
  | none, none =>
    if isBreak c.peek then
      let next := c.lineBreak.2
      quotedBreaks start (next.left + 1) next
    else
      .error (c.problemIn "while scanning a double-quoted scalar" start
        ("found unknown escape character " ++ shownChar c.peek))

/-- The spelling of the text from here to the next space, line end or closing quote, with its
escapes replaced. -/
def quotedWord (double : Bool) (start : Mark) : Nat → Cursor → Except Halt (List Char × Cursor)
  | 0, c => .ok ([], c)
  | fuel + 1, c =>
    let word := c.run fun d => d ≠ '\'' && d ≠ '"' && d ≠ '\\' && !isGap d
    let c := c.advance word.length
    let word := word.flatMap fun d => WideText.spell d.toNat
    let next : Except Halt (Option (List Char × Cursor)) :=
      if !double && c.peek = '\'' && c.ahead 1 = '\'' then .ok (some (['\''], c.advance 2))
      else if (double && c.peek = '\'') || (!double && (c.peek = '"' || c.peek = '\\')) then
        .ok (some ([c.peek], c.next))
      else if double && c.peek = '\\' then (readEscape start c.next).map some
      else .ok none
    match next with
    | .error e => .error e
    | .ok none => .ok (word, c)
    | .ok (some (piece, after)) => do
      let (more, last) ← quotedWord double start fuel after
      return (word ++ piece ++ more, last)

/-- Spaces and line ends between two words. -/
def quotedSpaces (start : Mark) (c : Cursor) : Except Halt (List Char × Cursor) :=
  let spaces := c.run fun d => d = ' ' || d = '\t'
  let c := c.advance spaces.length
  if c.peek = textEnd then
    .error (c.problemIn "while scanning a quoted scalar" start "found unexpected end of stream")
  else if isBreak c.peek then do
    let (line, next) := c.lineBreak
    let (breaks, last) ← quotedBreaks start (next.left + 1) next
    let first := if line ≠ ['\n'] then line else if breaks.isEmpty then [' '] else []
    return (first ++ breaks, last)
  else .ok (spaces, c)

/-- Words and what stands between them, up to the closing quote. -/
def quotedWords (double : Bool) (start : Mark) : Nat → Cursor → Except Halt (List Char × Cursor)
  | 0, c => .ok ([], c)
  | fuel + 1, c => do
    let (word, c) ← quotedWord double start (c.left + 1) c
    if c.peek = (if double then '"' else '\'') then return (word, c)
    let (spaces, c) ← quotedSpaces start c
    let (more, last) ← quotedWords double start fuel c
    return (word ++ spaces ++ more, last)

/-- A scalar between quotes; the cursor is at the first of them. -/
def readQuoted (c : Cursor) : Except Halt (Token × Cursor) := do
  let (text, last) ← quotedWords (c.peek = '"') c.mark (c.left + 1) c.next
  let after := last.next
  return (⟨.scalar ⟨String.ofList text⟩ false, c.mark, after.mark⟩, after)

end SyntaxForest.Yaml
