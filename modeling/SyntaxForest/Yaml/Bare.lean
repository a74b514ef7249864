import SyntaxForest.Yaml.Token

/-!
Scalars without quotes.

A bare scalar goes on up to a colon or a hash mark that counts, inside brackets also up to one of
their signs, and over several lines as long as these are indented deeply enough. Line ends inside it
count as those between quotes.
-/

namespace SyntaxForest.Yaml

open SyntaxForest

/-- Looks at a colon and at what follows it, if a colon stands `n` places further. -/
def lookAtColon (c : Cursor) (n : Nat) : Cursor := if c.ahead n = ':' then c.look (n + 1) else c

/-- The length of a bare word. A colon ends it if nothing that could go on follows. -/
def bareLength (inBrackets : Bool) : List Char → Nat
  | [] => 0
  | c :: rest =>
    let next := rest.headD textEnd
    if isGap c then 0
    else if c = ':' && (isGap next || (inBrackets && isBracketSign next)) then 0
    else if inBrackets && (isBracketSign c || c = '?') then 0
    else bareLength inBrackets rest + 1

/-- What stands between two bare words: spaces or line ends. -/
structure BareSpace where
  text : List Char
  /-- There is a line end. -/
  isBroken : Bool
  after : Cursor

/-- Line ends and spaces after the first line end; nothing if a document ends here. -/
def bareBreaks : Nat → Cursor → Option (List Char) × Cursor
  | 0, c => (some [], c)
  | fuel + 1, c =>
    if c.peek = ' ' then bareBreaks fuel c.next
    else if isBreak c.peek then
      let (line, next) := c.lineBreak
      let next := next.lookForSeparator
      if next.atSeparator then (none, next)
      else
        let (more, last) := bareBreaks fuel next
        (more.map (line ++ ·), last)
    else (some [], c)

def readBareSpace (c : Cursor) : BareSpace :=
  let spaces := c.run (· = ' ')
  let c := c.advance spaces.length
  if isBreak c.peek then
    let (line, next) := c.lineBreak
    let next := next.lookForSeparator
    if next.atSeparator then ⟨[], true, next⟩
    else
      match bareBreaks (next.left + 1) next with
      | (none, last) => ⟨[], true, last⟩
      | (some breaks, last) =>
        let first := if line ≠ ['\n'] then line else if breaks.isEmpty then [' '] else []
        ⟨first ++ breaks, true, last⟩
  else ⟨spaces, false, c⟩

/-- What was read of a bare scalar. -/
structure BareText where
  text : List Char
  stop : Mark
  /-- The scalar is followed by a line end. -/
  isBroken : Bool
  after : Cursor

/-- Reads words that belong to a scalar; `before` is what stands between it and the words read so
far. Lines have to begin in column `indent` or after it, unless they stand inside brackets. -/
def bareWords (inBrackets : Bool) (indent : Nat) : Nat → BareText → List Char → BareText
  | 0, sofar, _ => sofar
  | fuel + 1, sofar, before =>
    let c := sofar.after
    let n := if c.peek = '#' then 0 else bareLength inBrackets c.rest
    let c := lookAtColon c n
    if n = 0 then { sofar with after := c }
    else
      let last := c.advance n
      let space := readBareSpace last
      let read : BareText :=
        { text := sofar.text ++ before ++ c.rest.take n, stop := last.mark
          isBroken := space.isBroken, after := space.after }
      if space.text.isEmpty || space.after.peek = '#'
          || (!inBrackets && space.after.mark.column < indent) then read
      else bareWords inBrackets indent fuel read space.text

/-- A bare scalar. Also tells whether a line end follows it. -/
def readBare (inBrackets : Bool) (indent : Nat) (c : Cursor) : Token × Bool × Cursor :=
  let start : BareText := { text := [], stop := c.mark, isBroken := false, after := c }
  let r := bareWords inBrackets indent (c.left + 1) start []
  (⟨.scalar (.ofText (String.ofList r.text)) true, c.mark, r.stop⟩, r.isBroken, r.after)

end SyntaxForest.Yaml
