import SyntaxForest.Text.Utf8
import SyntaxForest.Yaml.BlockText

/-!
What is said about nodes and documents: anchors and aliases, tags, directives.
-/

namespace SyntaxForest.Yaml

open SyntaxForest

/-! ### Anchors -/

/-- What may follow a name that was given to a node. -/
def endsAnchor (c : Char) : Bool :=
  isGap c || ['?', ':', ',', ']', '\x7d', '%', '@', '\x60'].contains c

/-- A name and what follows it, or the flaw that there is none. -/
def readName (context : String) (start : Mark) (mayFollow : Char → Bool) (c : Cursor) :
    Except Halt (String × Cursor) :=
  let name := c.run isNameChar
  let after := c.advance name.length
  if name.isEmpty || !mayFollow after.peek then
    .error (after.problemIn context start
      ("expected alphabetic or numeric character, but found " ++ shownChar after.peek))
  else .ok (String.ofList name, after)

/-- An anchor or an alias; the cursor is at its sign. -/
def readAnchor (c : Cursor) : Except Halt (Token × Cursor) := do
  let isAlias := c.peek = '*'
  let context := "while scanning an " ++ if isAlias then "alias" else "anchor"
  let (name, after) ← readName context c.mark endsAnchor c.next
  return (⟨if isAlias then .reference name else .anchor name, c.mark, after.mark⟩, after)

/-! ### Tags -/

def isUriChar (c : Char) : Bool :=
  c.isAlphanum || "-;/?:@&=+$,_.!~*'()[]".toList.contains c

/-- The bytes of escapes of two hexadecimal digits each. -/
def uriBytes (what : String) (start : Mark) : Nat → Cursor → Except Halt (List UInt8 × Cursor)
  | 0, c => .ok ([], c)
  | fuel + 1, c =>
    if c.peek ≠ '%' then .ok ([], c)
    else
      let c := c.next
      match [0, 1].find? fun k => !isHexDigit (c.ahead k) with
      | some k =>
        .error ((c.look k).problemIn ("while scanning a " ++ what) start
          ("expected URI escape sequence of 2 hexadecimal numbers, but found "
            ++ shownChar (c.ahead k)))
      | none => do
        let (more, last) ← uriBytes what start fuel (c.advance 2)
        return ((hexValue (c.rest.take 2)).toUInt8 :: more, last)

/-- The text that escaped bytes spell. -/
def uriEscapes (what : String) (start : Mark) (c : Cursor) :
    Except Halt (List Char × Cursor) := do
  let (bytes, after) ← uriBytes what start (c.left + 1) c
  match Text.Utf8.decode bytes with
  | .ok chars => return (chars, after)
  | .error flaw =>
    throw (after.fail (.within ("while scanning a " ++ what) start flaw.message c.mark))

/-- The characters of a tag, with their escapes replaced. -/
def uriChars (what : String) (start : Mark) : Nat → Cursor → Except Halt (List Char × Cursor)
  | 0, c => .ok ([], c)
  | fuel + 1, c => do
    let chars := c.run isUriChar
    let c := c.advance chars.length
    if c.peek = '%' then
      let (escaped, c) ← uriEscapes what start c
      let (more, last) ← uriChars what start fuel c
      return (chars ++ escaped ++ more, last)
    else return (chars, c)

/-- The characters of a tag, at least one. -/
def readUri (what : String) (start : Mark) (c : Cursor) : Except Halt (String × Cursor) := do
  let (chars, after) ← uriChars what start (c.left + 1) c
  if after.mark.index = c.mark.index then
    throw (after.problemIn ("while parsing a " ++ what) start
      ("expected URI, but found " ++ shownChar after.peek))
  return (String.ofList chars, after)

/-- A handle: an exclamation mark, or a name between two of them. -/
def readHandle (what : String) (start : Mark) (c : Cursor) : Except Halt (String × Cursor) :=
  let missing (at_ : Cursor) : Halt :=
    at_.problemIn ("while scanning a " ++ what) start
      ("expected '!', but found " ++ shownChar at_.peek)
  if c.peek ≠ '!' then .error (missing c)
  else if c.ahead 1 = ' ' then .ok ("!", c.next)
  else
    let name := c.next.run isNameChar
    let after := c.next.advance name.length
    if after.peek ≠ '!' then .error (missing after)
    else .ok (String.ofList ('!' :: name ++ ['!']), after.next)

/-- The handle and the rest of a tag; the cursor is at its exclamation mark. -/
def readTagParts (c : Cursor) : Except Halt (Option String × String × Cursor) := do
  if c.ahead 1 = '<' then
    let (uri, after) ← readUri "tag" c.mark (c.advance 2)
    if after.peek ≠ '>' then
      throw (after.problemIn "while parsing a tag" c.mark
        ("expected '>', but found " ++ shownChar after.peek))
    return (none, uri, after.next)
  else if isGap (c.ahead 1) then return (none, "!", c.next)
  else
    let word := c.next.run (!endsWord ·)
    let c := c.look ((word.takeWhile (· ≠ '!')).length + 1)
    let (handle, after) ←
      if word.contains '!' then readHandle "tag" c.mark c else pure ("!", c.next)
    let (uri, after) ← readUri "tag" c.mark after
    return (some handle, uri, after)

/-- A tag; the cursor is at its exclamation mark. -/
def readTag (c : Cursor) : Except Halt (Token × Cursor) := do
  let (handle, suffix, after) ← readTagParts c
  if endsWord after.peek then return (⟨.tag handle suffix, c.mark, after.mark⟩, after)
  else
    throw (after.problemIn "while scanning a tag" c.mark
      ("expected ' ', but found " ++ shownChar after.peek))

/-! ### Directives -/

def directiveContext : String := "while scanning a directive"

/-- A character other than the one expected stands at a place. -/
def unexpected (start : Mark) (wanted : String) (c : Cursor) : Halt :=
  c.problemIn directiveContext start ("expected " ++ wanted ++ ", but found " ++ shownChar c.peek)

/-- A part of a version number. -/
def readVersionNumber (start : Mark) (c : Cursor) : Except Halt (Nat × Cursor) :=
  let digits := c.run Char.isDigit
  if digits.isEmpty then .error (unexpected start "a digit" c)
  else if Fault.digitLimit < digits.length then
    .error ((c.look digits.length).fail (.fault (.tooLongInteger digits.length)))
  else
    .ok (digits.foldl (fun n d => n * 10 + (d.toNat - 48)) 0, c.advance digits.length)

/-- The version that a directive asks for. -/
def readVersion (start : Mark) (c : Cursor) : Except Halt (Directive × Cursor) := do
  let (major, c) ← readVersionNumber start c.skipSpaces
  if c.peek ≠ '.' then throw (unexpected start "a digit or '.'" c)
  let (minor, c) ← readVersionNumber start c.next
  if !endsWord c.peek then throw (unexpected start "a digit or ' '" c)
  return (.version major minor, c)

/-- The handle that a directive explains. -/
def readHandleMeaning (start : Mark) (c : Cursor) : Except Halt (Directive × Cursor) := do
  let (handle, c) ← readHandle "directive" start c.skipSpaces
  if c.peek ≠ ' ' then throw (unexpected start "' '" c)
  let (meaning, c) ← readUri "directive" start c.skipSpaces
  if !endsWord c.peek then throw (unexpected start "' '" c)
  return (.handle handle meaning, c)

/-- A directive; the cursor is at its percent sign. -/
def readDirective (c : Cursor) : Except Halt (Token × Cursor) := do
  let (name, afterName) ← readName directiveContext c.mark endsWord c.next
  let (directive, after) ←
    if name = "YAML" then readVersion c.mark afterName
    else if name = "TAG" then readHandleMeaning c.mark afterName
    else pure (Directive.unknown, afterName)
  let rest := if directive = .unknown then after.skipWhile (!isBreak ·) else after
  let last ← skipIgnored directiveContext c.mark rest
  return (⟨.directive directive, c.mark, after.mark⟩, last)

end SyntaxForest.Yaml
