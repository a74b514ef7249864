import SyntaxForest.Yaml.Bare
import SyntaxForest.Yaml.Property
import SyntaxForest.Yaml.Quoted

/-!
The tokens of a text, one after another.

Blocks begin and end where the indentation grows and shrinks. What stands before a colon on one line
is the name of an entry; that is only seen at the colon, so tokens that may be such a name are kept
back until the colon comes or cannot come any more. A token is read when it is asked for, and no
earlier.
-/

namespace SyntaxForest.Yaml

open SyntaxForest

/-- The first token of what may turn out to be the name of an entry. -/
structure NameStart where
  /-- The number of the token. -/
  number : Nat
  /-- Nothing else can stand here. -/
  isRequired : Bool
  mark : Mark

/-- Where reading tokens stands. -/
structure TokenStream where
  cursor : Cursor
  /-- The tokens read and not yet taken. -/
  waiting : List Token := []
  /-- How many tokens were taken. -/
  taken : Nat := 0
  isDone : Bool := false
  /-- How many brackets are open. -/
  depth : Nat := 0
  /-- The column of the current block, less than zero outside of all blocks. -/
  indent : Int := -1
  /-- The columns of the blocks around the current one. -/
  outer : List Int := []
  /-- The name of an entry may begin here. -/
  mayName : Bool := true
  /-- Where the name of an entry may have begun, for every number of open brackets. -/
  names : List (Nat × NameStart) := []

/-- Reading that goes on with the tokens of a text. -/
abbrev Scan := StateT TokenStream (Except Halt)

namespace TokenStream

def ofText (cs : List Char) : TokenStream := { cursor := .ofText cs }

/-- The longest name of an entry that needs no sign of its own. -/
def nameLimit : Nat := 1024

/-! ### Names of entries -/

/-- What may have been a name cannot be one any more. -/
def dropName (start : NameStart) (c : Cursor) : Except Halt Unit :=
  if start.isRequired then
    .error (c.problemIn "while scanning a simple key" start.mark "could not find expected ':'")
  else .ok ()

/-- A name has to end on its line, and soon. -/
def isStale (mark : Mark) (start : NameStart) : Bool :=
  start.mark.line ≠ mark.line || nameLimit < mark.index - start.mark.index

/-- Forgets the names that cannot be ones any more. -/
def dropStale : Scan Unit := do
  let s ← get
  for entry in s.names do
    if isStale s.cursor.mark entry.2 then dropName entry.2 s.cursor
  set { s with names := s.names.filter fun entry => !isStale s.cursor.mark entry.2 }

/-- Forgets the name that may have begun inside the current brackets. -/
def forgetName : Scan Unit := do
  let s ← get
  match s.names.find? (·.1 = s.depth) with
  | some (_, start) => dropName start s.cursor
  | none => pure ()
  set { s with names := s.names.filter (·.1 ≠ s.depth) }

/-- The next token may begin a name. -/
def noteName : Scan Unit := do
  let s ← get
  if s.mayName then
    forgetName
    let start : NameStart := {
      number := s.taken + s.waiting.length
      isRequired := s.depth = 0 && s.indent = Int.ofNat s.cursor.mark.column
      mark := s.cursor.mark }
    modify fun s => { s with names := s.names ++ [(s.depth, start)] }

/-! ### Indentation -/

/-- Ends the blocks that are indented more deeply than a column. -/
def unwindFrom (column : Int) (mark : Mark) : List Int → Int → List Token × Int × List Int
  | [], indent => ([], indent, [])
  | outer :: rest, indent =>
    if column < indent then
      let (ends, r) := unwindFrom column mark rest outer
      (⟨.blockEnd, mark, mark⟩ :: ends, r)
    else ([], indent, outer :: rest)

def unwind (column : Int) : Scan Unit :=
  modify fun s =>
    if s.depth ≠ 0 then s
    else
      let (ends, indent, outer) := unwindFrom column s.cursor.mark s.outer s.indent
      { s with waiting := s.waiting ++ ends, indent, outer }

/-- Begins a block in a column if it is deeper than the current one, with a token at position
`place`. -/
def openBlock (kind : TokenKind) (mark : Mark) (place : Nat) : Scan Unit :=
  modify fun s =>
    if s.indent < Int.ofNat mark.column then
      { s with
        outer := s.indent :: s.outer
        indent := Int.ofNat mark.column
        waiting := s.waiting.insertIdx place ⟨kind, mark, mark⟩ }
    else s

/-! ### Tokens -/

/-- Takes `length` characters for a token. -/
def pushSign (kind : TokenKind) (length : Nat) : Scan Unit :=
  modify fun s =>
    let after := s.cursor.advance length
    { s with cursor := after, waiting := s.waiting ++ [⟨kind, s.cursor.mark, after.mark⟩] }

/-- Takes a token that was read. -/
def push (r : Token × Cursor) : Scan Unit :=
  modify fun s => { s with cursor := r.2, waiting := s.waiting ++ [r.1] }

def allowNames (may : Bool) : Scan Unit := modify fun s => { s with mayName := may }

/-- Skips spaces, comments and line ends. After a line end the name of an entry may begin, unless
brackets are open. -/
def skipToToken : Nat → TokenStream → TokenStream
  | 0, s => s
  | fuel + 1, s =>
    let c := s.cursor.skipSpaces.skipComment
    match c.lineBreak with
    | ([], _) => { s with cursor := c }
    | (_, next) => skipToToken fuel { s with cursor := next, mayName := s.mayName || s.depth = 0 }

/-- Skips a byte order mark at the beginning of the text, and all that stands before the next
token. -/
def toNextToken : Scan Unit :=
  modify fun s =>
    let c := s.cursor
    let c := if c.mark.index = 0 && c.peek.toNat = 0xFEFF then c.next else c
    skipToToken (c.left + 1) { s with cursor := c }

/-- All blocks end, and no name may be open. -/
def closeAll : Scan Unit := do
  unwind (-1)
  forgetName
  allowNames false

def fetchEnd : Scan Unit := do
  closeAll
  pushSign .streamEnd 0
  modify fun s => { s with names := [], isDone := true }

def fetchDirective : Scan Unit := do
  closeAll
  push (← readDirective (← get).cursor)

def fetchSeparator (kind : TokenKind) : Scan Unit := do
  closeAll
  pushSign kind 3

def fetchOpening (kind : TokenKind) : Scan Unit := do
  noteName
  modify fun s => { s with depth := s.depth + 1, mayName := true }
  pushSign kind 1

def fetchClosing (kind : TokenKind) : Scan Unit := do
  forgetName
  modify fun s => { s with depth := s.depth - 1, mayName := false }
  pushSign kind 1

def fetchFlowEntry : Scan Unit := do
  allowNames true
  forgetName
  pushSign .flowEntry 1

/-- A sign outside of brackets stands where no entry may begin. -/
def requireNames (what : String) : Scan Unit := do
  let s ← get
  if s.depth = 0 && !s.mayName then throw (s.cursor.problem (what ++ " are not allowed here"))

/-- A sign outside of brackets may begin a block. -/
def openBlockHere (kind : TokenKind) : Scan Unit := do
  let s ← get
  if s.depth = 0 then openBlock kind s.cursor.mark s.waiting.length

def fetchBlockEntry : Scan Unit := do
  requireNames "sequence entries"
  openBlockHere .blockSequenceStart
  allowNames true
  forgetName
  pushSign .blockEntry 1

def fetchKey : Scan Unit := do
  requireNames "mapping keys"
  openBlockHere .blockMappingStart
  allowNames ((← get).depth = 0)
  forgetName
  pushSign .key 1

/-- What began at `start` is the name of an entry. -/
def settleName (start : NameStart) : Scan Unit := do
  let s ← get
  let place := start.number - s.taken
  set { s with
    names := s.names.filter (·.1 ≠ s.depth)
    waiting := s.waiting.insertIdx place ⟨.key, start.mark, start.mark⟩ }
  if s.depth = 0 then openBlock .blockMappingStart start.mark place
  allowNames false

/-- A colon after something that needs a sign of its own to be a name. -/
def beginValue : Scan Unit := do
  requireNames "mapping values"
  openBlockHere .blockMappingStart
  allowNames ((← get).depth = 0)
  forgetName

def fetchValue : Scan Unit := do
  let s ← get
  match s.names.find? (·.1 = s.depth) with
  | some (_, start) => settleName start
  | none => beginValue
  pushSign .value 1

/-- A token that may be the name of an entry. -/
def fetchNode (read : Cursor → Except Halt (Token × Cursor)) : Scan Unit := do
  noteName
  allowNames false
  push (← read (← get).cursor)

def fetchBlockText : Scan Unit := do
  allowNames true
  forgetName
  let s ← get
  push (← readBlockText s.indent s.cursor)

def fetchBare : Scan Unit := do
  noteName
  let s ← get
  let (token, isBroken, after) := readBare (s.depth ≠ 0) (s.indent + 1).toNat s.cursor
  allowNames isBroken
  push (token, after)

/-- A bare scalar can begin here. -/
def canBeBare (inBrackets : Bool) (c : Cursor) : Bool :=
  let d := c.peek
  (!isGap d && !"-?:,[]\x7b\x7d#&*!|>'\"%@`".toList.contains d)
    || (!isGap (c.ahead 1) && (d = '-' || (!inBrackets && (d = '?' || d = ':'))))

/-- Looks at what decides which token begins here. -/
def lookAtStart (inBrackets : Bool) (c : Cursor) : Cursor :=
  let d := c.peek
  let c := if c.mark.column = 0 && (d = '-' || d = '.') then c.lookForSeparator else c
  if d = '-' || (!inBrackets && (d = '?' || d = ':')) then c.look 1 else c

/-- Reads the next token, and those that become certain by it. -/
def fetch : Scan Unit := do
  toNextToken
  dropStale
  unwind (Int.ofNat (← get).cursor.mark.column)
  modify fun s => { s with cursor := lookAtStart (s.depth ≠ 0) s.cursor }
  let s ← get
  let c := s.cursor
  let inBrackets := s.depth ≠ 0
  let startsLine := c.mark.column = 0
  let alone := inBrackets || isGap (c.ahead 1)
  match c.peek with
  | '%' => if startsLine then fetchDirective else unknown c
  | '[' => fetchOpening .flowSequenceStart
  | '\x7b' => fetchOpening .flowMappingStart
  | ']' => fetchClosing .flowSequenceEnd
  | '\x7d' => fetchClosing .flowMappingEnd
  | ',' => fetchFlowEntry
  | '*' => fetchNode readAnchor
  | '&' => fetchNode readAnchor
  | '!' => fetchNode readTag
  | '\'' => fetchNode readQuoted
  | '"' => fetchNode readQuoted
  | d =>
    if d = textEnd then fetchEnd
    else if startsLine && c.atSeparator then
      fetchSeparator (if d = '-' then .documentStart else .documentEnd)
    else if d = '-' && isGap (c.ahead 1) then fetchBlockEntry
    else if d = '?' && alone then fetchKey
    else if d = ':' && alone then fetchValue
    else if (d = '|' || d = '>') && !inBrackets then fetchBlockText
    else if canBeBare inBrackets c then fetchBare
    else unknown c
where
  /-- No token can begin here. -/
  unknown (c : Cursor) : Scan Unit :=
    throw ((c.look 1).fail (.flaw (.misplaced (some ("while scanning for the next token", none))
      ("found character " ++ shownChar c.peek ++ " that cannot start any token") c.mark)))

/-- The first waiting token is not certain yet, or there is none. -/
def needsMore : Scan Bool := do
  let s ← get
  if s.isDone then return false
  if s.waiting.isEmpty then return true
  dropStale
  return (← get).names.any (·.2.number = s.taken)

/-- Reads tokens until the first one is certain; every token takes at least one character. -/
def fill : Nat → Scan Unit
  | 0 => pure ()
  | fuel + 1 => do
    if ← needsMore then
      fetch
      fill fuel

/-- The next token, which stays. -/
def peek : Scan Token := do
  fill ((← get).cursor.left + 2)
  let s ← get
  return s.waiting.headD ⟨.streamEnd, s.cursor.mark, s.cursor.mark⟩

/-- Takes the next token. -/
def next : Scan Token := do
  let token ← peek
  modify fun s => { s with waiting := s.waiting.tail, taken := s.taken + 1 }
  return token

/-- Whether the next token is of some kind. -/
def check (test : TokenKind → Bool) : Scan Bool := do return test (← peek).kind

end TokenStream

end SyntaxForest.Yaml
