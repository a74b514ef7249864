import SyntaxForest.Data.Assoc
import SyntaxForest.Yaml.BareWord
import SyntaxForest.Yaml.Moment
import SyntaxForest.Yaml.TokenStream

/-!
The nodes of a document.

Nodes refer to each other by number, since a node can be part of several others, and of itself: an
anchor names a node, and an alias stands for the node named last by its anchor. Every node has a
tag, which is written before it or follows from its content.
-/

namespace SyntaxForest.Yaml

open SyntaxForest

/-- The number of a node. -/
abbrev NodeRef := Nat

inductive Content where
  | scalar (text : WideText)
  | sequence (items : List NodeRef)
  | mapping (entries : List (NodeRef × NodeRef))
deriving DecidableEq, Repr

/-- The sort of content in words. -/
def Content.shown : Content → String
  | scalar _ => "scalar"
  | sequence _ => "sequence"
  | mapping _ => "mapping"

def Content.isScalar : Content → Bool
  | scalar _ => true
  | _ => false

structure Node where
  tag : String
  content : Content
  start : Mark

/-- What one line of bare text stands for, as the name of its tag. -/
def lineTag (text : String) : String :=
  let cs := text.toList
  if trueWords.contains text || falseWords.contains text then coreTag "bool"
  else if isDecimal cs then coreTag "float"
  else if isInteger (unsigned cs) then coreTag "int"
  else if text = "<<" then mergeTag
  else if nullWords.contains text then coreTag "null"
  else if (Moment.readLine? 2 cs).isSome then coreTag "timestamp"
  else if text = "=" then valueTag
  else if reservedSigns.contains text then coreTag "yaml"
  else textTag

/-- What bare text stands for, as the name of its tag. A line feed after it does not count, unless
there is nothing else. -/
def bareTag (text : WideText) : String :=
  let s := text.spelling
  if s = "\n" then textTag else lineTag (String.ofList (withoutLineEnd s.toList))

/-! ### Reading nodes from tokens -/

/-- Where reading nodes stands. -/
structure Reading where
  stream : TokenStream
  nodes : Array Node := #[]
  anchors : Assoc String NodeRef := []
  /-- What the handles of tags stand for. -/
  handles : Assoc String String := []

abbrev NodeReader := StateT Reading (Except Halt)

namespace Reading

def scan {α : Type} (action : Scan α) : NodeReader α := fun r => do
  let (a, stream) ← action r.stream
  return (a, { r with stream })

/-- Reading comes to a halt after the tokens that were looked at. -/
def fail {α : Type} (failure : Failure) : NodeReader α := fun r =>
  .error (r.stream.cursor.fail failure)

def peek : NodeReader Token := scan TokenStream.peek

def next : NodeReader Token := scan TokenStream.next

/-- Whether the next token is one of these. -/
def sees (kinds : List TokenKind) : NodeReader Bool :=
  scan (TokenStream.check kinds.contains)

/-- Adds a node, perhaps with an anchor. -/
def add (anchor : Option String) (node : Node) : NodeReader NodeRef := do
  let r ← get
  match anchor with
  | none => pure ()
  | some name =>
    match r.anchors.get? name with
    | some earlier =>
      let first := (r.nodes[earlier]?.map (·.start)).getD {}
      fail (.within ("found duplicate anchor " ++ Text.quoted name ++ "; first occurrence") first
        "second occurrence" node.start)
    | none => modify fun r => { r with anchors := r.anchors.set name r.nodes.size }
  modify fun r => { r with nodes := r.nodes.push node }
  return r.nodes.size

/-- Replaces the content of a node that was read in parts. -/
def complete (ref : NodeRef) (content : Content) : NodeReader NodeRef := do
  modify fun r => { r with nodes := r.nodes.modify ref fun node => { node with content } }
  return ref

/-- A node that is left out. -/
def addEmpty (mark : Mark) : NodeReader NodeRef :=
  add none { tag := bareTag (.ofText ""), content := .scalar (.ofText ""), start := mark }

/-! ### What is said about a node -/

/-- What stands before the content of a node. -/
structure Properties where
  anchor : Option String := none
  tag : Option (Option String × String) := none
  start : Option Mark := none
  tagStart : Mark := {}

/-- Takes an anchor, if one comes next. -/
def takeAnchor (p : Properties) : NodeReader Properties := do
  let token ← peek
  match token.kind with
  | .anchor name =>
    let _ ← next
    return { p with anchor := some name, start := p.start.or (some token.start) }
  | _ => return p

/-- Takes a tag, if one comes next. -/
def takeTag (p : Properties) : NodeReader Properties := do
  let token ← peek
  match token.kind with
  | .tag handle suffix =>
    let _ ← next
    return { p with
      tag := some (handle, suffix)
      start := p.start.or (some token.start)
      tagStart := token.start }
  | _ => return p

/-- An anchor and a tag, in any order. -/
def takeProperties : NodeReader Properties := do
  let p ← takeAnchor {}
  let q ← takeTag p
  if p.anchor.isNone && q.tag.isSome then takeAnchor q else return q

/-- The tag with its handle replaced by what that stands for. -/
def fullTag (p : Properties) (start : Mark) : NodeReader (Option String) := do
  match p.tag with
  | none => return none
  | some (none, suffix) => return some suffix
  | some (some handle, suffix) =>
    match (← get).handles.get? handle with
    | some meaning => return some (meaning ++ suffix)
    | none =>
      fail (.within "while parsing a node" start
        ("found undefined tag handle " ++ Text.quoted handle) p.tagStart)

/-- The tag that is given, unless it only says that there is one. -/
def givenTag (tag : Option String) (otherwise : String) : String :=
  match tag with
  | some t => if t = "!" then otherwise else t
  | none => otherwise

/-- The tag of a scalar: bare text, and text with the tag that says nothing, stands for what it
spells. -/
def scalarTag (tag : Option String) (text : WideText) (bare : Bool) : String :=
  match tag with
  | none => if bare then bareTag text else textTag
  | some "!" => bareTag text
  | some t => t

/-! ### Nodes -/

/-- A node of one of these two sorts is expected, and something else comes next. -/
def noContent (block : Bool) (start : Mark) (token : Token) : Failure :=
  .within ("while parsing a " ++ (if block then "block" else "flow") ++ " node") start
    ("expected the node content, but found " ++ Text.quoted token.kind.shown) token.start

/-- Something else comes next than the parts of a collection; `wanted` tells those. -/
def notAPart (what wanted : String) (start : Mark) (token : Token) : Failure :=
  .within ("while parsing a " ++ what) start
    ("expected " ++ wanted ++ Text.quoted token.kind.shown) token.start

/-- An alias stands for the node with its anchor. -/
def resolveAlias (name : String) (mark : Mark) : NodeReader NodeRef := do
  match (← get).anchors.get? name with
  | some ref => return ref
  | none => fail (.plain ("found undefined alias " ++ Text.quoted name) mark)

mutual

/-- A node. Outside of brackets it can be a block; as the part of an entry it can be a sequence
whose items are not indented. -/
def node (block level : Bool) : Nat → NodeReader NodeRef
  | 0 => addEmpty {}
  | fuel + 1 => do
    let first ← peek
    match first.kind with
    | .reference name => do
      let _ ← next
      resolveAlias name first.start
    | _ => do
      let p ← takeProperties
      let tag ← fullTag p (p.start.getD first.start)
      let token ← peek
      let start := p.start.getD token.start
      let begin (default : String) (content : Content) : NodeReader NodeRef :=
        add p.anchor { tag := givenTag tag default, content, start }
      match token.kind, block, level with
      | .blockEntry, _, true =>
        let ref ← begin sequenceTag (.sequence [])
        complete ref (.sequence (← levelItems fuel))
      | .scalar text bare, _, _ =>
        let _ ← next
        add p.anchor { tag := scalarTag tag text bare, content := .scalar text, start }
      | .flowSequenceStart, _, _ =>
        let ref ← begin sequenceTag (.sequence [])
        let opening ← next
        complete ref (.sequence (← flowItems opening.start true fuel))
      | .flowMappingStart, _, _ =>
        let ref ← begin mappingTag (.mapping [])
        let opening ← next
        complete ref (.mapping (← flowEntries opening.start true fuel))
      | .blockSequenceStart, true, _ =>
        let ref ← begin sequenceTag (.sequence [])
        let opening ← next
        complete ref (.sequence (← blockItems opening.start fuel))
      | .blockMappingStart, true, _ =>
        let ref ← begin mappingTag (.mapping [])
        let opening ← next
        complete ref (.mapping (← blockEntries opening.start fuel))
      | _, _, _ =>
        if p.anchor.isSome || tag.isSome then
          add p.anchor
            { tag := givenTag tag (bareTag (.ofText "")), content := .scalar (.ofText ""), start }
        else fail (noContent block start token)

/-- A node that is left out if one of these tokens comes next; then it stands at `mark`. -/
def nodeUnless (absent : List TokenKind) (mark : Mark) (block level : Bool) :
    Nat → NodeReader NodeRef
  | 0 => addEmpty mark
  | fuel + 1 => do
    if ← sees absent then addEmpty mark else node block level fuel

/-- The node after a sign, which may be missing together with its sign. -/
def nodeAfter (sign : TokenKind) (absent : List TokenKind) (block level : Bool) :
    Nat → NodeReader NodeRef
  | 0 => addEmpty {}
  | fuel + 1 => do
    let token ← peek
    if token.kind = sign then
      let _ ← next
      nodeUnless absent token.stop block level fuel
    else addEmpty token.start

/-- The items of a sequence that is a block. -/
def blockItems (start : Mark) : Nat → NodeReader (List NodeRef)
  | 0 => return []
  | fuel + 1 => do
    let token ← next
    match token.kind with
    | .blockEntry =>
      let item ← nodeUnless [.blockEntry, .blockEnd] token.stop true false fuel
      return item :: (← blockItems start fuel)
    | .blockEnd => return []
    | _ => fail (notAPart "block collection" "<block end>, but found " start token)

/-- The items of a sequence that are not indented. -/
def levelItems : Nat → NodeReader (List NodeRef)
  | 0 => return []
  | fuel + 1 => do
    let token ← peek
    match token.kind with
    | .blockEntry =>
      let _ ← next
      let item ← nodeUnless [.blockEntry, .key, .value, .blockEnd] token.stop true false fuel
      return item :: (← levelItems fuel)
    | _ => return []

/-- The entries of a mapping that is a block. -/
def blockEntries (start : Mark) : Nat → NodeReader (List (NodeRef × NodeRef))
  | 0 => return []
  | fuel + 1 => do
    let token ← next
    match token.kind with
    | .key =>
      let name ← nodeUnless [.key, .value, .blockEnd] token.stop true true fuel
      let value ← nodeAfter .value [.key, .value, .blockEnd] true true fuel
      return (name, value) :: (← blockEntries start fuel)
    | .blockEnd => return []
    | _ => fail (notAPart "block mapping" "<block end>, but found " start token)

/-- The items of a sequence in brackets. An entry among them is a mapping of its own. -/
def flowItems (start : Mark) (isFirst : Bool) : Nat → NodeReader (List NodeRef)
  | 0 => return []
  | fuel + 1 => do
    let token ← peek
    if token.kind = .flowSequenceEnd then
      let _ ← next
      return []
    if !isFirst then
      if token.kind = .flowEntry then
        let _ ← next
      else fail (notAPart "flow sequence" "',' or ']', but got " start token)
    let token ← peek
    match token.kind with
    | .key =>
      let ref ← add none { tag := mappingTag, content := .mapping [], start := token.start }
      let _ ← next
      let name ← nodeUnless [.value, .flowEntry, .flowSequenceEnd] token.stop false false fuel
      let value ← nodeAfter .value [.flowEntry, .flowSequenceEnd] false false fuel
      let item ← complete ref (.mapping [(name, value)])
      return item :: (← flowItems start false fuel)
    | .flowSequenceEnd =>
      let _ ← next
      return []
    | _ =>
      let item ← node false false fuel
      return item :: (← flowItems start false fuel)

/-- The entries of a mapping in brackets. -/
def flowEntries (start : Mark) (isFirst : Bool) : Nat → NodeReader (List (NodeRef × NodeRef))
  | 0 => return []
  | fuel + 1 => do
    let token ← peek
    if token.kind = .flowMappingEnd then
      let _ ← next
      return []
    if !isFirst then
      if token.kind = .flowEntry then
        let _ ← next
      else fail (notAPart "flow mapping" "',' or '\x7d', but got " start token)
    let token ← peek
    match token.kind with
    | .key =>
      let _ ← next
      let name ← nodeUnless [.value, .flowEntry, .flowMappingEnd] token.stop false false fuel
      let value ← nodeAfter .value [.flowEntry, .flowMappingEnd] false false fuel
      return (name, value) :: (← flowEntries start false fuel)
    | .flowMappingEnd =>
      let _ ← next
      return []
    | _ =>
      let name ← node false false fuel
      let value ← addEmpty (← peek).start
      return (name, value) :: (← flowEntries start false fuel)

end

/-! ### Documents -/

def defaultHandles : Assoc String String := [("!", "!"), ("!!", coreTag "")]

/-- What the directives before a document say, at most `fuel` of them. -/
def directives (version : Bool) : Nat → NodeReader Unit
  | 0 => pure ()
  | fuel + 1 => do
    let token ← peek
    match token.kind with
    | .directive d =>
      let _ ← next
      match d with
      | .version major _ =>
        if version then fail (.plain "found duplicate YAML directive" token.start)
        if major ≠ 1 then
          fail (.plain "found incompatible YAML document (version 1.* is required)" token.start)
        directives true fuel
      | .handle name meaning =>
        if (← get).handles.contains name then
          fail (.plain ("duplicate tag handle " ++ Text.quoted name) token.start)
        modify fun r => { r with handles := r.handles.set name meaning }
        directives version fuel
      | .unknown => directives version fuel
    | _ => pure ()

/-- What comes before a document that says where it begins. -/
def openDocument (fuel : Nat) : NodeReader Unit := do
  modify fun r => { r with handles := [] }
  directives false fuel
  modify fun r => { r with handles := Assoc.merge defaultHandles r.handles }
  let token ← peek
  match token.kind with
  | .documentStart =>
    let _ ← next
  | kind =>
    fail (.plain ("expected '<document start>', but found " ++ Text.quoted kind.shown) token.start)

/-- Skips the signs for the end of a document. -/
def skipEnds : Nat → NodeReader Unit
  | 0 => pure ()
  | fuel + 1 => do
    if ← sees [.documentEnd] then
      let _ ← next
      skipEnds fuel

/-- The root of the only document, if the text holds one. -/
def document (fuel : Nat) : NodeReader (Option NodeRef) := do
  let first ← peek
  let explicit := first.kind.isDirective || first.kind = .documentStart
  if first.kind = .streamEnd then return none
  if explicit then openDocument fuel else modify fun r => { r with handles := defaultHandles }
  let token ← peek
  let isEmpty := explicit && (token.kind.isDirective
    || [.documentStart, .documentEnd, .streamEnd].contains token.kind)
  let root ← if isEmpty then addEmpty token.start else node true false fuel
  skipEnds fuel
  let last ← peek
  if last.kind ≠ .streamEnd then
    let start := ((← get).nodes[root]?.map (·.start)).getD {}
    openDocument fuel
    fail (.within "expected a single document in the stream" start "but found another document"
      last.start)
  return some root

end Reading

end SyntaxForest.Yaml
