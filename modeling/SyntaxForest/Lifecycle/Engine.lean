import SyntaxForest.Native.Growth
import SyntaxForest.ParseResult
import SyntaxForest.Tree.SyntaxTree

/-!
Engines: the part of a parser that depends on its language.

An engine loads a grammar and parses source text with it. Both may have to wait, for a gate to open
or for a worker to get done. How a load or a parse ends is asked when the wait is over.
-/

namespace SyntaxForest

/-- What a piece of work waits for before it ends. -/
inductive Pause where
  | none
  /-- A gate, which may be open. -/
  | gate (name : String)
  /-- Work done elsewhere, which takes its time. -/
  | worker
deriving DecidableEq, Repr

/-- The part of a parser that depends on its language. -/
structure Engine where
  loadPause : Pause := .none
  /-- How the load of the grammar ends. -/
  load : Except Fault Unit := .ok ()
  /-- The engine cannot parse without a loaded grammar. -/
  bindsGrammar : Bool := false
  parsePause : Pause := .none
  /-- The forest that parsing a source text gives; its root has id zero, an empty one has no
  root. -/
  parse : NativeReply → String → Option String → Except Fault Forest := fun _ _ _ => .ok {}
  /-- An engine may answer parses itself, without loading or waiting. -/
  answer : Option (Option String → Option String → Except Fault (ParseResult SyntaxTree)) := none

namespace Engine

/-- The engine that scans source text with a native grammar, loaded and run by a worker. -/
def native (settings : GrowthSettings) (load : Except Fault Unit) : Engine where
  loadPause := .worker
  load := load
  bindsGrammar := true
  parsePause := .worker
  parse := fun reply source _ => reply.forest settings source

end Engine

/-- What a parser is built from. -/
structure Blueprint where
  /-- The name of the kind of parser, shown in messages. -/
  name : String
  language : String
  engine : Engine
  /-- The parser counts its work in the collector it is offered. -/
  counts : Bool := true

/-- How often an engine was used. -/
structure Tally where
  loads : Nat := 0
  /-- Loads under way. -/
  loading : Nat := 0
  /-- The most loads that were under way at once. -/
  loadPeak : Nat := 0
  /-- Loads that succeeded. -/
  loaded : Nat := 0
  /-- Loads for which memory ran out. -/
  exhausted : Nat := 0
  parses : Nat := 0
  /-- Parses that began in an initialized parser with its grammar loaded. -/
  grounded : Nat := 0
  disposals : Nat := 0
  /-- Parses under way. -/
  active : Nat := 0
  /-- The most parses that were under way at once. -/
  peak : Nat := 0
deriving DecidableEq, Repr

end SyntaxForest
