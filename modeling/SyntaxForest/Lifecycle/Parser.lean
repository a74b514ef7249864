import SyntaxForest.Lifecycle.Engine
import SyntaxForest.Lifecycle.Stage
import SyntaxForest.Log.Event
import SyntaxForest.Registry.LanguageConfig

/-!
Parsers: an engine with a stage of life.
-/

namespace SyntaxForest

/-- The identity of a parser. -/
abbrev ParserId := Nat

/-- The identity of a collector of counts and times. -/
abbrev CollectorId := Nat

/-- A parser for one language. -/
structure Parser where
  name : String
  language : String
  collector : Option CollectorId := none
  engine : Engine
  stage : Stage := .uninitialized
  /-- The grammar is loaded and not yet let go. -/
  grammarLoaded : Bool := false
  tally : Tally := {}
  /-- The registry and the entry of it that the parser was built for, if it was built for one. -/
  origin : Option (RegistryId × Registration) := none

namespace Parser

/-- The parser that a blueprint describes, which has to name a language. -/
def ofBlueprint (b : Blueprint) (collector : Option CollectorId) : Except Fault Parser :=
  if b.language = "" then .error (.badValue "language is required")
  else
    .ok { name := b.name, language := b.language, engine := b.engine,
          collector := if b.counts then collector else none }

def isDisposed (p : Parser) : Bool := p.stage = .disposed

def isInitialized (p : Parser) : Bool := p.stage = .initialized

/-- The fault of using the parser after its disposal. -/
def disposedFault (p : Parser) : Fault := .disposed (.text p.name)

/-- Moves the parser to a stage that can follow its own. -/
def moveTo (p : Parser) (target : Stage) : Except Fault Parser :=
  if p.stage.successors.contains target then .ok { p with stage := target }
  else
    .error (.ofText .badTransition
      (p.name ++ " cannot move from " ++ p.stage.name ++ " to " ++ target.name))

/-- The engine's grammar is let go. -/
def releaseEngine (p : Parser) : Parser :=
  { p with
    grammarLoaded := false
    tally := { p.tally with disposals := p.tally.disposals + 1 } }

/-- A load of the grammar begins. -/
def startLoad (p : Parser) : Parser :=
  let loading := p.tally.loading + 1
  { p with tally := { p.tally with
      loads := p.tally.loads + 1, loading, loadPeak := max p.tally.loadPeak loading } }

/-- A load of the grammar ends. -/
def endLoad (p : Parser) (result : Except Fault Unit) : Parser :=
  let tally := { p.tally with loading := p.tally.loading - 1 }
  match result with
  | .ok () => { p with grammarLoaded := true, tally := { tally with loaded := tally.loaded + 1 } }
  | .error fault =>
    if fault.isOutOfMemory then { p with tally := { tally with exhausted := tally.exhausted + 1 } }
    else { p with tally }

/-- A parse by the engine begins. -/
def startParse (p : Parser) : Parser :=
  let active := p.tally.active + 1
  let grounded := if p.isInitialized && p.grammarLoaded then p.tally.grounded + 1
    else p.tally.grounded
  { p with tally := { p.tally with
      parses := p.tally.parses + 1, grounded, active, peak := max p.tally.peak active } }

/-- A parse by the engine ends. -/
def endParse (p : Parser) : Parser :=
  { p with tally := { p.tally with active := p.tally.active - 1 } }

/-- The name of the parser's logger. -/
def loggerName (p : Parser) : String := "parsers.base." ++ p.name

/-- The record of an event in the parser's life. -/
def logRecord (p : Parser) (e : LogEvent) : LogRecord :=
  e.record p.loggerName [("language", .text p.language)]

/-- The record of a change of stage. -/
def transitionRecord (p : Parser) (target : Stage) : LogRecord :=
  p.logRecord (.transition (.text p.language) (.text p.stage.name) (.text target.name))

/-- The record of a message for those who look for errors. -/
def debugRecord (p : Parser) (message : String) : LogRecord :=
  p.logRecord (.plain LogRecord.debug message)

/-- The parser in a line. -/
def shown (p : Parser) : String :=
  p.name ++ "(language=" ++ Text.quoted p.language ++ ", state=" ++ p.stage.name ++ ")"

end Parser

end SyntaxForest
