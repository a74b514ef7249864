import SyntaxForest.Log.Event
import SyntaxForest.Text.LetterCase

/-!
Logging to a console.

Until it is set up, the console shows nothing. Setting it up chooses the least level shown; one
family of loggers keeps a level of its own. Loggers carry fields that they add to what is logged
through them; a scope adds fields for a while and puts the earlier ones back at its end.
-/

namespace SyntaxForest

/-- A named logger with the fields it adds. -/
structure Logger where
  name : String
  extra : Assoc String Datum := []

/-- Fields added to a logger for a while. -/
structure LogScope where
  logger : Nat
  context : Assoc String Datum
  /-- The fields the logger had when the scope began, once it has begun. -/
  earlier : Option (Assoc String Datum) := none

/-- The console, the loggers made so far and the scopes begun. -/
structure Console where
  /-- The least level shown, once the console is set up. -/
  level : Option Int := none
  loggers : Array Logger := #[]
  scopes : Array LogScope := #[]

namespace Console

/-- The level in force before the console is set up. -/
def initialLevel : Int := LogRecord.warning

/-- The family of loggers that keeps a level of its own. -/
def quietFamily : String := "asyncio"

def quietLevel : Int := LogRecord.warning

/-- The level chosen by a name in any letter case. -/
def levelNamed (name : String) : Except Fault Int :=
  let upper := Text.upperCase name
  match Assoc.get? LogRecord.levelsByName upper with
  | some level => .ok level
  | none => .error (.badValue ("Unknown level: " ++ Text.quoted upper))

/-- Sets the console up with the level of this name. -/
def setUp (c : Console) (level : String) : Except Fault Console :=
  (levelNamed level).map fun n => { c with level := some n }

/-- Sets the console up with a level that is given as a plain value, the configured one if it is
nothing. -/
def setUpGiven (c : Console) (configured : String) : Datum → Except Fault Console
  | .null => c.setUp configured
  | .text level => c.setUp level
  | _ => .error (.noAttribute "a level is given by its name")

/-- The names around a name that is given backwards: what stands before one of its dots, the longest
first. The character next to a dot that was found is passed over, and a dot at the beginning does
not count. -/
def outerNames (looking : Bool) : List Char → List String
  | c :: d :: rest =>
    if looking && c = '.' then String.ofList (d :: rest).reverse :: outerNames false (d :: rest)
    else outerNames true (d :: rest)
  | _ => []

/-- The logger that a logger takes its level from: of the names around its own the first that is one
of the loggers made. -/
def outerLogger? (c : Console) (name : String) : Option String :=
  (outerNames true name.toList.reverse).find? fun outer =>
    outer = quietFamily || c.loggers.any (·.name = outer)

/-- The logger belongs to the quiet family: its head is among the loggers around it, at most `fuel`
of them. -/
def isQuietWithin (c : Console) : Nat → String → Bool
  | 0, name => name = quietFamily
  | fuel + 1, name => name = quietFamily || (c.outerLogger? name).any (c.isQuietWithin fuel)

def isQuiet (c : Console) (name : String) : Bool := c.isQuietWithin name.length name

/-- The least level a logger lets through. -/
def threshold (c : Console) (name : String) : Int :=
  match c.level with
  | none => initialLevel
  | some level => if c.isQuiet name then quietLevel else level

/-- A logger lets an event through. Levels up to zero never pass. -/
def lets (c : Console) (name : String) (level : Int) : Bool :=
  0 < level && c.threshold name ≤ level

/-- The name a logger is shown by. -/
def shownName (name : String) : String := if name = "" then "root" else name

/-- Logs an event through a logger: the lines the console shows. A record whose fields clash is
refused; one whose message cannot be formed is not shown. -/
def log (c : Console) (timestamp : String) (logger : Logger) (event : LogEvent) :
    Except Fault (List String) :=
  if !c.lets logger.name event.level then .ok []
  else do
    let record := event.record (shownName logger.name) logger.extra
    LogRecord.check record.extra
    match c.level with
    | some level =>
      if level ≤ event.level then return (record.line timestamp).toOption.toList else return []
    | none => return []

/-- The fields given for a record. -/
def fieldsGiven : Datum → Except Fault (Assoc String Datum)
  | .record fields => .ok fields
  | _ => .error (.badType "the fields are no record")

/-- Logs a message at a level and with further fields that are given as plain values. A level that
is no number is refused, and so are fields of a message let through that are no record. At a level
that is a floating-point number nothing is ever shown. -/
def logGiven (c : Console) (timestamp : String) (logger : Logger) (level message extra : Datum)
    (values : List Datum) : Except Fault (List String) :=
  let logAt (n : Int) : Except Fault (List String) :=
    if !c.lets logger.name n then .ok []
    else do
      let fields ← fieldsGiven extra
      let label ← LogRecord.labelOf level
      c.log timestamp logger { level := n, label := some label, message, values, extra := fields }
  match level with
  | .int n => logAt n
  | .bool b => logAt (if b then 1 else 0)
  | .float x =>
    if 0 < x && Float.ofInt (c.threshold logger.name) ≤ x then (fieldsGiven extra).map fun _ => []
    else .ok []
  | _ => .error (.badType "level must be a number")

/-- Refuses fields with the name of a parameter. -/
def checkNames (parameters : List String) (context : Assoc String Datum) : Except Fault Unit :=
  if context.any fun entry => parameters.contains entry.1 then
    .error (.badType "got multiple values for an argument")
  else .ok ()

/-- Makes a logger with fields of its own. -/
def addLogger (c : Console) (logger : Logger) : Console × Nat :=
  ({ c with loggers := c.loggers.push logger }, c.loggers.size)

/-- The name of a logger that is given as plain data; what counts as not given names the root. -/
def nameGiven : Datum → Except Fault String
  | .text name => .ok name
  | d => if d.isGiven then .error (.badType "A logger name must be a string") else .ok ""

def getLogger (c : Console) (name : String) (context : Assoc String Datum) :
    Except Fault (Console × Nat) := do
  checkNames ["name"] context
  return c.addLogger { name, extra := context }

def logger (c : Console) (id : Nat) : Logger := c.loggers.getD id { name := "" }

/-- A new logger with the fields of another one and more. -/
def withContext (c : Console) (id : Nat) (context : Assoc String Datum) :
    Except Fault (Console × Nat) := do
  checkNames ["self"] context
  let base := c.logger id
  return c.addLogger { base with extra := Assoc.merge base.extra context }

/-- Prepares a scope that will add fields to a logger. -/
def addScope (c : Console) (id : Nat) (context : Assoc String Datum) :
    Except Fault (Console × Nat) := do
  checkNames ["self", "logger"] context
  return ({ c with scopes := c.scopes.push { logger := id, context } }, c.scopes.size)

/-- Begins a scope. -/
def enter (c : Console) (scope : Nat) : Console :=
  match c.scopes[scope]? with
  | none => c
  | some s =>
    let earlier := (c.logger s.logger).extra
    { c with
      loggers := c.loggers.modify s.logger fun l =>
        { l with extra := Assoc.merge earlier s.context }
      scopes := c.scopes.modify scope fun s => { s with earlier := some earlier } }

/-- Ends a scope: the logger gets back the fields it had at the scope's beginning. -/
def exit (c : Console) (scope : Nat) : Console :=
  match c.scopes[scope]? with
  | none => c
  | some s =>
    match s.earlier with
    | none => c
    | some earlier =>
      { c with loggers := c.loggers.modify s.logger fun l => { l with extra := earlier } }

end Console

end SyntaxForest
