import SyntaxForest.Declaration.Converter
import SyntaxForest.Lifecycle.Lock
import SyntaxForest.Metrics.Collector
import SyntaxForest.Registry.Basic
import SyntaxForest.Source.Folder

/-!
The service: parsers, registries and collectors, and the tasks that work on them.

Tasks take turns. A task runs until it has to wait, for a lock, a gate or a worker, and then another
task that is ready runs. What a task does between two waits is one step of the service.

A task that waits is described by a point: where in which call it stands. So the state of the
service is plain data, and every order in which ready tasks may run can be followed.
-/

namespace SyntaxForest

/-! ### Waiting -/

/-- The locks of the service. -/
inductive LockId where
  /-- Guards the stage of a parser while its grammar loads. -/
  | lifecycle (parser : ParserId)
  /-- Guards the engine of a parser. -/
  | parsing (parser : ParserId)
  /-- Guards the parsers of a registry. -/
  | registry (registry : RegistryId)
deriving DecidableEq, Repr

/-- What a task waits for. -/
inductive Wait where
  | lock (id : LockId)
  | gate (name : String)
  | worker
deriving DecidableEq, Repr

/-- How a wait ends. -/
inductive Signal where
  | proceed
  | cancel
deriving DecidableEq, Repr

/-- What running a call up to its next wait comes to. -/
inductive Run (π α : Type) where
  | waiting (point : π) (wait : Wait)
  | finished (result : Except Fault α)

/-! ### Calls and the points where they wait -/

/-- Where an initialization waits. -/
inductive InitPoint where
  | lock
  | load
deriving DecidableEq, Repr

/-- Where a parse waits. -/
inductive ParsePoint where
  | init (point : InitPoint)
  | lock
  | engine
deriving DecidableEq, Repr

/-- Where asking a registry for a parser waits. -/
inductive GetPoint where
  | lock
  /-- The parser built for this entry is being initialized. -/
  | init (registration : Registration) (parser : ParserId) (point : InitPoint)

/-- Where a call through the facade waits. -/
inductive FacadePoint where
  | get (point : GetPoint)
  | parse (parser : ParserId) (point : ParsePoint)

/-- A request to parse: the text, its file, and the event that cancels it. -/
structure ParseRequest where
  source : Option String
  file : Option String := none
  event : Option String := none

/-- What a caller of the facade wants to know. -/
inductive FacadeGoal where
  | tree
  | declarations
  | validity
  | errors
deriving DecidableEq, Repr

/-- A registry seen as a parser for one language. -/
structure Facade where
  registry : RegistryId
  language : String
deriving DecidableEq, Repr

/-- The calls that can wait. -/
inductive Call where
  | init (parser : ParserId) (event : Option String)
  | parse (parser : ParserId) (request : ParseRequest)
  /-- Uses the parser in a scope, at whose end it is disposed of; the body may fail. -/
  | scoped (parser : ParserId) (body : Option Fault)
  | getParser (registry : RegistryId) (language : Option String)
  | facade (facade : Facade) (goal : FacadeGoal) (request : ParseRequest)

/-- A call that waits, and where. -/
inductive Frame where
  | init (parser : ParserId) (event : Option String) (point : InitPoint)
  | parse (parser : ParserId) (request : ParseRequest) (point : ParsePoint)
  | scoped (parser : ParserId) (body : Option Fault) (point : InitPoint)
  | getParser (registry : RegistryId) (language : String) (point : GetPoint)
  | facade (facade : Facade) (goal : FacadeGoal) (request : ParseRequest) (point : FacadePoint)

/-- What a call returns. -/
inductive Outcome where
  | done
  | parsed (result : ParseResult SyntaxTree)
  /-- The stage of the parser inside the scope. -/
  | used (stage : Stage)
  | parser (id : Option ParserId)
  | declared (result : ParseResult UnitDecl)
  | validated (result : ParseResult Bool)
  | diagnosed (result : ParseResult (List Diagnostic))

/-- Where a task stands. -/
inductive TaskStatus where
  /-- Not begun; it may have been cancelled already. -/
  | fresh (call : Call) (cancelled : Bool)
  /-- Waiting; once there is a signal the task is ready to go on. -/
  | waiting (frame : Frame) (wait : Wait) (signal : Option Signal)
  | finished (result : Except Fault Outcome)

/-! ### The service -/

structure Service where
  parsers : Array Parser := #[]
  collectors : Array Collector := #[]
  registries : Array Registry := #[]
  locks : Assoc LockId Lock := []
  tasks : Array TaskStatus := #[]
  /-- The tasks that can run, the first one first. -/
  ready : List TaskId := []
  openGates : List String := []
  /-- The tasks that wait at gates, in the order in which they came. -/
  atGates : List (String × TaskId) := []
  /-- The tasks that wait for a worker, in the order in which they began to. -/
  atWorkers : List TaskId := []
  /-- The events that are set. -/
  events : List String := []
  /-- What the native scanner replies. -/
  native : NativeReply := .tree none
  /-- What a clock shows for every stretch of work that is timed, in milliseconds. -/
  elapsed : Float := 0.0
  /-- Configuration files. -/
  folder : Folder := {}
  log : Array LogRecord := #[]

namespace Service

/-! ### Parsers, collectors and the log -/

def parser? (s : Service) (p : ParserId) : Option Parser := s.parsers[p]?

def modifyParser (s : Service) (p : ParserId) (change : Parser → Parser) : Service :=
  { s with parsers := s.parsers.modify p change }

/-- Adds a parser. -/
def addParser (s : Service) (parser : Parser) : Service × ParserId :=
  ({ s with parsers := s.parsers.push parser }, s.parsers.size)

def addCollector (s : Service) : Service × CollectorId :=
  ({ s with collectors := s.collectors.push {} }, s.collectors.size)

def write (s : Service) (record : LogRecord) : Service := { s with log := s.log.push record }

/-- Writes a record without further fields. -/
def noteData (s : Service) (level : Int) (logger : String) (message : Datum) : Service :=
  s.write (LogEvent.record { level, message } logger [])

def note (s : Service) (level : Int) (logger message : String) : Service :=
  s.noteData level logger (.text message)

/-- Changes the collector of a parser, if it has one. -/
def count (s : Service) (p : Parser) (change : Collector → Collector) : Service :=
  match p.collector with
  | some c => { s with collectors := s.collectors.modify c change }
  | none => s

def isSet (s : Service) (event : Option String) : Bool := event.any s.events.contains

/-! ### Locks and waits -/

def lock (s : Service) (id : LockId) : Lock := (Assoc.get? s.locks id).getD {}

def setLock (s : Service) (id : LockId) (l : Lock) : Service :=
  { s with locks := Assoc.set s.locks id l }

/-- Ends the wait of a task that has no signal yet, and makes it ready. -/
def wake (s : Service) (task : TaskId) (signal : Signal) : Service :=
  match s.tasks[task]? with
  | some (.waiting frame wait none) =>
    { s with
      tasks := s.tasks.modify task fun _ => .waiting frame wait (some signal)
      ready := s.ready ++ [task] }
  | _ => s

/-- Sets a lock and wakes the task that comes next, if there is one. -/
def setLockAndWake (s : Service) (id : LockId) (l : Lock × Option TaskId) : Service :=
  match l.2 with
  | some task => (s.setLock id l.1).wake task .proceed
  | none => s.setLock id l.1

/-- Takes a free lock, or puts the task in its queue. -/
def acquire (s : Service) (id : LockId) (task : TaskId) : Service × Bool :=
  let l := s.lock id
  if l.isFree then (s.setLock id l.take, true) else (s.setLock id (l.enqueue task), false)

def release (s : Service) (id : LockId) : Service := s.setLockAndWake id (s.lock id).release

/-- The wait of a task is over: it leaves the queue, and takes the lock it waited for unless it was
cancelled. -/
def endWait (s : Service) (task : TaskId) (wait : Wait) (signal : Signal) : Service :=
  match wait with
  | .gate _ => { s with atGates := s.atGates.filter (·.2 ≠ task) }
  | .worker => { s with atWorkers := s.atWorkers.filter (· ≠ task) }
  | .lock id =>
    let left := (s.lock id).leave task
    match signal with
    | .proceed => s.setLock id left.take
    | .cancel => if left.held then s.setLock id left else s.setLockAndWake id left.wakeFirst

/-- What a task has to wait for at a pause, and the service in which it waits. -/
def pauseAt (s : Service) (task : TaskId) : Pause → Service × Option Wait
  | .none => (s, none)
  | .gate name =>
    if s.openGates.contains name then (s, none)
    else ({ s with atGates := s.atGates ++ [(name, task)] }, some (.gate name))
  | .worker => ({ s with atWorkers := s.atWorkers ++ [task] }, some .worker)

end Service

end SyntaxForest
