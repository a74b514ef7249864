import SyntaxForest.Service.FacadeCall

/-!
Running tasks.

`step` lets one ready task run up to its next wait, and `finishWork` ends the wait of a task for its
worker. Which task runs and which worker gets done next is free; `settle` takes the first ready
task, again and again, and lets the worker that has been at work longest get done when no task is
ready.
-/

namespace SyntaxForest.Service

open SyntaxForest

/-- Stores where a task stands. -/
def setTask (s : Service) (task : TaskId) (status : TaskStatus) : Service :=
  { s with tasks := s.tasks.modify task fun _ => status }

/-- The service after a run, with the task at its next wait or at its end. -/
def settleRun {π α : Type} (task : TaskId) (frame : π → Frame)
    (finish : Service → Except Fault α → Service × Except Fault Outcome) (r : Service × Run π α) :
    Service :=
  match r.2 with
  | .waiting point wait => r.1.setTask task (.waiting (frame point) wait none)
  | .finished result =>
    let (after, outcome) := finish r.1 result
    after.setTask task (.finished outcome)

/-- An initialization ends a call of its own. -/
def finishInit (s : Service) (result : Except Fault Unit) : Service × Except Fault Outcome :=
  (s, result.map fun _ => .done)

def finishParse (s : Service) (result : Except Fault (ParseResult SyntaxTree)) :
    Service × Except Fault Outcome :=
  (s, result.map .parsed)

def finishGet (s : Service) (result : Except Fault (Option ParserId)) :
    Service × Except Fault Outcome :=
  (s, result.map .parser)

/-- The parser is initialized: the body of the scope runs, then the parser is disposed of. -/
def finishScope (p : ParserId) (body : Option Fault) (s : Service) (result : Except Fault Unit) :
    Service × Except Fault Outcome :=
  match result with
  | .error fault => (s, .error fault)
  | .ok () =>
    let stage := ((s.parser? p).map (·.stage)).getD .disposed
    (s.disposeParser p, match body with
      | some fault => .error fault
      | none => .ok (.used stage))

def finishFacade (f : Facade) (goal : FacadeGoal) (request : ParseRequest) (s : Service)
    (result : Except Fault (ParseResult SyntaxTree)) : Service × Except Fault Outcome :=
  match result with
  | .error fault => (s, .error fault)
  | .ok parsed => s.answerGoal f goal request parsed

/-- A task begins its call. -/
def start (s : Service) (task : TaskId) : Call → Service
  | .init p event =>
    settleRun task (.init p event) finishInit (s.beginInit task p event)
  | .parse p request => settleRun task (.parse p request) finishParse (s.beginParse task p request)
  | .scoped p body => settleRun task (.scoped p body) (finishScope p body) (s.beginInit task p none)
  | .getParser r language =>
    settleRun task (.getParser r (language.getD "")) finishGet (s.beginGet task r language)
  | .facade f goal request =>
    settleRun task (.facade f goal request) (finishFacade f goal request)
      (s.beginFacadeParse task f request)

/-- A task goes on with its call. -/
def resume (s : Service) (task : TaskId) (signal : Signal) : Frame → Service
  | .init p event point =>
    settleRun task (.init p event) finishInit (s.resumeInit task p event point signal)
  | .parse p request point =>
    settleRun task (.parse p request) finishParse (s.resumeParse task p request point signal)
  | .scoped p body point =>
    settleRun task (.scoped p body) (finishScope p body) (s.resumeInit task p none point signal)
  | .getParser r language point =>
    settleRun task (.getParser r language) finishGet (s.resumeGet task r language point signal)
  | .facade f goal request point =>
    settleRun task (.facade f goal request) (finishFacade f goal request)
      (s.resumeFacadeParse task f request point signal)

/-- Lets a ready task run up to its next wait. A task that is not ready does nothing. -/
def step (s : Service) (task : TaskId) : Service :=
  if !s.ready.contains task then s
  else
    let s : Service := { s with ready := s.ready.erase task }
    match s.tasks[task]? with
    | some (.fresh _ true) => s.setTask task (.finished (.error .cancelled))
    | some (.fresh call false) => s.start task call
    | some (.waiting frame wait (some signal)) =>
      (s.endWait task wait signal).resume task signal frame
    | _ => s

/-! ### What happens around the tasks -/

/-- Begins a task. -/
def spawn (s : Service) (call : Call) : Service × TaskId :=
  let task := s.tasks.size
  ({ s with tasks := s.tasks.push (.fresh call false), ready := s.ready ++ [task] }, task)

/-- Begins a task for each call, in order. -/
def spawnAll (s : Service) : List Call → Service × List TaskId
  | [] => (s, [])
  | call :: rest =>
    let (spawned, task) := s.spawn call
    let (after, tasks) := spawned.spawnAll rest
    (after, task :: tasks)

/-- Cancels a task: its wait ends with a cancellation. -/
def cancel (s : Service) (task : TaskId) : Service :=
  match s.tasks[task]? with
  | some (.fresh call _) => s.setTask task (.fresh call true)
  | some (.waiting _ wait none) =>
    let marked := match wait with
      | .lock id => s.setLock id ((s.lock id).cancel task)
      | _ => s
    marked.wake task .cancel
  | some (.waiting frame wait (some .proceed)) =>
    s.setTask task (.waiting frame wait (some .cancel))
  | _ => s

/-- Opens a gate; the tasks that wait at it go on, in the order in which they came. -/
def openGate (s : Service) (name : String) : Service :=
  let opened := { s with openGates := if s.openGates.contains name then s.openGates
    else name :: s.openGates }
  (s.atGates.filter (·.1 = name)).foldl (fun acc entry => acc.wake entry.2 .proceed) opened

def closeGate (s : Service) (name : String) : Service :=
  { s with openGates := s.openGates.filter (· ≠ name) }

def setEvent (s : Service) (event : String) : Service :=
  { s with events := if s.events.contains event then s.events else event :: s.events }

def clearEvent (s : Service) (event : String) : Service :=
  { s with events := s.events.filter (· ≠ event) }

/-- The worker that a task waits for gets done. -/
def finishWork (s : Service) (task : TaskId) : Service :=
  if s.atWorkers.contains task then
    { s with atWorkers := s.atWorkers.erase task }.wake task .proceed
  else s

/-- Lets the tasks run, the first ready one first, for at most `fuel` turns. -/
def settleWithin : Nat → Service → Service
  | 0, s => s
  | fuel + 1, s =>
    match s.ready with
    | task :: _ => settleWithin fuel (s.step task)
    | [] =>
      match s.atWorkers with
      | task :: _ => settleWithin fuel (s.finishWork task)
      | [] => s

/-- A bound on the turns that tasks can take: a call has at most four waits, each ended by one
turn. -/
def turns (s : Service) : Nat := 12 * (s.tasks.size + 1)

/-- Lets the tasks run until none can. -/
def settle (s : Service) : Service := settleWithin s.turns s

/-- What a task has come to, if it has ended. -/
def result? (s : Service) (task : TaskId) : Option (Except Fault Outcome) :=
  match s.tasks[task]? with
  | some (.finished result) => some result
  | _ => none

end SyntaxForest.Service
