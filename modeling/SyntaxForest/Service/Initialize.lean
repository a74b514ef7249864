import SyntaxForest.Service.Basic

/-!
Initializing and disposing of a parser.

Only one task at a time loads the grammar of a parser; the others wait and find it loaded. A load
that fails leads the parser back to its first stage. A parser that is disposed of while its grammar
loads lets the grammar go when the load ends.
-/

namespace SyntaxForest.Service

open SyntaxForest

/-- Moves a parser to another stage and logs it. -/
def moveParser (s : Service) (p : ParserId) (target : Stage) : Except Fault Service :=
  match s.parser? p with
  | none => .ok s
  | some parser =>
    match parser.moveTo target with
    | .error e => .error e
    | .ok moved =>
      .ok ((s.modifyParser p fun _ => moved).write (parser.transitionRecord target))

/-- Disposes of a parser; the grammar of an initialized one is let go. -/
def disposeParser (s : Service) (p : ParserId) : Service :=
  match s.parser? p with
  | none => s
  | some parser =>
    if parser.isDisposed then s
    else
      match s.moveParser p .disposed with
      | .error _ => s
      | .ok moved =>
        if parser.isInitialized then
          (moved.write (parser.debugRecord
            ("Disposing " ++ parser.language ++ " parser"))).modifyParser
            p Parser.releaseEngine
        else moved

/-- Ends an initialization that holds its lock. -/
def leaveInit (s : Service) (p : ParserId) (result : Except Fault Unit) :
    Service × Run InitPoint Unit :=
  (s.release (.lifecycle p), .finished result)

/-- A load failed: the parser goes back to its first stage, unless memory ran out. -/
def failLoad (s : Service) (p : ParserId) (parser : Parser) (fault : Fault) :
    Service × Run InitPoint Unit :=
  if fault.isOutOfMemory then s.leaveInit p (.error fault)
  else
    let back :=
      if parser.stage = .initializing then
        match s.moveParser p .uninitialized with
        | .ok moved => moved
        | .error _ => s
      else s
    let logged :=
      if fault.isFailure then
        back.write (parser.logRecord (.failure
          (.text ("Failed to initialize " ++ parser.language ++ " parser")) fault
          [("language", .text parser.language)]))
      else back
    logged.leaveInit p (.error fault)

/-- A load succeeded: the parser is initialized, unless it was disposed of meanwhile. -/
def finishLoad (s : Service) (p : ParserId) (parser : Parser) (event : Option String) :
    Service × Run InitPoint Unit :=
  if parser.isDisposed then
    (s.modifyParser p Parser.releaseEngine).leaveInit p (.error parser.disposedFault)
  else
    match s.moveParser p .initialized with
    | .error e => s.leaveInit p (.error e)
    | .ok moved =>
      let logged := moved.write
        (parser.debugRecord ("Successfully initialized " ++ parser.language ++ " parser"))
      logged.leaveInit p (if logged.isSet event then .error .cancelled else .ok ())

/-- What the load of a parser's grammar gives. -/
def loadResult (parser : Parser) : Signal → Except Fault Unit
  | .cancel => .error .cancelled
  | .proceed => parser.engine.load

/-- The load of the grammar ends. -/
def endLoad (s : Service) (p : ParserId) (event : Option String) (signal : Signal) :
    Service × Run InitPoint Unit :=
  match s.parser? p with
  | none => s.leaveInit p (.ok ())
  | some parser =>
    let timed := s.count parser fun c => c.recordInitialization parser.language s.elapsed
    let result := loadResult parser signal
    let ended := timed.modifyParser p (·.endLoad result)
    match result with
    | .error fault => ended.failLoad p parser fault
    | .ok () => ended.finishLoad p parser event

/-- The load of the grammar begins. -/
def startLoad (s : Service) (task : TaskId) (p : ParserId) (parser : Parser)
    (event : Option String) :
    Service × Run InitPoint Unit :=
  match (s.modifyParser p Parser.startLoad).pauseAt task parser.engine.loadPause with
  | (paused, some wait) => (paused, .waiting .load wait)
  | (going, none) => going.endLoad p event .proceed

/-- An initialization has its lock. -/
def initLocked (s : Service) (task : TaskId) (p : ParserId) (event : Option String) :
    Service × Run InitPoint Unit :=
  match s.parser? p with
  | none => s.leaveInit p (.ok ())
  | some parser =>
    if parser.isDisposed then s.leaveInit p (.error parser.disposedFault)
    else if parser.isInitialized then s.leaveInit p (.ok ())
    else if s.isSet event then s.leaveInit p (.error .cancelled)
    else
      match s.moveParser p .initializing with
      | .error e => s.leaveInit p (.error e)
      | .ok moved =>
        (moved.write (parser.debugRecord
          ("Initializing " ++ parser.language ++ " parser"))).startLoad
          task p parser event

/-- An initialization begins. -/
def beginInit (s : Service) (task : TaskId) (p : ParserId) (event : Option String) :
    Service × Run InitPoint Unit :=
  match s.parser? p with
  | none => (s, .finished (.ok ()))
  | some parser =>
    if parser.isDisposed then (s, .finished (.error parser.disposedFault))
    else if parser.isInitialized then (s, .finished (.ok ()))
    else
      match s.acquire (.lifecycle p) task with
      | (locked, true) => locked.initLocked task p event
      | (queued, false) => (queued, .waiting .lock (.lock (.lifecycle p)))

/-- An initialization goes on after a wait. -/
def resumeInit (s : Service) (task : TaskId) (p : ParserId) (event : Option String)
    (point : InitPoint) (signal : Signal) : Service × Run InitPoint Unit :=
  match point, signal with
  | .lock, .proceed => s.initLocked task p event
  | .lock, .cancel => (s, .finished (.error .cancelled))
  | .load, signal => s.endLoad p event signal

end SyntaxForest.Service
