import SyntaxForest.Service.Initialize

/-!
Parsing with one parser.

A parser is initialized when it is first used. Its engine parses one text at a time. Failures of the
initialization and of the engine become failed results; disposal, cancellation and lack of memory do
not. Neither does a failure that cannot be written: the fault of writing it is raised.
-/

namespace SyntaxForest.Service

open SyntaxForest

/-- The message for a source that is missing or empty. -/
def emptySourceMessage : String := "Source code cannot be null or empty"

/-- A failed result of this parser for this request. -/
def failedParse (parser : Parser) (request : ParseRequest) (message : String) :
    ParseResult SyntaxTree :=
  .fail
    { message := .text message, file := .ofText? request.file, language := .text parser.language }

/-- The faults that a parse does not turn into a failed result. -/
def escapes (fault : Fault) : Bool :=
  fault.isOutOfMemory || fault.isDisposed || !fault.isFailure

/-- The engine failed. The parse is counted before the fault is written, which may fail in turn. -/
def failEngine (s : Service) (parser : Parser) (request : ParseRequest) (fault : Fault) :
    Service × Run ParsePoint (ParseResult SyntaxTree) :=
  if escapes fault then (s, .finished (.error fault))
  else
    let counted := s.count parser fun c => c.recordParse parser.language s.elapsed false 0
    match fault.written with
    | .error unwritten => (counted, .finished (.error unwritten))
    | .ok text =>
      let logged := counted.write (parser.logRecord (.parse {
        language := .text parser.language, file := .ofText? request.file, duration := s.elapsed,
        error := some (.text text) }))
      (logged, .finished (.ok (failedParse parser request ("Parsing failed: " ++ text))))

/-- The engine returned a forest: the tree is made, unless the request was cancelled. -/
def finishEngine (s : Service) (parser : Parser) (request : ParseRequest) (forest : Forest) :
    Service × Run ParsePoint (ParseResult SyntaxTree) :=
  if s.isSet request.event then (s, .finished (.error .cancelled))
  else
    let root := if forest.size = 0 then none else some 0
    match SyntaxTree.make forest root request.source (some parser.language) request.file with
    | .error e => (s, .finished (.error e.fault))
    | .ok tree =>
      let metrics := tree.metrics
      let counted := s.count parser fun c =>
        c.recordParse parser.language s.elapsed true metrics.totalNodes
      let logged := counted.write (parser.logRecord (.parse {
        language := .text parser.language, file := .ofText? request.file, duration := s.elapsed,
        nodeCount := some (.int metrics.totalNodes),
        errorCount := some (.int metrics.errorCount) }))
      (logged, .finished (.ok (.ok tree)))

/-- What the engine of a parser returns for a request. -/
def engineResult (s : Service) (parser : Parser) (request : ParseRequest) : Signal →
    Except Fault Forest
  | .cancel => .error .cancelled
  | .proceed => parser.engine.parse s.native (request.source.getD "") request.file

/-- The engine gets done: its lock is released, then its result is looked at. -/
def endEngine (s : Service) (p : ParserId) (parser : Parser) (request : ParseRequest)
    (result : Except Fault Forest) : Service × Run ParsePoint (ParseResult SyntaxTree) :=
  let free := (s.modifyParser p Parser.endParse).release (.parsing p)
  match result with
  | .error fault => free.failEngine parser request fault
  | .ok forest => free.finishEngine parser request forest

/-- The fault of parsing without a grammar. -/
def noGrammar (parser : Parser) : Fault :=
  .ofText .runtime (parser.language ++ " parser has no loaded grammar")

/-- A parse has the lock of the engine. -/
def parseLocked (s : Service) (task : TaskId) (p : ParserId) (request : ParseRequest) :
    Service × Run ParsePoint (ParseResult SyntaxTree) :=
  match s.parser? p with
  | none => (s.release (.parsing p), .finished (.error .cancelled))
  | some parser =>
    if parser.isDisposed then
      (s.release (.parsing p), .finished (.error parser.disposedFault))
    else
      let entered := s.modifyParser p Parser.startParse
      if parser.engine.bindsGrammar && !parser.grammarLoaded then
        entered.endEngine p parser request (.error (noGrammar parser))
      else
        match entered.pauseAt task parser.engine.parsePause with
        | (paused, some wait) => (paused, .waiting .engine wait)
        | (going, none) =>
          going.endEngine p parser request (going.engineResult parser request .proceed)

/-- The parser is initialized: the engine is asked for, unless the request was cancelled. -/
def parseReady (s : Service) (task : TaskId) (p : ParserId) (request : ParseRequest) :
    Service × Run ParsePoint (ParseResult SyntaxTree) :=
  if s.isSet request.event then (s, .finished (.error .cancelled))
  else
    match s.acquire (.parsing p) task with
    | (locked, true) => locked.parseLocked task p request
    | (queued, false) => (queued, .waiting .lock (.lock (.parsing p)))

/-- The initialization that a parse began has come to something. -/
def parseInitialized (s : Service) (task : TaskId) (p : ParserId) (request : ParseRequest)
    (run : Run InitPoint Unit) : Service × Run ParsePoint (ParseResult SyntaxTree) :=
  match run with
  | .waiting point wait => (s, .waiting (.init point) wait)
  | .finished (.ok ()) => s.parseReady task p request
  | .finished (.error fault) =>
    if escapes fault then (s, .finished (.error fault))
    else
      match s.parser? p with
      | none => (s, .finished (.error fault))
      | some parser =>
        (s, .finished (fault.written.map fun text =>
          failedParse parser request ("Initialization failed: " ++ text)))

/-- The request has no text. -/
def ParseRequest.isEmpty (request : ParseRequest) : Bool := request.source.all (· = "")

/-- A parse begins. -/
def beginParse (s : Service) (task : TaskId) (p : ParserId) (request : ParseRequest) :
    Service × Run ParsePoint (ParseResult SyntaxTree) :=
  match s.parser? p with
  | none => (s, .finished (.error .cancelled))
  | some parser =>
    match parser.engine.answer with
    | some answer => (s, .finished (answer request.source request.file))
    | none =>
      if parser.isDisposed then (s, .finished (.error parser.disposedFault))
      else if ParseRequest.isEmpty request then
        (s, .finished (.ok (failedParse parser request emptySourceMessage)))
      else if parser.isInitialized then s.parseReady task p request
      else
        let (begun, run) := s.beginInit task p request.event
        begun.parseInitialized task p request run

/-- A parse goes on after a wait. -/
def resumeParse (s : Service) (task : TaskId) (p : ParserId) (request : ParseRequest)
    (point : ParsePoint) (signal : Signal) : Service × Run ParsePoint (ParseResult SyntaxTree) :=
  match point with
  | .init initPoint =>
    let (resumed, run) := s.resumeInit task p request.event initPoint signal
    resumed.parseInitialized task p request run
  | .lock =>
    match signal with
    | .proceed => s.parseLocked task p request
    | .cancel => (s, .finished (.error .cancelled))
  | .engine =>
    match s.parser? p with
    | none => (s, .finished (.error .cancelled))
    | some parser => s.endEngine p parser request (s.engineResult parser request signal)

end SyntaxForest.Service
