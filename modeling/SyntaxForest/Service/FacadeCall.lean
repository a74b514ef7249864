import SyntaxForest.Service.GetParser
import SyntaxForest.Service.Parse

/-!
Parsing through a registry, for one language.

The facade asks its registry for the parser of its language and parses with it. A failure becomes a
failed result if it can be written; lack of memory and cancellation are passed on. From the result
of the parse it answers what its caller wants to know.
-/

namespace SyntaxForest.Service

open SyntaxForest

def facadeLogger : String := "parsers.code_parser"

def converterLogger : String := "polyast.converters.definition_converter"

/-- A failed result of the facade. -/
def failedFacade {α : Type} (f : Facade) (request : ParseRequest) (message : String) :
    ParseResult α :=
  .fail { message := .text message, file := .ofText? request.file, language := .text f.language }

/-- The faults that the facade passes on. -/
def passesOn (fault : Fault) : Bool := fault.isOutOfMemory || !fault.isFailure

/-- Tells the caller of a fault by a failed result, which opens with `opening`, and notes it. The
fault of writing it is raised in its place. -/
def tellFault {α : Type} (s : Service) (f : Facade) (request : ParseRequest) (work opening : String)
    (fault : Fault) :
    Service × Except Fault (ParseResult α) :=
  if passesOn fault then (s, .error fault)
  else
    match fault.written with
    | .error unwritten => (s, .error unwritten)
    | .ok text =>
      (s.note LogRecord.error facadeLogger
        ("Error " ++ work ++ " for language " ++ f.language ++ ": " ++ text),
        .ok (failedFacade f request (opening ++ text)))

/-- The parse behind the facade failed. -/
def failFacade (s : Service) (f : Facade) (request : ParseRequest) (fault : Fault) :
    Service × Run FacadePoint (ParseResult SyntaxTree) :=
  let (told, answer) := s.tellFault f request "parsing source code" "Parsing failed: " fault
  (told, .finished answer)

/-- The parse by the language's parser has come to something. -/
def facadeParsed (s : Service) (f : Facade) (request : ParseRequest) (p : ParserId)
    (run : Run ParsePoint (ParseResult SyntaxTree)) :
    Service × Run FacadePoint (ParseResult SyntaxTree) :=
  match run with
  | .waiting point wait => (s, .waiting (.parse p point) wait)
  | .finished (.ok result) => (s, .finished (.ok result))
  | .finished (.error fault) => s.failFacade f request fault

/-- Asking the registry has come to something. -/
def facadeGot (s : Service) (task : TaskId) (f : Facade) (request : ParseRequest)
    (run : Run GetPoint (Option ParserId)) : Service × Run FacadePoint (ParseResult SyntaxTree) :=
  match run with
  | .waiting point wait => (s, .waiting (.get point) wait)
  | .finished (.error fault) => s.failFacade f request fault
  | .finished (.ok none) =>
    (s, .finished (.ok
      (failedFacade f request ("No parser available for language '" ++ f.language ++ "'"))))
  | .finished (.ok (some p)) =>
    let (begun, run) := s.beginParse task p request
    begun.facadeParsed f request p run

/-- A parse through the facade begins. -/
def beginFacadeParse (s : Service) (task : TaskId) (f : Facade) (request : ParseRequest) :
    Service × Run FacadePoint (ParseResult SyntaxTree) :=
  if ParseRequest.isEmpty request then
    (s, .finished (.ok (failedFacade f request emptySourceMessage)))
  else
    let noted := s.note LogRecord.debug facadeLogger
      ("Parsing source code for language " ++ f.language)
    let (asked, run) := noted.beginGet task f.registry (some f.language)
    asked.facadeGot task f request run

/-- A parse through the facade goes on after a wait. -/
def resumeFacadeParse (s : Service) (task : TaskId) (f : Facade) (request : ParseRequest)
    (point : FacadePoint) (signal : Signal) : Service × Run FacadePoint (ParseResult SyntaxTree) :=
  match point with
  | .get getPoint =>
    let (resumed, run) := s.resumeGet task f.registry f.language getPoint signal
    resumed.facadeGot task f request run
  | .parse p parsePoint =>
    let (resumed, run) := s.resumeParse task p request parsePoint signal
    resumed.facadeParsed f request p run

/-! ### What the caller wants to know -/

/-- Notes that the declarations of a language are told by the spelling of its kinds. -/
def noteConverter (s : Service) (tree : SyntaxTree) : Service :=
  match tree.refusal, Converter.make (some tree.language) none with
  | none, .ok c =>
    match c.note? with
    | some message => s.note LogRecord.debug converterLogger message
    | none => s
  | _, _ => s

/-- The declarations could not be told. -/
def failDeclare (s : Service) (f : Facade) (request : ParseRequest) (fault : Fault) :
    Service × Except Fault (ParseResult UnitDecl) :=
  s.tellFault f request "converting syntax tree to definition"
    "Definition conversion failed: " fault

/-- The declarations of a parsed tree. -/
def declare (s : Service) (f : Facade) (request : ParseRequest) (tree : SyntaxTree) :
    Service × Except Fault (ParseResult UnitDecl) :=
  let noted := s.noteConverter tree
  match tree.declarations with
  | .ok unit => (noted, .ok (.ok unit))
  | .error fault => noted.failDeclare f request fault

/-- The fault of asking a successful result for something of its tree when it holds none. -/
def noTree (wanted : String) : Fault :=
  .noAttribute ("'NoneType' object has no attribute '" ++ wanted ++ "'")

/-- Whether a parse gave a tree without errors. A success has to hold a tree. -/
def validityOf (result : ParseResult SyntaxTree) : Except Fault (ParseResult Bool) :=
  if result.isFailure then .ok (.ok false)
  else
    match result.value with
    | some tree => .ok (.ok (!tree.hasErrors))
    | none => .error (noTree "has_errors")

/-- The errors of the tree that a parse gave, none if it failed. A success has to hold a tree. -/
def errorsOf (result : ParseResult SyntaxTree) : Except Fault (ParseResult (List Diagnostic)) :=
  if result.isFailure then .ok (.ok [])
  else
    match result.value with
    | some tree => .ok (.ok tree.errors)
    | none => .error (noTree "errors")

/-- The declarations of the tree that a parse gave, or the failure of the parse. -/
def declarationsOf (s : Service) (f : Facade) (request : ParseRequest)
    (result : ParseResult SyntaxTree) :
    Service × Except Fault (ParseResult UnitDecl) :=
  if result.isFailure then (s, .ok { success := false, error := result.error })
  else
    match result.value with
    | some tree => s.declare f request tree
    | none => s.failDeclare f request (noTree "to_definition")

/-- The answer to what the caller wants to know. -/
def answerGoal (s : Service) (f : Facade) (goal : FacadeGoal) (request : ParseRequest)
    (result : ParseResult SyntaxTree) : Service × Except Fault Outcome :=
  match goal with
  | .tree => (s, .ok (.parsed result))
  | .validity => (s, (validityOf result).map .validated)
  | .errors => (s, (errorsOf result).map .diagnosed)
  | .declarations =>
    let (declared, answer) := s.declarationsOf f request result
    (declared, answer.map .declared)

end SyntaxForest.Service
