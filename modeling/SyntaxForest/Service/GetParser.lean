import SyntaxForest.Service.Registering

/-!
Asking a registry for a parser.

A registry builds the parser of a language when it is first asked for it and keeps it. Tasks that
ask take turns. A language that is not known, and a parser that cannot be built or initialized, give
no parser.
-/

namespace SyntaxForest.Service

open SyntaxForest

/-- Ends asking for a parser, which holds the registry's lock. -/
def leaveGet (s : Service) (r : RegistryId) (result : Except Fault (Option ParserId)) :
    Service × Run GetPoint (Option ParserId) :=
  (s.release (.registry r), .finished result)

/-- The record of a parser that could not be made. -/
def creationFailure (config : LanguageConfig) (fault : Fault) : LogRecord :=
  (LogEvent.failure (.text ("Failed to create parser for language '" ++ config.name ++ "'")) fault
    [("language", .text config.name)]).record registryLogger []

/-- No parser could be made: what was made of it is disposed of. Lack of memory and cancellation are
passed on, and so is what goes wrong while disposing. -/
def failGet (s : Service) (r : RegistryId) (config : LanguageConfig)
    (dispose : Service → Except Fault Service) (fault : Fault) :
    Service × Run GetPoint (Option ParserId) :=
  if fault.isOutOfMemory || !fault.isFailure then s.leaveGet r (.error fault)
  else
    let logged := s.write (creationFailure config fault)
    match dispose logged with
    | .ok disposed => disposed.leaveGet r (.ok none)
    | .error e => logged.leaveGet r (.error e)

/-- The time that the last initialization of a language took, if the registry's collector knows
it. -/
def initializationTime (s : Service) (registry : Registry) (language : String) : Option Float :=
  (s.collectors[registry.collector]?).bind fun c => Assoc.get? c.initializations language

/-- The parser is initialized and kept. -/
def keepParser (s : Service) (r : RegistryId) (config : LanguageConfig) (p : ParserId) :
    Service × Run GetPoint (Option ParserId) :=
  let kept := s.modifyRegistry r fun registry =>
    { registry with parsers := Assoc.set registry.parsers config.key p }
  let noted := kept.note LogRecord.info registryLogger
    ("Created parser for language '" ++ config.name ++ "'")
  let measured := match s.registries[r]?, s.parser? p with
    | some registry, some parser =>
      match s.initializationTime registry parser.language with
      | some ms =>
        noted.write ((LogEvent.metric (.text "parser_initialization_ms") (.float ms)
          [("language", .text config.name)]).record metricLogger [])
      | none => noted
    | _, _ => noted
  measured.leaveGet r (.ok (some p))

/-- The initialization of a new parser has come to something. -/
def getInitialized (s : Service) (r : RegistryId) (registration : Registration) (p : ParserId)
    (run : Run InitPoint Unit) : Service × Run GetPoint (Option ParserId) :=
  match run with
  | .waiting point wait => (s, .waiting (.init registration p point) wait)
  | .finished (.ok ()) => s.keepParser r registration.config p
  | .finished (.error fault) =>
    s.failGet r registration.config (fun s => .ok (s.disposeParser p)) fault

/-- A registry is made where a parser is expected: it is filled with the languages of its table, and
then found not to be a parser. -/
def buildRegistry (s : Service) (registry : Registry) : Service × Except Fault Parser :=
  match s.newRegistry registry.settings registry.collector true with
  | (made, .error fault) => (made, .error fault)
  | (made, .ok _) => (made, .error (.noAttribute "a registry cannot be initialized"))

/-- Settings are made where a parser is expected. -/
def settingsMade : Fault := .noAttribute "settings cannot be initialized"

/-- The parser that an entry of a registry describes. -/
def buildParser (s : Service) (registry : Registry) (config : LanguageConfig) :
    Service × Except Fault Parser :=
  match config.resolveFactory with
  | .error fault => (s, .error fault)
  | .ok factory =>
    match factory.product with
    | .parser =>
      (s, do Parser.ofBlueprint (← factory.build registry.settings) (some registry.collector))
    | .registry => s.buildRegistry registry
    | .settings => (s, .error settingsMade)

/-- Disposes of what was made instead of a parser, which settings do not allow. -/
def disposeUnbuilt (config : LanguageConfig) (s : Service) : Except Fault Service :=
  match config.resolveFactory with
  | .ok factory =>
    if factory.product = .settings then .error (.noAttribute "settings cannot be disposed of")
    else .ok s
  | .error _ => .ok s

/-- The parser of a language, if one is kept and not disposed of. -/
def keptParser? (s : Service) (registry : Registry) (key : String) : Option ParserId :=
  match Assoc.get? registry.parsers key with
  | some p => if (s.parser? p).any (!·.isDisposed) then some p else none
  | none => none

/-- Asking for a parser has the registry's lock. -/
def getLocked (s : Service) (task : TaskId) (r : RegistryId) (language : String) :
    Service × Run GetPoint (Option ParserId) :=
  match s.registries[r]? with
  | none => s.leaveGet r (.ok none)
  | some registry =>
    let key := Text.caseFold language
    match s.keptParser? registry key with
    | some p => s.leaveGet r (.ok (some p))
    | none =>
      match Assoc.get? registry.languages key with
      | none => s.leaveGet r (.error (.badKey key))
      | some registration =>
        match s.buildParser registry registration.config with
        | (tried, .error fault) =>
          tried.failGet r registration.config (disposeUnbuilt registration.config) fault
        | (built, .ok parser) =>
          let (built, p) := built.addParser { parser with origin := some (r, registration) }
          let (begun, run) := built.beginInit task p none
          begun.getInitialized r registration p run

/-- Notes that a language is not known. -/
def unknownLanguage (s : Service) (name : String) : Service :=
  s.note LogRecord.warning registryLogger ("No parser registered for language '" ++ name ++ "'")

/-- Asking for a parser begins. -/
def beginGet (s : Service) (task : TaskId) (r : RegistryId) (language : Option String) :
    Service × Run GetPoint (Option ParserId) :=
  match s.registries[r]?, language with
  | some registry, some name =>
    if registry.isSupported language then
      match s.acquire (.registry r) task with
      | (locked, true) => locked.getLocked task r name
      | (queued, false) => (queued, .waiting .lock (.lock (.registry r)))
    else (s.unknownLanguage name, .finished (.ok none))
  | _, _ => (s.unknownLanguage (language.getD "None"), .finished (.ok none))

/-- Asking for a parser goes on after a wait. -/
def resumeGet (s : Service) (task : TaskId) (r : RegistryId) (language : String)
    (point : GetPoint) (signal : Signal) : Service × Run GetPoint (Option ParserId) :=
  match point with
  | .lock =>
    match signal with
    | .proceed => s.getLocked task r language
    | .cancel => (s, .finished (.error .cancelled))
  | .init registration p initPoint =>
    let (resumed, run) := s.resumeInit task p none initPoint signal
    resumed.getInitialized r registration p run

end SyntaxForest.Service
