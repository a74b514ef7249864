import SyntaxForest.Data.Lookup
import SyntaxForest.Registry.LanguageTable
import SyntaxForest.Service.Initialize
import SyntaxForest.Text.Lines

/-!
Registries and what is done with them at once: making one, reading tables of languages, registering
and unregistering languages, looking them up, disposing of their parsers.
-/

namespace SyntaxForest.Service

open SyntaxForest

def registryLogger : String := "parsers.manager"

def modifyRegistry (s : Service) (r : RegistryId) (change : Registry → Registry) : Service :=
  { s with registries := s.registries.modify r change }

/-- Where the built-in table of languages is. -/
def builtinPath : FilePath := .ofPlace "<builtin>"

/-- The text of a configuration file, with its line ends unified. -/
def configText (s : Service) (path : FilePath) : Except Fault String :=
  if path = builtinPath then .ok LanguageTable.builtin
  else
    match s.folder.find path with
    | .file text => .ok (String.ofList (Text.unifyBreaks text.toList))
    | .folder => .error (OpenError.isFolder.fault path.toText)
    | .nameTooLong => .error (OpenError.nameTooLong.fault path.toText)
    | .free _ | .nothing | .belowFile | .nullCharacter =>
      .error (.ofText .noFile ("Language configuration not found: " ++ path.toText))

/-- Writes a configuration file. -/
def writeConfig (s : Service) (path : FilePath) (text : String) : Except Fault Service :=
  match s.folder.write path text with
  | .ok folder => .ok { s with folder }
  | .error e => .error (e.fault path.toText)

/-! ### Registration -/

/-- Takes a language out of a registry and disposes of its parser; false if it is not known. -/
def unregister (s : Service) (r : RegistryId) (language : String) : Service × Bool :=
  match (s.registries[r]?).bind (·.remove? language) with
  | none => (s, false)
  | some (registry, config, parser) =>
    let removed := s.modifyRegistry r fun _ => registry
    let disposed := match parser with
      | some p => removed.disposeParser p
      | none => removed
    (disposed.note LogRecord.info registryLogger
      ("Unregistered language '" ++ config.name ++ "'"), true)

/-- Takes out the language that a new entry replaces, if there is one. -/
def replaceEarlier (s : Service) (r : RegistryId) (config : LanguageConfig) : Service :=
  if (s.registries[r]?).any fun registry => Assoc.contains registry.languages config.key then
    ((s.note LogRecord.warning registryLogger
      ("Language '" ++ config.name ++ "' already registered, overwriting")).unregister r
        config.name).1
  else s

/-- Registers a language; an earlier one of the same name is taken out first. -/
def register (s : Service) (r : RegistryId) (config : LanguageConfig) : Service :=
  let s := s.replaceEarlier r config
  let extensions := ((s.registries[r]?).map (·.extensions)).getD []
  let entered := s.modifyRegistry r (·.enter config)
  let noted := (Registry.claimNotes extensions config.key config.extensions).foldl
    (fun acc message => acc.noteData LogRecord.warning registryLogger (.ofWide message)) entered
  noted.note LogRecord.debug registryLogger
    ("Registered language '" ++ config.name ++ "' with extensions: "
      ++ (Datum.listOf .ofWide config.extensions).quoted)

/-! ### Tables of languages -/

/-- Reads a table of languages from a file. -/
def readTable (s : Service) (path : FilePath) : Service × Except Fault (List LanguageConfig) :=
  match s.configText path with
  | .error fault => (s, .error fault)
  | .ok text =>
    match Yaml.read text with
    | .error (.fault fault) => (s, .error fault)
    | .error (.flaw flaw) =>
      let message := flaw.text path.toText
      (s.note LogRecord.error registryLogger
          ("Failed to parse language configuration " ++ path.toText ++ ": " ++ message),
        .error (.ofText .malformedYaml message))
    | .ok document => (s, LanguageTable.ofDocument path.toText document)

/-- The table of languages at a path, read at most once. -/
def loadTable (s : Service) (r : RegistryId) (path : FilePath) :
    Service × Except Fault (List LanguageConfig) :=
  match (s.registries[r]?).bind fun registry => Assoc.get? registry.tables path with
  | some table => (s, .ok table)
  | none =>
    match s.readTable path with
    | (read, .error e) => (read, .error e)
    | (read, .ok table) =>
      let kept := read.modifyRegistry r fun registry =>
        { registry with tables := Assoc.set registry.tables path table }
      (kept.note LogRecord.info registryLogger
        (s!"Loaded {table.length} language configurations from " ++ path.toText), .ok table)

/-- Makes a registry, with the languages of its table if that is wanted. -/
def newRegistry (s : Service) (settings : Settings) (collector : CollectorId) (withTable : Bool) :
    Service × Except Fault RegistryId :=
  let r := s.registries.size
  let made := { s with registries := s.registries.push { settings, collector } }
  if !withTable then (made, .ok r)
  else
    match made.loadTable r (settings.languagesPath.getD builtinPath) with
    | (loaded, .error e) => (loaded, .error e)
    | (loaded, .ok table) => (table.foldl (fun acc config => acc.register r config) loaded, .ok r)

/-! ### Looking up and disposing -/

/-- The language of a file; a file of no known language is noted. -/
def languageOfFile (s : Service) (registry : Registry) (path : WideText) :
    Service × Except Fault (Option String) :=
  match registry.languageOfFile path with
  | .ok none =>
    (s.noteData LogRecord.debug registryLogger
      (.ofWide (("No language found for file extension '" : String) ++ Registry.fileExtension path
        ++ ("' (file: " : String) ++ path ++ (")" : String))), .ok none)
  | answer => (s, answer)

/-- Disposes of all parsers that a registry keeps. -/
def disposeRegistry (s : Service) (r : RegistryId) : Service :=
  match s.registries[r]? with
  | none => s
  | some registry =>
    (registry.parsers.values.foldl disposeParser s).modifyRegistry r fun registry =>
      { registry with parsers := [] }

/-! ### Facades -/

/-- What a facade cannot be made without. -/
inductive FacadeError where
  | languageRequired
  | registryRequired
  | unsupported (language : String)
deriving DecidableEq, Repr

namespace FacadeError

def message : FacadeError → String
  | languageRequired => "language is required"
  | registryRequired => "registry is required"
  | unsupported language =>
    "Language '" ++ language ++ "' is not supported by the language registry."

def fault (e : FacadeError) : Fault := .badValue e.message

end FacadeError

/-- The facade of a registry for a language it knows. -/
def facade (s : Service) (language : Option String) (registry : Option RegistryId) :
    Except FacadeError Facade :=
  match language with
  | none => .error .languageRequired
  | some name =>
    if name = "" then .error .languageRequired
    else
      match registry with
      | none => .error .registryRequired
      | some r =>
        if (s.registries[r]?).any (·.isSupported language) then
          .ok { registry := r, language := name }
        else .error (.unsupported name)

/-- The facade for a language that is given as plain data. -/
def facadeGiven (s : Service) (language : Datum) (registry : Option RegistryId) :
    Except Fault Facade :=
  match Lookup.text? language, registry with
  | .ok name, _ => (s.facade name registry).mapError FacadeError.fault
  | .error _, none => .error (FacadeError.fault .registryRequired)
  | .error e, some _ => .error e

/-- The endings of the files that a facade is for. -/
def facadeExtensions (s : Service) (f : Facade) : List WideText :=
  ((s.registries[f.registry]?).map (·.extensionsOf (some f.language))).getD []

def facadeShown (f : Facade) : String := "CodeParser(language=" ++ Text.quoted f.language ++ ")"

end SyntaxForest.Service
