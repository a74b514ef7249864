import SyntaxForest.Data.Lookup
import SyntaxForest.Lifecycle.Parser
import SyntaxForest.Registry.Catalogue
import SyntaxForest.Source.FilePath

/-!
Registries: which languages are known, which files are theirs, and which parsers exist for them.

Languages are known without regard to letter case. An ending of file names belongs to the language
that claimed it last. Taking a language out of the registry takes out the endings that still belong
to it, and its parser.
-/

namespace SyntaxForest

/-- The languages known, their endings and their parsers. -/
structure Registry where
  settings : Settings
  collector : CollectorId
  languages : Assoc String Registration := []
  extensions : Assoc WideText String := []
  parsers : Assoc String ParserId := []
  /-- The tables of languages read so far, by path. -/
  tables : Assoc FilePath (List LanguageConfig) := []
  /-- How many registrations there were. -/
  registrations : Nat := 0

namespace Registry

/-- The entry of a language. -/
def find? (r : Registry) (language : String) : Option LanguageConfig :=
  (Assoc.get? r.languages (Text.caseFold language)).map (·.config)

/-- The language is known; an empty or missing name is not. -/
def isSupported (r : Registry) (language : Option String) : Bool :=
  match language with
  | some l => l ≠ "" && Assoc.contains r.languages (Text.caseFold l)
  | none => false

/-- The endings of a language, none if it is not known. -/
def extensionsOf (r : Registry) (language : Option String) : List WideText :=
  match language with
  | some l => if l = "" then [] else ((r.find? l).map (·.extensions)).getD []
  | none => []

/-- The names of the languages, in the order of their registration. -/
def languageNames (r : Registry) : List String := r.languages.values.map (·.config.name)

/-- The name of the language under a key. -/
def nameOf (r : Registry) (key : String) : Except Fault String :=
  (Lookup.value r.languages key).map (·.config.name)

/-- The language an ending belongs to. -/
def ownerOf (r : Registry) (extension : WideText) : Except Fault (Option String) :=
  match Assoc.get? r.extensions extension with
  | some key => (r.nameOf key).map some
  | none => .ok none

/-- The language of an ending given with or without its dot, in any letter case. -/
def languageOfExtension (r : Registry) (extension : Option WideText) :
    Except Fault (Option String) :=
  match extension with
  | none => .ok none
  | some e =>
    if e.spelling = "" then .ok none
    else
      match Assoc.get? r.extensions
          (e.respell fun s => LanguageConfig.dotted (Text.lowerCase s)) with
      | some key => if key = "" then .ok none else (r.nameOf key).map some
      | none => .ok none

/-- The ending by which a file's language is found. -/
def fileExtension (path : WideText) : WideText :=
  path.respell fun s => Text.lowerCase (FilePath.ofText s).ending

/-- The language of a file. -/
def languageOfFile (r : Registry) (path : WideText) : Except Fault (Option String) :=
  r.ownerOf (fileExtension path)

/-! ### Registration -/

/-- Gives endings to a language. -/
def claim (extensions : Assoc WideText String) (key : String) (wanted : List WideText) :
    Assoc WideText String :=
  wanted.foldl (fun table e => Assoc.set table e key) extensions

/-- What is said about each ending that another registration has when it is claimed. -/
def claimNotes (extensions : Assoc WideText String) (key : String) : List WideText → List WideText
  | [] => []
  | e :: rest =>
    let note := match Assoc.get? extensions e with
      | some owner =>
        [("Extension '" : String) ++ e
          ++ ("' already mapped to '" ++ owner ++ "', overwriting with '" ++ key ++ "'" : String)]
      | none => []
    note ++ claimNotes (Assoc.set extensions e key) key rest

/-- Enters a language that is not known. -/
def enter (r : Registry) (config : LanguageConfig) : Registry :=
  { r with
    languages := Assoc.set r.languages config.key ⟨config, r.registrations⟩
    extensions := claim r.extensions config.key config.extensions
    registrations := r.registrations + 1 }

/-- Takes back the endings that still belong to a language. -/
def unclaim (extensions : Assoc WideText String) (key : String) (given : List WideText) :
    Assoc WideText String :=
  given.foldl (fun table e => if Assoc.get? table e = some key then Assoc.erase table e else table)
    extensions

/-- Takes a language out. Also gives its entry and its parser. -/
def remove? (r : Registry) (language : String) :
    Option (Registry × LanguageConfig × Option ParserId) :=
  let key := Text.caseFold language
  match Assoc.get? r.languages key with
  | none => none
  | some reg =>
    some
      ({ r with
          languages := Assoc.erase r.languages key
          extensions := unclaim r.extensions key reg.config.extensions
          parsers := Assoc.erase r.parsers key },
        reg.config, Assoc.get? r.parsers key)

end Registry

end SyntaxForest
