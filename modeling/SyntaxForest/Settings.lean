import SyntaxForest.Native.Growth
import SyntaxForest.Settings.Variables

/-!
Settings and where they come from.

A setting is taken from the first place that gives it: the arguments, the environment, files of
variables, its default. An argument may spell its setting in any letter case.
-/

namespace SyntaxForest

open Schema

/-- What can be set. -/
structure Settings where
  logLevel : String := "INFO"
  textLimit : Int := 1000
  keepAnonymous : Bool := false
  /-- A table of languages to use instead of the built-in one. -/
  languagesPath : Option FilePath := none

namespace Settings

def growth (s : Settings) : GrowthSettings :=
  { textLimit := s.textLimit, keepAnonymous := s.keepAnonymous }

/-! ### Taking settings from their sources -/

/-- Where settings come from, the first place first. -/
structure Sources where
  arguments : Assoc String Datum := []
  /-- A table of languages that the caller names itself. It stands for the argument of that name. -/
  table : Option FilePath := none
  environment : Assoc String String := []
  files : Assoc FilePath String := []

/-- The first argument for a setting, with its own spelling of the setting's name. -/
def argument? (arguments : Assoc String Datum) (name : String) : Option (String × Datum) :=
  arguments.find? fun entry => Text.lowerCase entry.1 = name

namespace Sources

/-- The value that the first source to give one gives a setting. -/
def get? (s : Sources) (rules : VariableRules) (name : String) : Option Datum :=
  ((argument? s.arguments name).map (·.2)).or
    ((rules.get? (s.environment.map fun entry => (entry.1, some entry.2)) name).or
      (rules.get? (rules.inFiles s.environment s.files) name))

/-- The table that the caller names, unless an argument of another spelling goes before it. -/
def ownTable? (s : Sources) (name : String) : Option FilePath :=
  match argument? s.arguments name with
  | some (spelling, _) => if spelling = name then s.table else none
  | none => s.table

end Sources

def recordName : String := "Settings"

/-- A path. -/
def path : Datum → Checked FilePath
  | .text s => .good (FilePath.ofText s)
  | _ => .refuse "path_type" "Input is not a valid path for <class 'pathlib.Path'>"

def fieldNames : List String :=
  ["log_level", "max_node_text_length", "include_anonymous_nodes", "languages_config_path"]

/-- The settings that the sources give. -/
def load (sources : Sources) : Except Fault Settings := do
  let rules ← VariableRules.ofArguments sources.arguments
  let fields : Assoc String Datum :=
    fieldNames.filterMap fun name => (sources.get? rules name).map fun d => (name, d)
  let table := match sources.ownTable? "languages_config_path" with
    | some p => .good (some p)
    | none => optional fields "languages_config_path" path
  Checked.orFault recordName
    (Settings.mk <$> defaulted fields "log_level" "INFO" text
      <*> defaulted fields "max_node_text_length" 1000 integer
      <*> defaulted fields "include_anonymous_nodes" false flag
      <*> table)

/-- The settings as plain data. -/
def toDatum (s : Settings) : Datum :=
  .record [("log_level", .text s.logLevel), ("max_node_text_length", .int s.textLimit),
    ("include_anonymous_nodes", .bool s.keepAnonymous),
    ("languages_config_path", .ofOption (fun p => .text p.toText) s.languagesPath)]

end Settings

end SyntaxForest
