import SyntaxForest.Data.Datum
import SyntaxForest.Data.EnvFile
import SyntaxForest.Fault
import SyntaxForest.Source.FilePath
import SyntaxForest.Text.LetterCase

/-!
Variables outside the program that give settings.

They stand in the environment and in files of variables. A setting has the library's name in front
of its own there, in any letter case, and its value is text. Whoever asks for settings may ask for
other rules: another name in front, other files, names letter by letter, empty values left out, a
text that stands for no value.
-/

namespace SyntaxForest

/-- How variables are read. -/
structure VariableRules where
  /-- What stands in front of a setting's name. -/
  lead : String := "POLYAST_"
  /-- Files of variables, the last one first in rank. -/
  files : List FilePath := [.ofText ".env"]
  /-- Names count letter by letter, and not in any letter case. -/
  exactNames : Bool := false
  /-- A variable with an empty value counts as not there. -/
  dropsEmpty : Bool := false
  /-- A value that stands for no value. -/
  nothing : Option String := none

/-- Variables with their values, if they have one. -/
abbrev Variables := Assoc String (Option String)

namespace VariableRules

/-! ### Rules that are asked for -/

/-- The path that a text names; nothing else names one. -/
def fileOf : Datum → Except Fault FilePath
  | .text s => .ok (.ofText s)
  | _ => .error (.badType "a file is named by text")

/-- The files that a value names. -/
def filesOf : Datum → Except Fault (List FilePath)
  | .null => .ok []
  | .text s => .ok [.ofText s]
  | .list items => items.mapM fileOf
  | .record fields => .ok (fields.map fun e => .ofText e.1)
  | _ => .error (.badType "files are named by text or by a list")

/-- What a value puts in front of names. -/
def leadOf (standard : String) : Datum → Except Fault String
  | .null => .ok standard
  | .text s => .ok s
  | _ => .error (.badType "what stands in front of a name is text")

/-- The rules that are asked for by arguments with these names. -/
def ofArguments (arguments : Assoc String Datum) : Except Fault VariableRules := do
  let standard : VariableRules := {}
  let get (name : String) : Datum := (Assoc.get? arguments name).getD .null
  return {
    lead := ← leadOf standard.lead (get "_env_prefix")
    files := ← match Assoc.get? arguments "_env_file" with
      | some d => filesOf d
      | none => pure standard.files
    exactNames := (get "_case_sensitive").isGiven
    dropsEmpty := (get "_env_ignore_empty").isGiven
    nothing := (get "_env_parse_none_str").text? }

/-! ### Reading by the rules -/

/-- The spelling of a name that counts. -/
def spelling (rules : VariableRules) (name : String) : String :=
  if rules.exactNames then name else Text.lowerCase name

/-- A variable that counts. -/
def keeps (rules : VariableRules) (value : Option String) : Bool :=
  !(rules.dropsEmpty && value = some "")

/-- The variables that count by the spelling that counts; the last one of a spelling wins. -/
def gather (rules : VariableRules) (given : Variables) : Variables :=
  Assoc.ofEntries ((given.filter fun entry => rules.keeps entry.2).map fun entry =>
    (rules.spelling entry.1, entry.2))

/-- What a variable's text stands for. -/
def valueOf (rules : VariableRules) (s : String) : Datum :=
  if rules.nothing = some s then .null else .text s

/-- The value that variables give a setting. -/
def get? (rules : VariableRules) (given : Variables) (name : String) : Option Datum :=
  (((rules.gather given).get? (rules.spelling (rules.lead ++ name))).join).map rules.valueOf

/-- The variables of the files that are there. -/
def inFiles (rules : VariableRules) (environment : Assoc String String)
    (there : Assoc FilePath String) : Variables :=
  rules.files.flatMap fun path => match Assoc.get? there path with
    | some file => EnvFile.read environment file
    | none => []

end VariableRules

end SyntaxForest
