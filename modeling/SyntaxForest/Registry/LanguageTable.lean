import SyntaxForest.Registry.LanguageConfig
import SyntaxForest.Yaml.Document

/-!
Tables of languages, read from configuration files.

A table has a mapping `languages` from names to entries. Every entry needs the endings of the
language's files and the path of its parser.
-/

namespace SyntaxForest.LanguageTable

open SyntaxForest

/-- The table that is used when no other one is set. -/
def builtin : String :=
"languages:
  csharp:
    display_name: C#
    file_extensions: [\".cs\"]
    parser: parsers.languages.CSharpParser

  java:
    display_name: Java
    file_extensions: [\".java\"]
    parser: parsers.languages.JavaParser

  typescript:
    display_name: TypeScript
    file_extensions: [\".ts\", \".mts\", \".cts\"]
    parser: parsers.languages.TypeScriptParser

  tsx:
    display_name: TSX
    file_extensions: [\".tsx\"]
    parser: parsers.languages.TsxParser

  javascript:
    display_name: JavaScript
    file_extensions: [\".js\", \".jsx\", \".mjs\", \".cjs\"]
    parser: parsers.languages.JavaScriptParser

  python:
    display_name: Python
    file_extensions: [\".py\", \".pyi\"]
    parser: parsers.languages.PythonParser

  json:
    display_name: JSON
    file_extensions: [\".json\"]
    parser: parsers.languages.JsonParser
"

def requiredFields : List String := ["file_extensions", "parser"]

/-- The value is this text. -/
def isText (s : String) : Yaml.Cell → Bool
  | .atom (.text t) => t = .ofText s
  | _ => false

/-- Nothing, false, zero, and what is empty do not count as given. -/
def isGiven : Yaml.Cell → Bool
  | .atom a => a.isGiven
  | .list items => !items.isEmpty
  | .table entries => !entries.isEmpty
  | .set members => !members.isEmpty
  | .pairs count => count ≠ 0

/-- Whether an entry mentions a field: a table by its names, a text by its parts, a list by its
items. -/
def mentionsField (d : Yaml.Document) (entry : Yaml.Cell) (name : String) : Except Fault Bool :=
  match entry with
  | .table entries => .ok (entries.any fun e => isText name (.atom e.1))
  | .atom (.text w) => .ok (Text.mentions w.spelling name)
  | .list items => .ok (items.any fun item => isText name (d.cell item))
  | .set members => .ok (members.any fun a => isText name (.atom a))
  | .pairs _ => .ok false
  | .atom _ => .error (.badType "the entry has no fields")

/-- Refuses an entry that lacks one of the fields. -/
def checkFields (path : String) (name : Except Fault WideText) (d : Yaml.Document)
    (entry : Yaml.Cell) :
    List String → Except Fault Unit
  | [] => .ok ()
  | field :: rest =>
    match mentionsField d entry field with
    | .error e => .error e
    | .ok true => checkFields path name d entry rest
    | .ok false => do
      let shown ← name
      throw (.ofWide .badValue
        (("Missing required field '" ++ field ++ "' for language '" : String) ++ shown
          ++ ("' in " ++ path : String)))

/-- A value as a field of an entry is checked with; what is inside of the items of a list does not
count. -/
def fieldValue (d : Yaml.Document) : Yaml.Cell → Datum
  | .atom a => a.datum?.getD (.record [])
  | .list items => .list (items.map fun item =>
      match d.cell item with
      | .atom a => a.datum?.getD (.record [])
      | _ => .record [])
  | .table _ => .record []
  | .set members => .list (members.map fun a => a.datum?.getD (.record []))
  | .pairs count => .list (List.replicate count (.record []))

/-- The fields of an entry, all of which have to be named by texts. A name with a half of a
character is that of no known field. -/
def fieldsOf (d : Yaml.Document) :
    List (Yaml.Atom × Yaml.NodeRef) → Except Fault (Assoc String Datum)
  | [] => .ok []
  | (.text name, value) :: rest => do
    let more ← fieldsOf d rest
    return match name.text? with
      | some s => (s, fieldValue d (d.cell value)) :: more
      | none => more
  | _ :: _ => .error (.badType "a field is not named by a text")

/-- The entry of one language. Its name is only needed when the entry is made or refused. -/
def entryOf (path : String) (name : Except Fault WideText) (d : Yaml.Document) (value : Yaml.Cell) :
    Except Fault LanguageConfig := do
  let entry := if isGiven value then value else .table []
  checkFields path name d entry requiredFields
  let name ← name
  match entry with
  | .table entries =>
    let fields ← fieldsOf d entries
    if fields.contains "name" then throw (.badType "the name is given twice")
    else LanguageConfig.make (("name", .ofWide name) :: fields) none
  | _ => throw (.badType "the entry is no mapping")

/-- The entries of all languages, up to the first bad one. Of names with the same text the last one
counts. -/
def entriesOf (path : String) (d : Yaml.Document) :
    List (Yaml.Atom × Yaml.NodeRef) → Assoc String LanguageConfig →
    Except Fault (List LanguageConfig)
  | [], acc => .ok acc.values
  | (name, value) :: rest, acc => do
    let entry ← entryOf path name.shown d (d.cell value)
    entriesOf path d rest (acc.set entry.name entry)

/-- The value of an entry that is named by a text. -/
def valueOf (d : Yaml.Document) (entries : List (Yaml.Atom × Yaml.NodeRef)) (name : String) :
    Yaml.Cell :=
  match entries.find? fun e => isText name (.atom e.1) with
  | some e => d.cell e.2
  | none => .atom .null

/-- The table that a document holds. -/
def ofDocument (path : String) (d : Yaml.Document) : Except Fault (List LanguageConfig) :=
  match if isGiven d.whole then d.whole else .table [] with
  | .table entries =>
    match valueOf d entries "languages" with
    | .table languages => entriesOf path d languages []
    | _ => .error (.badValue s!"Missing 'languages' mapping in {path}")
  | _ => .error (.ofText .noAttribute "the document is no mapping")

end SyntaxForest.LanguageTable
