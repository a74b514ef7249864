import SyntaxForest.Registry.LanguageConfig
import SyntaxForest.Source.Span

/-!
The catalogue of factories, found by dotted paths.

A path names a module and, after its last dot, an entry of it. The modules are few; below a module
that is no package there are no others. Paths are looked up as they are spelled.
-/

namespace SyntaxForest.Catalogue

open SyntaxForest

/-- The factory of parsers for a language with a native grammar. -/
def adapter (name language : String) : Factory :=
  { name := some name, build := fun settings =>
      .ok { name, language, engine := .native settings.growth (.ok ()) } }

/-- An entry that can be found but builds no parser: what it refuses is the way in which it is
called. -/
def unfit (name : Option String) : Factory :=
  { name, build := fun _ => .error (.badType "it builds no parser") }

/-- An entry that stands for records and lacks the fields that these need. -/
def unfilled {α : Type} (name : String) (make : Assoc String Datum → Except Fault α) : Factory :=
  { name := some name, build := fun _ => do
      let _ ← make []
      throw (Fault.noAttribute (name ++ " cannot be initialized")) }

/-- The entry that stands for registries. -/
def registries : Factory := { unfit (some "ParserRegistry") with product := .registry }

/-- The entry that stands for settings. -/
def settings : Factory := { unfit (some "Settings") with product := .settings }

/-- The adapter without a language of its own, from which the others are made. -/
def bareAdapter : Factory := adapter "TreeSitterLanguageParser" ""

/-- The adapters of the built-in languages. -/
def adapters : List Factory :=
  [adapter "CSharpParser" "csharp", adapter "JavaParser" "java",
   adapter "TypeScriptParser" "typescript", adapter "TsxParser" "tsx",
   adapter "JavaScriptParser" "javascript", adapter "PythonParser" "python",
   adapter "JsonParser" "json"]

/-- A module: its path, whether others can be below it, and its entries by name. -/
structure Module where
  path : String
  isPackage : Bool
  entries : Assoc String Factory

/-- Entries under their own names. -/
def named (factories : List Factory) : Assoc String Factory :=
  factories.map fun f => (f.name.getD "", f)

/-- Entries that build no parser, under their own names. -/
def others (names : List String) : Assoc String Factory :=
  names.map fun name => (name, unfit (some name))

/-- Entries without a name of their own. -/
def nameless (names : List String) : Assoc String Factory :=
  names.map fun name => (name, unfit none)

/-- The modules below a package, which are entries of it under the last pieces of their paths. -/
def submodules (package : String) (names : List String) : Assoc String Factory :=
  names.map fun name => (name, unfit (some (package ++ "." ++ name)))

/-- The entries that every module has. -/
def commonEntries : Assoc String Factory :=
  nameless ["__annotations__", "__builtins__", "__cached__", "__dict__", "__doc__", "__file__",
      "__loader__", "__name__", "__package__", "__spec__"]
    ++ others ["__delattr__", "__dir__", "__eq__", "__format__", "__ge__", "__getattribute__",
      "__getstate__", "__gt__", "__hash__", "__init__", "__init_subclass__", "__le__", "__lt__",
      "__ne__", "__new__", "__reduce__", "__reduce_ex__", "__repr__", "__setattr__", "__sizeof__",
      "__str__", "__subclasshook__"]
    ++ [("__class__", unfit (some "module"))]

def modules : List Module :=
  [{ path := "parsers", isPackage := true
     entries := named [bareAdapter,
         unfilled LanguageConfig.recordName (LanguageConfig.make · none), registries]
       ++ others ["LanguageParser", "ParserState", "CodeParser"]
       ++ submodules "parsers"
         ["base", "code_parser", "languages", "manager", "tree_sitter_parser"]
       ++ nameless ["__all__", "__path__"] ++ commonEntries },
   { path := "parsers.languages", isPackage := false
     entries := named (bareAdapter :: adapters) ++ commonEntries },
   { path := "parsers.tree_sitter_parser", isPackage := false
     entries := named [bareAdapter, unfilled Span.recordName Span.make, settings]
       ++ others ["LanguageParser", "AstNode", "LineIndex", "ParseMetricsCollector", "asyncio",
         "importlib", "List", "Optional", "Tuple", "tree_sitter", "_byte_to_char_offsets"]
       ++ nameless ["default_settings"] ++ commonEntries }]

def module? (path : String) : Option Module := modules.find? (·.path = path)

/-- The path that joins the first pieces, for every number of pieces from one on. -/
def beginnings : List String → List String
  | [] => []
  | piece :: rest => piece :: (beginnings rest).map fun tail => piece ++ "." ++ tail

/-- A module that is not there, and why if its parent cannot have any. -/
def missing (path : String) (parent : Option Module) : Fault :=
  let reason := match parent with
    | some m => if m.isPackage then "" else "; " ++ Text.quoted m.path ++ " is not a package"
    | none => ""
  .ofText .noModule ("No module named " ++ WideText.quoted ⟨path⟩ ++ reason)

/-- Goes down from module to module along the beginnings of a path. -/
def descend (parent : Option Module) : List String → Except Fault (Option Module)
  | [] => .ok parent
  | path :: rest =>
    match module? path with
    | some m => descend (some m) rest
    | none => .error (missing path parent)

/-- The module at a path. -/
def findModule (path : String) : Except Fault Module :=
  if path = "" then .error (.badValue "Empty module name")
  else if Text.startsWith path "." then
    .error (.badType ("a package is required to find " ++ path))
  else
    match descend none (beginnings (Text.pieces '.' path)) with
    | .ok (some m) => .ok m
    | .ok none => .error (missing path none)
    | .error e => .error e

/-- Splits a path at its last dot. -/
def splitLast? (path : String) : Option (String × String) :=
  match (Text.pieces '.' path).reverse with
  | [] => none
  | [_] => none
  | last :: before => some (".".intercalate before.reverse, last)

/-- The factory at a path. -/
def find (path : WideText) : Except Fault (Option Factory) :=
  match splitLast? path.spelling with
  | none => .ok none
  | some (modulePath, name) =>
    match findModule modulePath with
    | .error e => .error e
    | .ok m =>
      match Assoc.get? m.entries name with
      | some f => .ok (some f)
      | none =>
        .error (.noAttribute
          ("module " ++ Text.quoted m.path ++ " has no attribute " ++ WideText.quoted ⟨name⟩))

end SyntaxForest.Catalogue

namespace SyntaxForest.LanguageConfig

open SyntaxForest

/-- The factory of a language: the one given, else the one its path leads to. -/
def resolveFactory (c : LanguageConfig) : Except Fault Factory :=
  match c.factory with
  | some f => .ok f
  | none =>
    match (c.parserPath.map Catalogue.find).getD (.ok none) with
    | .error e => .error e
    | .ok (some f) => .ok f
    | .ok none => .error (.badValue ("No parser configured for language '" ++ c.name ++ "'"))

end SyntaxForest.LanguageConfig
