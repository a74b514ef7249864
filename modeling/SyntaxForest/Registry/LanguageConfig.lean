import SyntaxForest.Lifecycle.Engine
import SyntaxForest.Settings
import SyntaxForest.Text.Affix

/-!
The entry of a language: its names, the endings of its files, and how its parser is built.

Endings are kept trimmed, in lower case and with a dot in front; empty ones are dropped.
-/

namespace SyntaxForest

open Schema

/-- What a factory makes. -/
inductive Product where
  | parser
  /-- Registries of languages: they are no parsers, but they can be disposed of. -/
  | registry
  /-- Settings: they are no parsers and cannot be disposed of. -/
  | settings
deriving DecidableEq, Repr

/-- Something that builds parsers, or can be asked to. -/
structure Factory where
  /-- The name of the kind of parser it builds; what cannot build anything may have none. -/
  name : Option String := none
  build : Settings → Except Fault Blueprint
  product : Product := .parser

/-- The name of a factory that has one. -/
def Factory.ownName (f : Factory) : Except Fault String :=
  match f.name with
  | some name => .ok name
  | none => .error (.noAttribute "it has no name")

/-- The entry of a language. -/
structure LanguageConfig where
  name : String
  displayName : Option WideText := none
  extensions : List WideText := []
  /-- Where a factory is found if none is given. -/
  parserPath : Option WideText := none
  factory : Option Factory := none

namespace LanguageConfig

/-- The ending with a dot in front. -/
def dotted (extension : String) : String :=
  if Text.startsWith extension "." then extension else "." ++ extension

/-- The ending in its kept form, unless it is empty. -/
def normalize? (extension : WideText) : Option WideText :=
  let trimmed := extension.respell fun s => Text.lowerCase (Text.trim s)
  if trimmed.spelling = "" then none else some (trimmed.respell dotted)

/-- The endings in their kept form. -/
def normalize (extensions : List WideText) : List WideText := extensions.filterMap normalize?

def recordName : String := "LanguageConfig"

/-- A field for something that can be called, which no plain value is. -/
def callable : Datum → Checked (Option Factory)
  | .null => .good none
  | _ => .refuse "callable_type" "Input should be callable"

/-- The entry that a record describes. -/
def check (fields : Assoc String Datum) (factory : Option Factory) : Checked LanguageConfig :=
  LanguageConfig.mk <$> required fields "name" nonEmptyText
    <*> optional fields "display_name" wideText
    <*> (defaulted fields "file_extensions" [] (listOf wideText)).map normalize
    <*> optional fields "parser" wideText
    <*> (match factory with
      | some f => .good (some f)
      | none => defaulted fields "factory" none callable)

/-- The entry that a record describes, or the fault of a bad one. -/
def make (fields : Assoc String Datum) (factory : Option Factory) : Except Fault LanguageConfig :=
  (check fields factory).orFault recordName

/-- The entry as plain data, without its factory. -/
def toDatum (c : LanguageConfig) : Datum :=
  .record [("name", .text c.name), ("display_name", .ofOption .ofWide c.displayName),
    ("file_extensions", .listOf .ofWide c.extensions), ("parser", .ofOption .ofWide c.parserPath)]

/-- The key under which a language is known: its name without regard to letter case. -/
def key (c : LanguageConfig) : String := Text.caseFold c.name

end LanguageConfig

/-- The identity of a registry. -/
abbrev RegistryId := Nat

/-- An entry of a registry, with the number of its registration. -/
structure Registration where
  config : LanguageConfig
  serial : Nat

end SyntaxForest
