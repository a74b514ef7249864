import SyntaxForest.Schema.Scalar
import SyntaxForest.Text.LetterCase

/-!
Which kinds of node introduce which kinds of declaration.

The rules of a language list, for every kind of declaration, the kinds of node that introduce it.
There are built-in rules for seven languages; the two dialects of TypeScript share theirs.
-/

namespace SyntaxForest

open Schema

/-- The kinds of node that introduce each kind of declaration. -/
structure Rules where
  imports : List String := []
  namespaces : List String := []
  /-- Namespaces whose members are the declarations that follow them. -/
  fileScopedNamespaces : List String := []
  classes : List String := []
  interfaces : List String := []
  methods : List String := []
  functions : List String := []
  properties : List String := []
  fields : List String := []
  parameterLists : List String := []
  /-- Where the signature of a method ends. -/
  bodies : List String := []

namespace Rules

def csharp : Rules where
  imports := ["using_directive"]
  namespaces := ["namespace_declaration", "file_scoped_namespace_declaration"]
  fileScopedNamespaces := ["file_scoped_namespace_declaration"]
  classes := ["class_declaration", "struct_declaration", "record_declaration", "enum_declaration"]
  interfaces := ["interface_declaration"]
  methods := ["method_declaration", "constructor_declaration"]
  properties := ["property_declaration"]
  fields := ["field_declaration"]
  parameterLists := ["parameter_list"]
  bodies := ["block", "arrow_expression_clause"]

def java : Rules where
  imports := ["import_declaration"]
  classes := ["class_declaration", "enum_declaration", "record_declaration"]
  interfaces := ["interface_declaration"]
  methods := ["method_declaration", "constructor_declaration"]
  fields := ["field_declaration", "constant_declaration"]
  parameterLists := ["formal_parameters"]
  bodies := ["block", "constructor_body"]

def typescript : Rules where
  imports := ["import_statement"]
  namespaces := ["internal_module", "module"]
  classes := ["class_declaration", "abstract_class_declaration", "enum_declaration"]
  interfaces := ["interface_declaration"]
  methods := ["method_definition", "method_signature", "abstract_method_signature"]
  functions := ["function_declaration", "generator_function_declaration"]
  properties := ["property_signature"]
  fields := ["public_field_definition"]
  parameterLists := ["formal_parameters"]
  bodies := ["statement_block"]

def javascript : Rules where
  imports := ["import_statement"]
  classes := ["class_declaration"]
  methods := ["method_definition"]
  functions := ["function_declaration", "generator_function_declaration"]
  fields := ["field_definition"]
  parameterLists := ["formal_parameters"]
  bodies := ["statement_block"]

def python : Rules where
  imports := ["import_statement", "import_from_statement"]
  classes := ["class_definition"]
  functions := ["function_definition"]
  parameterLists := ["parameters"]
  bodies := ["block"]

def json : Rules := {}

/-- The built-in rules by language. -/
def builtin : Assoc String Rules :=
  [("csharp", csharp), ("java", java), ("typescript", typescript), ("javascript", javascript),
   ("python", python), ("json", json), ("tsx", typescript)]

/-- The built-in rules of a language, whose name is given in any letter case. -/
def forLanguage? (language : String) : Option Rules := Assoc.get? builtin (Text.lowerCase language)

/-- The rules as a record of lists. -/
def toFields (r : Rules) : Assoc String (List String) :=
  [("import_types", r.imports), ("namespace_types", r.namespaces),
   ("file_scoped_namespace_types", r.fileScopedNamespaces), ("class_types", r.classes),
   ("interface_types", r.interfaces), ("method_types", r.methods),
   ("function_types", r.functions), ("property_types", r.properties),
   ("field_types", r.fields), ("parameter_list_types", r.parameterLists),
   ("body_types", r.bodies)]

def recordName : String := "DefinitionRules"

/-- The rules that a record describes. -/
def make (fields : Assoc String Datum) : Except Fault Rules :=
  let kinds (name : String) : Checked (List String) := defaulted fields name [] (setOf text)
  Checked.orFault recordName
    (Rules.mk <$> kinds "import_types" <*> kinds "namespace_types"
      <*> kinds "file_scoped_namespace_types" <*> kinds "class_types" <*> kinds "interface_types"
      <*> kinds "method_types" <*> kinds "function_types" <*> kinds "property_types"
      <*> kinds "field_types" <*> kinds "parameter_list_types" <*> kinds "body_types")

end Rules

end SyntaxForest
