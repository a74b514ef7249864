import SyntaxForest.Declaration.Rules
import SyntaxForest.Text.Affix

/-!
Telling declarations by the kind of their node.

With rules, a kind is what the rules list it as. Without, it is judged by its spelling in lower
case: a word such as `class` inside it, and one of the usual endings for declarations.
-/

namespace SyntaxForest

/-- How kinds of node are judged. -/
inductive Classifier where
  | byRules (rules : Rules)
  | bySpelling

namespace Classifier

/-- The endings of kinds that declare something. -/
def declarationEndings : List String :=
  ["_declaration", "_definition", "_directive", "_statement", "_signature"]

/-- The kind mentions the word and ends like a declaration. -/
def declares (word kind : String) : Bool :=
  let spelling := Text.lowerCase kind
  Text.mentions spelling word && declarationEndings.any (Text.endsWith spelling)

/-- The kind is listed in the rules, or declares `word` by its spelling. -/
def matchesKind (c : Classifier) (listed : Rules → List String) (word kind : String) : Bool :=
  match c with
  | byRules rules => (listed rules).contains kind
  | bySpelling => declares word kind

def isImport (c : Classifier) (kind : String) : Bool :=
  match c with
  | byRules rules => rules.imports.contains kind
  | bySpelling => declares "import" kind || declares "using" kind

def isNamespace (c : Classifier) : String → Bool := c.matchesKind (·.namespaces) "namespace"

/-- The kind is a namespace whose members follow it. -/
def isFileScoped (c : Classifier) (kind : String) : Bool :=
  match c with
  | byRules rules => rules.fileScopedNamespaces.contains kind
  | bySpelling => Text.startsWith (Text.lowerCase kind) "file_scoped" && c.isNamespace kind

def isClass (c : Classifier) : String → Bool := c.matchesKind (·.classes) "class"

def isInterface (c : Classifier) : String → Bool := c.matchesKind (·.interfaces) "interface"

def isMethod (c : Classifier) : String → Bool := c.matchesKind (·.methods) "method"

def isFunction (c : Classifier) : String → Bool := c.matchesKind (·.functions) "function"

def isProperty (c : Classifier) : String → Bool := c.matchesKind (·.properties) "property"

def isField (c : Classifier) : String → Bool := c.matchesKind (·.fields) "field"

def isParameterList (c : Classifier) (kind : String) : Bool :=
  match c with
  | byRules rules => rules.parameterLists.contains kind
  | bySpelling =>
    let spelling := Text.lowerCase kind
    Text.endsWith spelling "parameters" || spelling = "parameter_list"

def isBody (c : Classifier) (kind : String) : Bool :=
  match c with
  | byRules rules => rules.bodies.contains kind
  | bySpelling => ["block", "body", "statement_block"].contains (Text.lowerCase kind)

/-- Methods and free functions. -/
def isCallable (c : Classifier) (kind : String) : Bool := c.isMethod kind || c.isFunction kind

/-- What a class or an interface can hold. -/
def isMember (c : Classifier) (kind : String) : Bool :=
  c.isCallable kind || c.isProperty kind || c.isField kind || c.isClass kind || c.isInterface kind

/-- Declarations that own what is declared inside them. -/
def isScope (c : Classifier) (kind : String) : Bool :=
  c.isNamespace kind || c.isClass kind || c.isInterface kind || c.isCallable kind

end Classifier

end SyntaxForest
