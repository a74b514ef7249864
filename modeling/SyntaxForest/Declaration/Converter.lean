import SyntaxForest.Declaration.Basic
import SyntaxForest.Declaration.Classifier
import SyntaxForest.Declaration.Site
import SyntaxForest.Text.Blank
import SyntaxForest.Tree.SyntaxTree

/-!
From syntax trees to declarations.

The declarations of a scope are the nearest ones below it: a class inside a class is found through
the outer class only. A namespace without a body of its own owns the siblings that follow it; in the
unit those siblings are left to the namespace.

Namespaces and classes nest, so their conversion is recursive. Every step goes to a site that is
smaller than the one it comes from.
-/

namespace SyntaxForest

/-- Turns the trees of a language into declarations. -/
structure Converter where
  language : String
  classifier : Classifier

/-- What a conversion cannot do without. -/
inductive ConverterError where
  | languageRequired
  | treeRequired
deriving DecidableEq, Repr

namespace ConverterError

def message : ConverterError → String
  | languageRequired => "language is required"
  | treeRequired => "tree is required"

def fault (e : ConverterError) : Fault := .badValue e.message

end ConverterError

namespace Converter

/-- The converter for a language: by the rules given, else by the built-in ones, else by
spelling. -/
def make (language : Option String) (rules : Option Rules) : Except ConverterError Converter :=
  match language with
  | none => .error .languageRequired
  | some language =>
    if language = "" then .error .languageRequired
    else
      match rules.or (Rules.forLanguage? language) with
      | some rules => .ok { language, classifier := .byRules rules }
      | none => .ok { language, classifier := .bySpelling }

/-- What is noted when a language has no rules. -/
def note? (c : Converter) : Option String :=
  match c.classifier with
  | .byRules _ => none
  | .bySpelling =>
    some ("No definition rules for '" ++ c.language ++ "', using node type heuristics")

/-! ### Names and texts -/

/-- The value unless it is empty. -/
def nonEmpty : Option String → Option String
  | some s => if s = "" then none else some s
  | none => none

/-- The source text of a node, or the text captured with it. -/
def textOf (t : SyntaxTree) (n : SyntaxNode) : Option String :=
  (nonEmpty (some (t.textOf n.span))).or n.info.text

def isIdentifier (n : SyntaxNode) : Bool := Text.endsWith n.kind "identifier"

/-- The name a node declares: its own, else that of the first node below it with a name, else the
text of the first identifier. -/
def resolveName (t : SyntaxTree) (n : SyntaxNode) : Option String :=
  match nonEmpty n.info.name with
  | some name => some name
  | none =>
    if isIdentifier n then textOf t n
    else
      let below := SyntaxNode.preorderAll n.children
      match below.find? (·.info.isNamed) with
      | some named => named.info.name
      | none => (below.find? isIdentifier).bind (textOf t)

/-- The name a node declares, or a word that stands for a missing one. -/
def nameOr (t : SyntaxTree) (n : SyntaxNode) (unknown : String) : String :=
  (nonEmpty (resolveName t n)).getD unknown

/-! ### Searching scopes -/

/-- The search for declarations, which stops at other scopes. -/
def search (c : Converter) (accept : Classifier → String → Bool) (skip : List NodeId) : Search :=
  { accept := accept c.classifier, closed := c.classifier.isScope, skip }

/-- The nearest declarations below a node. -/
def below (c : Converter) (accept : Classifier → String → Bool) (n : SyntaxNode) : List Site :=
  (c.search accept []).inList n.children

/-- The siblings that belong to a namespace without a body of its own. -/
def followers (c : Converter) (s : Site) : List SyntaxNode :=
  if c.classifier.isFileScoped s.node.kind then s.following else []

/-- The nearest declarations in a namespace: below its node, then among the siblings it owns. -/
def within (c : Converter) (accept : Classifier → String → Bool) (s : Site) : List Site :=
  c.below accept s.node ++ (c.search accept []).inList (c.followers s)

theorem size_lt_of_mem_below {c : Converter} {accept : Classifier → String → Bool}
    {n : SyntaxNode} {s : Site} (h : s ∈ c.below accept n) : s.size < n.size :=
  Search.size_lt_of_mem_children _ n s h

theorem size_lt_of_mem_within {c : Converter} {accept : Classifier → String → Bool}
    {outer s : Site} (h : s ∈ c.within accept outer) : s.size < outer.size := by
  rcases List.mem_append.1 h with h | h
  · have := size_lt_of_mem_below h
    simp only [Site.size] at this ⊢
    omega
  · have hle := Search.size_le_of_mem_inList _ _ s h
    have hpos := outer.node.size_pos
    have : SyntaxNode.sizeAll (c.followers outer) ≤ SyntaxNode.sizeAll outer.following := by
      unfold followers
      split <;> simp [SyntaxNode.sizeAll]
    simp only [Site.size] at hle ⊢
    omega

/-! ### Methods and members -/

/-- A parameter is a named child of the parameter list other than a comment. -/
def isParameter (n : SyntaxNode) : Bool :=
  ((Assoc.get? n.info.metadata "is_named").map Datum.isGiven).getD true && n.kind != "comment"

def parameter (t : SyntaxTree) (n : SyntaxNode) : ParameterDecl :=
  { node := n.id, name := nameOr t n (Text.trim (t.textOf n.span)), span := n.span }

/-- The parameters in the first parameter list among a node's children. -/
def parameters (c : Converter) (t : SyntaxTree) (n : SyntaxNode) : List ParameterDecl :=
  match n.children.find? fun child => c.classifier.isParameterList child.kind with
  | some list => (list.children.filter isParameter).map (parameter t)
  | none => []

/-- The text of a node up to its body. -/
def beforeBody (c : Converter) (t : SyntaxTree) (n : SyntaxNode) : String :=
  let text := t.textOf n.span
  match n.children.find? fun child => c.classifier.isBody child.kind with
  | none => text
  | some body =>
    match body.span, n.span with
    | some b, some s => Text.slice text 0 (Int.ofNat b.start - Int.ofNat s.start)
    | _, _ => text

/-- The words of a node's text up to its body. -/
def signature (c : Converter) (t : SyntaxTree) (n : SyntaxNode) : Option String :=
  nonEmpty (some (Text.unwrap (c.beforeBody t n)))

def method (c : Converter) (t : SyntaxTree) (n : SyntaxNode) : MethodDecl :=
  { node := n.id, name := nameOr t n "UnknownMethod", span := n.span,
    parameters := c.parameters t n, signature := c.signature t n }

def property (t : SyntaxTree) (n : SyntaxNode) : MemberDecl :=
  { node := n.id, name := nameOr t n "UnknownProperty", span := n.span }

def field (t : SyntaxTree) (n : SyntaxNode) : MemberDecl :=
  { node := n.id, name := nameOr t n "UnknownField", span := n.span }

/-- The members of a type whose kind passes a test. -/
def members (c : Converter) (n : SyntaxNode) (test : Classifier → String → Bool) :
    List SyntaxNode :=
  ((c.below Classifier.isMember n).map (·.node)).filter fun m => test c.classifier m.kind

/-! ### Types and namespaces -/

def interface (c : Converter) (t : SyntaxTree) (n : SyntaxNode) : InterfaceDecl :=
  { node := n.id, name := nameOr t n "UnknownInterface", span := n.span,
    methods := (c.members n Classifier.isCallable).map (c.method t),
    properties := (c.members n Classifier.isProperty).map (property t) }

theorem size_lt_of_mem_members {c : Converter} {n m : SyntaxNode}
    {test : Classifier → String → Bool} (h : m ∈ c.members n test) : m.size < n.size := by
  obtain ⟨s, hs, rfl⟩ := List.mem_map.1 (List.mem_filter.1 h).1
  have := size_lt_of_mem_below hs
  simp only [Site.size] at this
  omega

/-- A class with everything declared inside it. -/
def classDecl (c : Converter) (t : SyntaxTree) (n : SyntaxNode) : ClassDecl :=
  { node := n.id, name := nameOr t n "UnknownClass", kind := n.kind, span := n.span,
    methods := (c.members n Classifier.isCallable).map (c.method t),
    properties := (c.members n Classifier.isProperty).map (property t),
    fields := (c.members n Classifier.isField).map (field t),
    classes := (c.members n Classifier.isClass).attach.map fun m => c.classDecl t m.1,
    interfaces := (c.members n Classifier.isInterface).map (c.interface t) }
termination_by n.size
decreasing_by exact size_lt_of_mem_members m.2

/-- A namespace with the types and namespaces declared inside it. -/
def namespaceDecl (c : Converter) (t : SyntaxTree) (s : Site) : NamespaceDecl :=
  { node := s.node.id, name := nameOr t s.node "UnknownNamespace", span := s.node.span,
    classes := (c.within Classifier.isClass s).map fun m => c.classDecl t m.node,
    interfaces := (c.within Classifier.isInterface s).map fun m => c.interface t m.node,
    namespaces :=
      (c.within Classifier.isNamespace s).attach.map fun m => c.namespaceDecl t m.1 }
termination_by s.size
decreasing_by exact size_lt_of_mem_within m.2

/-! ### The unit -/

/-- The texts of the imports, without blanks around them. -/
def imports (c : Converter) (t : SyntaxTree) : List String :=
  ((c.below Classifier.isImport t.root).map fun s =>
    Text.trim ((textOf t s.node).getD "")).filter (· ≠ "")

/-- The nodes that belong to the namespaces before them. -/
def claimed (c : Converter) (root : SyntaxNode) : List NodeId :=
  (c.below Classifier.isNamespace root).flatMap fun s => (c.followers s).map (·.id)

/-- The nearest declarations of the unit that no namespace owns. -/
def unclaimed (c : Converter) (accept : Classifier → String → Bool) (root : SyntaxNode) :
    List Site :=
  (c.search accept (c.claimed root)).inList root.children

/-- What a source file declares. -/
def unit (c : Converter) (t : SyntaxTree) : UnitDecl :=
  { name := t.file, language := c.language, span := t.root.span, imports := c.imports t,
    namespaces := (c.unclaimed Classifier.isNamespace t.root).map (c.namespaceDecl t),
    classes := (c.unclaimed Classifier.isClass t.root).map fun s => c.classDecl t s.node,
    interfaces := (c.unclaimed Classifier.isInterface t.root).map fun s => c.interface t s.node,
    functions := (c.unclaimed Classifier.isFunction t.root).map fun s => c.method t s.node }

/-- What a tree that has to be given declares. -/
def convert (c : Converter) (tree : Option SyntaxTree) : Except ConverterError UnitDecl :=
  match tree with
  | some t => .ok (c.unit t)
  | none => .error .treeRequired

end Converter

namespace SyntaxTree

/-- What the tree declares, told by the converter for its own language. -/
def declarations (t : SyntaxTree) : Except Fault UnitDecl :=
  match t.refusal with
  | some fault => .error fault
  | none => (Converter.make (some t.language) none).mapError (·.fault) |>.map fun c => c.unit t

end SyntaxTree

end SyntaxForest
