import SyntaxForest.Source.Span
import SyntaxForest.Forest.Node

/-!
Declarations: what a source text declares, told without its grammar.

A unit holds what one source file declares: imports, namespaces, classes, interfaces and free
functions. Every declaration remembers the node it was made from.
-/

namespace SyntaxForest

/-- A parameter of a method or function. -/
structure ParameterDecl where
  node : NodeId
  name : String
  span : Option Span
deriving DecidableEq

/-- A method, a constructor or a free function. -/
structure MethodDecl where
  node : NodeId
  name : String
  span : Option Span
  parameters : List ParameterDecl
  /-- The text of the declaration up to its body, on one line. -/
  signature : Option String
deriving DecidableEq

/-- A property or a field of a type. -/
structure MemberDecl where
  node : NodeId
  name : String
  span : Option Span
deriving DecidableEq

structure InterfaceDecl where
  node : NodeId
  name : String
  span : Option Span
  methods : List MethodDecl
  properties : List MemberDecl
deriving DecidableEq

/-- A class or something like it: a structure, a record, an enumeration. -/
structure ClassDecl where
  node : NodeId
  name : String
  /-- The kind of node that declares it. -/
  kind : String
  span : Option Span
  methods : List MethodDecl
  properties : List MemberDecl
  fields : List MemberDecl
  classes : List ClassDecl
  interfaces : List InterfaceDecl

structure NamespaceDecl where
  node : NodeId
  name : String
  span : Option Span
  classes : List ClassDecl
  interfaces : List InterfaceDecl
  namespaces : List NamespaceDecl

/-- What one source file declares. -/
structure UnitDecl where
  /-- The path of the file, if it is known. -/
  name : Option String
  language : String
  span : Option Span
  imports : List String
  namespaces : List NamespaceDecl
  classes : List ClassDecl
  interfaces : List InterfaceDecl
  functions : List MethodDecl

end SyntaxForest
