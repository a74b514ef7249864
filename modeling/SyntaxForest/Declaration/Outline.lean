import SyntaxForest.Declaration.Basic

/-!
Outlines: declarations as plain data, without the nodes that they were made from.
-/

namespace SyntaxForest

/-- What every declaration has, and what one of its kind has besides. -/
def outlineOf (name : String) (span : Option Span) (rest : List (String × Datum)) : Datum :=
  .record ([("name", .text name), ("location", .ofOption Span.toDatum span)] ++ rest)

def ParameterDecl.outline (p : ParameterDecl) : Datum := outlineOf p.name p.span []

def MemberDecl.outline (m : MemberDecl) : Datum := outlineOf m.name m.span []

def MethodDecl.outline (m : MethodDecl) : Datum :=
  outlineOf m.name m.span
    [("parameters", .listOf ParameterDecl.outline m.parameters),
      ("signature", .ofText? m.signature)]

def InterfaceDecl.outline (i : InterfaceDecl) : Datum :=
  outlineOf i.name i.span
    [("methods", .listOf MethodDecl.outline i.methods),
     ("properties", .listOf MemberDecl.outline i.properties)]

mutual

def ClassDecl.outline : ClassDecl → Datum
  | ⟨_, name, kind, span, methods, properties, fields, classes, interfaces⟩ =>
    outlineOf name span
      [("kind", .text kind), ("methods", .listOf MethodDecl.outline methods),
       ("properties", .listOf MemberDecl.outline properties),
       ("fields", .listOf MemberDecl.outline fields),
       ("classes", .list (ClassDecl.outlines classes)),
       ("interfaces", .listOf InterfaceDecl.outline interfaces)]

def ClassDecl.outlines : List ClassDecl → List Datum
  | [] => []
  | c :: rest => c.outline :: ClassDecl.outlines rest

end

mutual

def NamespaceDecl.outline : NamespaceDecl → Datum
  | ⟨_, name, span, classes, interfaces, namespaces⟩ =>
    outlineOf name span
      [("classes", .listOf ClassDecl.outline classes),
       ("interfaces", .listOf InterfaceDecl.outline interfaces),
       ("namespaces", .list (NamespaceDecl.outlines namespaces))]

def NamespaceDecl.outlines : List NamespaceDecl → List Datum
  | [] => []
  | n :: rest => n.outline :: NamespaceDecl.outlines rest

end

def UnitDecl.outline (u : UnitDecl) : Datum :=
  .record [("name", .ofText? u.name), ("language", .text u.language),
    ("location", .ofOption Span.toDatum u.span), ("imports", .texts u.imports),
    ("namespaces", .listOf NamespaceDecl.outline u.namespaces),
    ("classes", .listOf ClassDecl.outline u.classes),
    ("interfaces", .listOf InterfaceDecl.outline u.interfaces),
    ("functions", .listOf MethodDecl.outline u.functions)]

end SyntaxForest
