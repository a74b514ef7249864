import Mathlib.Data.List.Perm.Basic
import SyntaxForest.Declaration.Converter
import SyntaxForest.Proofs.Declaration.Search

/-!
# The entries of a unit

Every declaration of a unit is an entry: the node it was made from and the role in which it is
declared. The entries of all nesting levels are counted together, so "no node is declared twice" is
a statement about one list.

* **`Classifier.plays`** — which roles a kind of node can be declared in. In the built-in rules a
  kind plays at most one role (`Rules.exclusive_of_builtin`).
* **`Converter.siteEntries`** — the entries that one site gives rise to. What a type, a namespace or
  a unit declares is, up to order, what its sites give (`entries_classDecl`,
  `entries_namespaceDecl`, `entries_unit`).
-/

namespace SyntaxForest

/-- The role in which a node is declared. -/
inductive DeclRole where
  | namespaces
  | classes
  | interfaces
  | methods
  | properties
  | fields
deriving DecidableEq, Repr

/-- A declaration, told by the node it was made from and its role. -/
abbrev DeclEntry := NodeId × DeclRole

namespace DeclRole

/-- All roles. Rules are compared by going through this list. -/
def all : List DeclRole := [namespaces, classes, interfaces, methods, properties, fields]

theorem mem_all (r : DeclRole) : r ∈ all := by cases r <;> decide

end DeclRole

/-! ## Roles of kinds -/

namespace Classifier

/-- Nodes of this kind can be declared in this role. -/
def plays (c : Classifier) : DeclRole → String → Bool
  | .namespaces => c.isNamespace
  | .classes => c.isClass
  | .interfaces => c.isInterface
  | .methods => c.isCallable
  | .properties => c.isProperty
  | .fields => c.isField

/-- What a namespace can hold. -/
def isSpaceMember (c : Classifier) (kind : String) : Bool :=
  c.isNamespace kind || c.isClass kind || c.isInterface kind

/-- What a unit can hold. -/
def isUnitMember (c : Classifier) (kind : String) : Bool :=
  c.isSpaceMember kind || c.isFunction kind

/-- No kind plays two roles, and namespaces whose members follow them are namespaces. -/
structure Exclusive (c : Classifier) : Prop where
  role_unique : ∀ {kind : String} {r r' : DeclRole},
    c.plays r kind = true → c.plays r' kind = true → r = r'
  isNamespace_of_isFileScoped : ∀ {kind : String},
    c.isFileScoped kind = true → c.isNamespace kind = true

/-- The node is declared in some role that passes the test. -/
def owes (c : Classifier) (test : DeclEntry → Bool) (n : SyntaxNode) : Bool :=
  DeclRole.all.any fun r => c.plays r n.kind && test (n.id, r)

theorem owes_of_plays {c : Classifier} {test : DeclEntry → Bool} {n : SyntaxNode} {r : DeclRole}
    (hplays : c.plays r n.kind = true) (htest : test (n.id, r) = true) : c.owes test n = true :=
  List.any_eq_true.mpr ⟨r, DeclRole.mem_all r, by simp [hplays, htest]⟩

end Classifier

/-! ## Exclusiveness of the built-in rules -/

namespace Rules

/-- The kinds listed for a role. -/
def kindsOf (rules : Rules) : DeclRole → List String
  | .namespaces => rules.namespaces
  | .classes => rules.classes
  | .interfaces => rules.interfaces
  | .methods => rules.methods ++ rules.functions
  | .properties => rules.properties
  | .fields => rules.fields

/-- No kind is listed for two roles. -/
def isExclusive (rules : Rules) : Bool :=
  (DeclRole.all.all fun r => DeclRole.all.all fun r' =>
      r = r' || (rules.kindsOf r).all fun kind => !(rules.kindsOf r').contains kind)
    && rules.fileScopedNamespaces.all rules.namespaces.contains

theorem plays_byRules (rules : Rules) (r : DeclRole) (kind : String) :
    (Classifier.byRules rules).plays r kind = (rules.kindsOf r).contains kind := by
  cases r with
  | methods => simp [Classifier.plays, kindsOf, Classifier.isCallable, Classifier.isMethod,
      Classifier.isFunction, Classifier.matchesKind]
  | namespaces => rfl
  | classes => rfl
  | interfaces => rfl
  | properties => rfl
  | fields => rfl

theorem exclusive_of_isExclusive {rules : Rules} (h : rules.isExclusive = true) :
    (Classifier.byRules rules).Exclusive := by
  rw [isExclusive, Bool.and_eq_true] at h
  obtain ⟨hroles, hscoped⟩ := h
  constructor
  · intro kind r r' hr hr'
    rw [plays_byRules] at hr hr'
    have hpair := List.all_eq_true.mp hroles r (DeclRole.mem_all r)
    have hpair := List.all_eq_true.mp hpair r' (DeclRole.mem_all r')
    rw [Bool.or_eq_true, decide_eq_true_eq] at hpair
    rcases hpair with heq | hdisjoint
    · exact heq
    · have hkind := List.all_eq_true.mp hdisjoint kind (List.contains_iff_mem.mp hr)
      rw [hr'] at hkind
      exact absurd hkind (by decide)
  · intro kind hkind
    exact List.all_eq_true.mp hscoped kind (List.contains_iff_mem.mp hkind)

/-- In the built-in rules every kind plays at most one role. -/
theorem exclusive_of_builtin {language : String} {rules : Rules}
    (h : forLanguage? language = some rules) : (Classifier.byRules rules).Exclusive := by
  apply exclusive_of_isExclusive
  have hall : builtin.all (fun entry => entry.2.isExclusive) = true := by decide +kernel
  rw [forLanguage?, Assoc.get?, Option.map_eq_some_iff] at h
  obtain ⟨entry, hfind, rfl⟩ := h
  exact List.all_eq_true.mp hall entry (List.mem_of_find?_eq_some hfind)

theorem forLanguage_csharp : forLanguage? "csharp" = some csharp := rfl

end Rules

/-! ## Entries of declarations -/

/-- The entry of a method. -/
def MethodDecl.entry (m : MethodDecl) : DeclEntry := (m.node, .methods)

/-- The entry of a property or a field, whose role is told by the list in which it stands. -/
def MemberDecl.entry (role : DeclRole) (m : MemberDecl) : DeclEntry := (m.node, role)

/-- The interface and everything declared inside it. -/
def InterfaceDecl.entries (i : InterfaceDecl) : List DeclEntry :=
  (i.node, .interfaces) ::
    (i.methods.map MethodDecl.entry ++ i.properties.map (MemberDecl.entry .properties))

mutual

/-- The class and everything declared inside it. -/
def ClassDecl.entries : ClassDecl → List DeclEntry
  | ⟨node, _, _, _, methods, properties, fields, classes, interfaces⟩ =>
    (node, .classes) :: (methods.map MethodDecl.entry
      ++ properties.map (MemberDecl.entry .properties) ++ fields.map (MemberDecl.entry .fields)
      ++ ClassDecl.entriesAll classes ++ interfaces.flatMap InterfaceDecl.entries)

def ClassDecl.entriesAll : List ClassDecl → List DeclEntry
  | [] => []
  | c :: rest => c.entries ++ ClassDecl.entriesAll rest

end

mutual

/-- The namespace and everything declared inside it. -/
def NamespaceDecl.entries : NamespaceDecl → List DeclEntry
  | ⟨node, _, _, classes, interfaces, namespaces⟩ =>
    (node, .namespaces) :: (classes.flatMap ClassDecl.entries
      ++ interfaces.flatMap InterfaceDecl.entries ++ NamespaceDecl.entriesAll namespaces)

def NamespaceDecl.entriesAll : List NamespaceDecl → List DeclEntry
  | [] => []
  | n :: rest => n.entries ++ NamespaceDecl.entriesAll rest

end

/-- Everything that a unit declares, on all levels. -/
def UnitDecl.entries (u : UnitDecl) : List DeclEntry :=
  u.namespaces.flatMap NamespaceDecl.entries ++ u.classes.flatMap ClassDecl.entries
    ++ u.interfaces.flatMap InterfaceDecl.entries ++ u.functions.map MethodDecl.entry

theorem ClassDecl.entriesAll_eq (classes : List ClassDecl) :
    ClassDecl.entriesAll classes = classes.flatMap ClassDecl.entries := by
  induction classes with
  | nil => rfl
  | cons c rest ih => rw [ClassDecl.entriesAll, ih, List.flatMap_cons]

theorem NamespaceDecl.entriesAll_eq (namespaces : List NamespaceDecl) :
    NamespaceDecl.entriesAll namespaces = namespaces.flatMap NamespaceDecl.entries := by
  induction namespaces with
  | nil => rfl
  | cons n rest ih => rw [NamespaceDecl.entriesAll, ih, List.flatMap_cons]

/-! ## Entries of sites

A type, a namespace and a unit list their declarations by role. Put in the order of the sites
instead, they are what each site gives rise to. -/

namespace Converter

/-- The entries of a site that is declared in a role. -/
def roleEntries (c : Converter) (t : SyntaxTree) (role : DeclRole) (s : Site) : List DeclEntry :=
  match role with
  | .namespaces => (c.namespaceDecl t s).entries
  | .classes => (c.classDecl t s.node).entries
  | .interfaces => (c.interface t s.node).entries
  | .methods | .properties | .fields => [(s.node.id, role)]

/-- The entries of a site in those of the given roles that its kind plays. -/
def siteEntries (c : Converter) (t : SyntaxTree) (roles : List DeclRole) (s : Site) :
    List DeclEntry :=
  roles.flatMap fun r => if c.classifier.plays r s.node.kind then c.roleEntries t r s else []

/-- Going through the roles and then through the sites gives what going through the sites gives. -/
theorem flatMap_roles_perm (c : Converter) (t : SyntaxTree) (roles : List DeclRole)
    (sites : List Site) :
    (roles.flatMap fun r =>
        (sites.filter fun s => c.classifier.plays r s.node.kind).flatMap (c.roleEntries t r)).Perm
      (sites.flatMap (c.siteEntries t roles)) := by
  induction sites with
  | nil => simp
  | cons s rest ih =>
    have hhead : ∀ r : DeclRole,
        ((s :: rest).filter fun s => c.classifier.plays r s.node.kind).flatMap (c.roleEntries t r)
          = (if c.classifier.plays r s.node.kind then c.roleEntries t r s else [])
            ++ (rest.filter fun s => c.classifier.plays r s.node.kind).flatMap
                (c.roleEntries t r) := by
      intro r
      cases hplays : c.classifier.plays r s.node.kind <;> simp [hplays]
    simp only [hhead]
    refine (List.flatMap_append_perm roles _ _).symm.trans ?_
    rw [List.flatMap_cons]
    exact ih.append_left _

theorem members_eq (c : Converter) (n : SyntaxNode) (r : DeclRole) :
    c.members n (fun k => k.plays r)
      = ((c.below Classifier.isMember n).filter fun s => c.classifier.plays r s.node.kind).map
          (·.node) := by
  rw [members, List.filter_map]
  rfl

theorem memberIds_eq (c : Converter) (t : SyntaxTree) (n : SyntaxNode) {r : DeclRole}
    (hr : ∀ s, c.roleEntries t r s = [(s.node.id, r)]) :
    ((c.members n fun k => k.plays r).map fun m => (m.id, r))
      = ((c.below Classifier.isMember n).filter fun s => c.classifier.plays r s.node.kind).flatMap
          (c.roleEntries t r) := by
  rw [members_eq, List.map_map, List.map_eq_flatMap]
  congr 1
  funext s
  exact (hr s).symm

/-- **An interface declares itself and what its sites give**, up to order: declarations come role by
role, and sites in document order. -/
theorem entries_interface (c : Converter) (t : SyntaxTree) (n : SyntaxNode) :
    (c.interface t n).entries.Perm ((n.id, .interfaces) ::
      (c.below Classifier.isMember n).flatMap (c.siteEntries t [.methods, .properties])) := by
  have hmethods := c.memberIds_eq t n (r := .methods) fun _ => rfl
  have hproperties := c.memberIds_eq t n (r := .properties) fun _ => rfl
  refine List.Perm.cons _ (List.Perm.trans (List.Perm.of_eq ?_)
    (c.flatMap_roles_perm t [.methods, .properties] (c.below Classifier.isMember n)))
  simp only [interface, List.map_map, List.flatMap_cons, List.flatMap_nil, List.append_nil]
  rw [← hmethods, ← hproperties]
  rfl

theorem classDecl_eq (c : Converter) (t : SyntaxTree) (n : SyntaxNode) :
    c.classDecl t n =
      { node := n.id, name := nameOr t n "UnknownClass", kind := n.kind, span := n.span,
        methods := (c.members n Classifier.isCallable).map (c.method t),
        properties := (c.members n Classifier.isProperty).map (property t),
        fields := (c.members n Classifier.isField).map (field t),
        classes := (c.members n Classifier.isClass).map (c.classDecl t),
        interfaces := (c.members n Classifier.isInterface).map (c.interface t) } := by
  rw [classDecl, List.attach_map_val]

/-- **A class declares itself and what its sites give.** Classes and interfaces inside it come with
everything that they declare in turn. -/
theorem entries_classDecl (c : Converter) (t : SyntaxTree) (n : SyntaxNode) :
    (c.classDecl t n).entries.Perm ((n.id, .classes) ::
      (c.below Classifier.isMember n).flatMap
        (c.siteEntries t [.methods, .properties, .fields, .classes, .interfaces])) := by
  have hmethods := c.memberIds_eq t n (r := .methods) fun _ => rfl
  have hproperties := c.memberIds_eq t n (r := .properties) fun _ => rfl
  have hfields := c.memberIds_eq t n (r := .fields) fun _ => rfl
  have hclasses := c.members_eq n .classes
  have hinterfaces := c.members_eq n .interfaces
  rw [classDecl_eq, ClassDecl.entries]
  refine List.Perm.cons _ (List.Perm.trans (List.Perm.of_eq ?_)
    (c.flatMap_roles_perm t _ (c.below Classifier.isMember n)))
  simp only [List.map_map, List.flatMap_cons, List.flatMap_nil, List.append_nil,
    ClassDecl.entriesAll_eq, ← List.append_assoc]
  rw [← hmethods, ← hproperties, ← hfields]
  -- methods, properties and fields are done; nested classes and interfaces are gone through as
  -- lists
  congr 1
  · congr 1
    rw [List.flatMap_map]
    exact (congrArg (List.flatMap _) hclasses).trans (List.flatMap_map _ _ _)
  · rw [List.flatMap_map]
    exact (congrArg (List.flatMap _) hinterfaces).trans (List.flatMap_map _ _ _)

/-! ### Namespaces and units

A namespace searches once for each role. Since everything it searches for closes its scope, each of
these searches finds what one search for all of it finds, filtered by the role. -/

theorem search_filter (c : Converter) (skip : List NodeId)
    (wide narrow : Classifier → String → Bool)
    (hsub : ∀ kind, narrow c.classifier kind = true → wide c.classifier kind = true)
    (hclosed : ∀ kind, wide c.classifier kind = true → c.classifier.isScope kind = true)
    (nodes : List SyntaxNode) :
    (c.search narrow skip).inList nodes
      = ((c.search wide skip).inList nodes).filter fun s => narrow c.classifier s.node.kind :=
  (c.search wide skip).inList_filter hsub (fun kind hwide _ => hclosed kind hwide) nodes

theorem isScope_of_isSpaceMember (k : Classifier) {kind : String}
    (h : k.isSpaceMember kind = true) :
    k.isScope kind = true := by
  simp only [Classifier.isSpaceMember, Classifier.isScope, Bool.or_eq_true] at h ⊢
  exact Or.inl h

theorem isScope_of_isUnitMember (k : Classifier) {kind : String} (h : k.isUnitMember kind = true) :
    k.isScope kind = true := by
  rw [Classifier.isUnitMember, Bool.or_eq_true] at h
  rcases h with hspace | hfunction
  · exact isScope_of_isSpaceMember k hspace
  · simp [Classifier.isScope, Classifier.isCallable, hfunction]

theorem isSpaceMember_of_plays (k : Classifier) {r : DeclRole} {kind : String}
    (hr : r ∈ [DeclRole.classes, .interfaces, .namespaces]) (h : k.plays r kind = true) :
    k.isSpaceMember kind = true := by
  simp only [List.mem_cons, List.not_mem_nil, or_false] at hr
  rcases hr with rfl | rfl | rfl <;> rw [Classifier.plays] at h <;>
    simp [Classifier.isSpaceMember, h]

theorem followers_of_isFileScoped {c : Converter} {n : SyntaxNode} {following : List SyntaxNode}
    (h : c.classifier.isFileScoped n.kind = true) : c.followers ⟨n, following⟩ = following :=
  if_pos h

theorem within_eq (c : Converter) (s : Site) {r : DeclRole}
    (hr : r ∈ [DeclRole.classes, .interfaces, .namespaces]) :
    c.within (fun k => k.plays r) s
      = (c.within Classifier.isSpaceMember s).filter fun m => c.classifier.plays r m.node.kind := by
  have hfilter := fun nodes => c.search_filter [] Classifier.isSpaceMember (fun k => k.plays r)
    (fun _ => isSpaceMember_of_plays c.classifier hr)
    (fun _ => isScope_of_isSpaceMember c.classifier) nodes
  rw [within, within, below, below, List.filter_append, hfilter, hfilter]

theorem namespaceDecl_eq (c : Converter) (t : SyntaxTree) (s : Site) :
    c.namespaceDecl t s =
      { node := s.node.id, name := nameOr t s.node "UnknownNamespace", span := s.node.span,
        classes := (c.within Classifier.isClass s).map fun m => c.classDecl t m.node,
        interfaces := (c.within Classifier.isInterface s).map fun m => c.interface t m.node,
        namespaces := (c.within Classifier.isNamespace s).map (c.namespaceDecl t) } := by
  rw [namespaceDecl, List.attach_map_val]

/-- **A namespace declares itself and what its sites give**, below it and, if its members follow it,
among its siblings. -/
theorem entries_namespaceDecl (c : Converter) (t : SyntaxTree) (s : Site) :
    (c.namespaceDecl t s).entries.Perm ((s.node.id, .namespaces) ::
      (c.within Classifier.isSpaceMember s).flatMap
        (c.siteEntries t [.classes, .interfaces, .namespaces])) := by
  have hclasses := c.within_eq s (r := .classes) (by simp)
  have hinterfaces := c.within_eq s (r := .interfaces) (by simp)
  have hnamespaces := c.within_eq s (r := .namespaces) (by simp)
  rw [namespaceDecl_eq, NamespaceDecl.entries]
  refine List.Perm.cons _ (List.Perm.trans (List.Perm.of_eq ?_)
    (c.flatMap_roles_perm t _ (c.within Classifier.isSpaceMember s)))
  simp only [List.flatMap_cons, List.flatMap_nil, List.append_nil, NamespaceDecl.entriesAll_eq,
    ← List.append_assoc]
  rw [← hclasses, ← hinterfaces, ← hnamespaces, List.flatMap_map, List.flatMap_map,
    List.flatMap_map]
  rfl

/-- The roles in which a unit declares at its top level. -/
def unitRoles : List DeclRole := [.namespaces, .classes, .interfaces, .methods]

/-- Among the members of a unit, those that can be called are its functions. -/
theorem isCallable_eq_isFunction {k : Classifier} (hk : k.Exclusive) {kind : String}
    (h : k.isUnitMember kind = true) : k.isCallable kind = k.isFunction kind := by
  cases hcallable : k.isCallable kind with
  | false =>
    rw [Classifier.isCallable, Bool.or_eq_false_iff] at hcallable
    exact hcallable.2.symm
  | true =>
    -- a member that is callable plays no other role, so only its being a function admits it
    have hmethods : k.plays .methods kind = true := hcallable
    have hnot : ∀ r, r ≠ DeclRole.methods → k.plays r kind = false := fun r hr => by
      cases hplays : k.plays r kind with
      | false => rfl
      | true => exact absurd (hk.role_unique hplays hmethods) hr
    have h1 := hnot .namespaces (by decide)
    have h2 := hnot .classes (by decide)
    have h3 := hnot .interfaces (by decide)
    simp only [Classifier.plays] at h1 h2 h3
    simpa [Classifier.isUnitMember, Classifier.isSpaceMember, h1, h2, h3] using h.symm

/-- **A unit declares what its sites give.** It searches once for each role, with the siblings left
out that a namespace has claimed; each of these searches is the search for all members of a unit,
filtered. -/
theorem entries_unit (c : Converter) (hk : c.classifier.Exclusive) (t : SyntaxTree) :
    (c.unit t).entries.Perm
      ((c.unclaimed Classifier.isUnitMember t.root).flatMap (c.siteEntries t unitRoles)) := by
  have hfilter : ∀ narrow : Classifier → String → Bool,
      (∀ kind, narrow c.classifier kind = true → c.classifier.isUnitMember kind = true) →
      c.unclaimed narrow t.root = (c.unclaimed Classifier.isUnitMember t.root).filter
        fun s => narrow c.classifier s.node.kind := fun narrow hsub =>
    c.search_filter _ _ narrow hsub (fun _ => isScope_of_isUnitMember c.classifier) _
  -- functions are looked for under their own name, but declared as methods
  have hfunctions : c.unclaimed Classifier.isFunction t.root
      = (c.unclaimed Classifier.isUnitMember t.root).filter
          fun s => c.classifier.plays .methods s.node.kind := by
    rw [hfilter Classifier.isFunction (fun _ h => by simp [Classifier.isUnitMember, h])]
    refine List.filter_congr fun s hs => ?_
    have haccept := Search.accept_of_mem_inList _ _ _ hs
    exact (isCallable_eq_isFunction hk haccept).symm
  have hspace : ∀ r, r ∈ [DeclRole.classes, .interfaces, .namespaces] →
      ∀ kind, c.classifier.plays r kind = true → c.classifier.isUnitMember kind = true :=
    fun r hr kind h => by
      simp [Classifier.isUnitMember, isSpaceMember_of_plays c.classifier hr h]
  have hnamespaces := hfilter (fun k => k.plays .namespaces) (hspace _ (by simp))
  have hclasses := hfilter (fun k => k.plays .classes) (hspace _ (by simp))
  have hinterfaces := hfilter (fun k => k.plays .interfaces) (hspace _ (by simp))
  refine List.Perm.trans (List.Perm.of_eq ?_)
    (c.flatMap_roles_perm t unitRoles (c.unclaimed Classifier.isUnitMember t.root))
  simp only [unitRoles, List.flatMap_cons, List.flatMap_nil, List.append_nil, UnitDecl.entries,
    ← List.append_assoc]
  rw [← hnamespaces, ← hclasses, ← hinterfaces, ← hfunctions, unit, List.flatMap_map,
    List.flatMap_map, List.flatMap_map, List.map_map, List.map_eq_flatMap]
  rfl

end Converter

end SyntaxForest
