import SyntaxForest.Proofs.Declaration.NothingLost

/-!
# Which class owns a member

A class is declared with the members that a search finds below its node, sorted into lists. The
search stops at a member, and at a scope that is none, so what a list has can be told from the nodes
between.

* **`Converter.IsOwn`** — a member of a class with no member and no scope between the two.
* **`Converter.mem_ownNodes_iff`** — just these are found below a class, in document order
  (`ownNodes_sublist`).
* **`Converter.OwnsMembers`** — a declared class lists its own members and nothing else, and each of
  them once.
* **`Converter.members_owned_once`** — so does every class that is declared, and every class nested
  in it, as long as the rules give no kind of member two roles.
-/

namespace SyntaxForest

/-! ## Roles of members -/

/-- The roles of members, each of which has a list of its own. -/
def DeclRole.ofMembers : List DeclRole := [methods, properties, fields, classes, interfaces]

/-- No kind is listed for two sorts of member; methods and functions are one sort. -/
def Rules.MembersApart (rules : Rules) : Prop :=
  DeclRole.ofMembers.Pairwise fun r r' => (rules.kindsOf r).Disjoint (rules.kindsOf r')

namespace Rules

variable {rules : Rules}

theorem membersApart_of_builtin {language : String} (h : forLanguage? language = some rules) :
    rules.MembersApart := by
  have hroles : DeclRole.ofMembers.Nodup := by decide
  refine hroles.imp fun {r r'} hne kind hr hr' => hne ?_
  have hplays : (Classifier.byRules rules).plays r kind = true := by
    rw [plays_byRules]
    exact List.contains_iff_mem.mpr hr
  have hplays' : (Classifier.byRules rules).plays r' kind = true := by
    rw [plays_byRules]
    exact List.contains_iff_mem.mpr hr'
  exact (exclusive_of_builtin h).role_unique hplays hplays'

theorem MembersApart.role_unique (h : rules.MembersApart) {r r' : DeclRole}
    (hr : r ∈ DeclRole.ofMembers) (hr' : r' ∈ DeclRole.ofMembers) {kind : String}
    (hplays : (Classifier.byRules rules).plays r kind = true)
    (hplays' : (Classifier.byRules rules).plays r' kind = true) : r = r' := by
  rw [plays_byRules, List.contains_iff_mem] at hplays hplays'
  have hsymm : Std.Symm fun r r' => (rules.kindsOf r).Disjoint (rules.kindsOf r') :=
    ⟨fun _ _ hd _ h h' => hd h' h⟩
  by_contra hne
  exact List.Pairwise.forall h hr hr' hne hplays hplays'

end Rules

theorem Classifier.isMember_iff (k : Classifier) (kind : String) :
    k.isMember kind = true ↔ ∃ r ∈ DeclRole.ofMembers, k.plays r kind = true := by
  simp [DeclRole.ofMembers, isMember, plays, or_assoc]

/-! ## Lists of members -/

namespace ClassDecl

/-- The nodes of the members that a class lists in a role. -/
def own (d : ClassDecl) : DeclRole → List NodeId
  | .methods => d.methods.map MethodDecl.node
  | .properties => d.properties.map MemberDecl.node
  | .fields => d.fields.map MemberDecl.node
  | .classes => d.classes.map ClassDecl.node
  | .interfaces => d.interfaces.map InterfaceDecl.node
  | .namespaces => []

/-- A class lists the declaration of a node in a role. -/
def Lists (c : Converter) (t : SyntaxTree) (d : ClassDecl) (m : SyntaxNode) : DeclRole → Prop
  | .methods => c.method t m ∈ d.methods
  | .properties => Converter.property t m ∈ d.properties
  | .fields => Converter.field t m ∈ d.fields
  | .classes => c.classDecl t m ∈ d.classes
  | .interfaces => c.interface t m ∈ d.interfaces
  | .namespaces => False

/-- The second class is the first one, or declared inside it at some level. -/
inductive Nests (d : ClassDecl) : ClassDecl → Prop where
  | self : Nests d d
  | inner {e e' : ClassDecl} (he : Nests d e) (h : e' ∈ e.classes) : Nests d e'

end ClassDecl

namespace Converter

variable {c : Converter} {t : SyntaxTree} {k m : SyntaxNode}

/-! ## What is found below a class -/

/-- A member below a node, with no member and no scope between the two. -/
structure IsOwn (c : Converter) (k m : SyntaxNode) : Prop where
  below : m.Below k
  member : c.classifier.isMember m.kind = true
  nothing_between : ∀ a, a.Below k → m.Below a →
    c.classifier.isMember a.kind = false ∧ c.classifier.isScope a.kind = false

/-- The nearest members below a node. -/
def ownNodes (c : Converter) (k : SyntaxNode) : List SyntaxNode :=
  (c.below Classifier.isMember k).map (·.node)

/-- **Just the own members are found below a class.** -/
theorem mem_ownNodes_iff (hids : (SyntaxNode.idsAll k.children).Nodup) :
    m ∈ c.ownNodes k ↔ c.IsOwn k m := by
  rw [ownNodes, List.mem_map]
  constructor
  · rintro ⟨s, hs, rfl⟩
    obtain ⟨hbelow, htakes, hpasses⟩ := Search.of_mem_inList k.children hids hs
    exact ⟨hbelow, htakes.1, fun a ha hma => (hpasses a ha hma).2⟩
  · intro hown
    have htakes : (c.search Classifier.isMember []).Takes m := ⟨hown.member, List.not_mem_nil⟩
    exact Search.exists_site htakes k.children hown.below fun a ha hma =>
      ⟨List.not_mem_nil, hown.nothing_between a ha hma⟩

theorem map_node_sublist (sites : List Site) :
    (sites.map (·.node)).Sublist (sites.flatMap fun s => s.node.preorder) := by
  induction sites with
  | nil => exact List.Sublist.refl []
  | cons s rest ih => exact (List.singleton_sublist.mpr s.node.self_mem_preorder).append ih

theorem ownNodes_sublist (c : Converter) (k : SyntaxNode) :
    (c.ownNodes k).Sublist (SyntaxNode.preorderAll k.children) :=
  (map_node_sublist _).trans (Search.preorder_sublist _ k.children)

/-! ## One class -/

theorem own_classDecl {r : DeclRole} (hr : r ∈ DeclRole.ofMembers) :
    (c.classDecl t k).own r
      = ((c.ownNodes k).filter fun m => c.classifier.plays r m.kind).map SyntaxNode.id := by
  rw [classDecl_eq]
  cases r with
  | methods => exact List.map_map
  | properties => exact List.map_map
  | fields => exact List.map_map
  | interfaces => exact List.map_map
  | classes =>
    refine List.map_map.trans (List.map_congr_left fun m _ => ?_)
    rw [Function.comp_apply, classDecl_eq]
  | namespaces => exact absurd hr (by decide)

theorem lists_classDecl {r : DeclRole} (hr : r ∈ DeclRole.ofMembers) (hm : m ∈ c.ownNodes k)
    (hplays : c.classifier.plays r m.kind = true) : (c.classDecl t k).Lists c t m r := by
  have hmember : m ∈ (c.ownNodes k).filter fun m => c.classifier.plays r m.kind :=
    List.mem_filter.mpr ⟨hm, hplays⟩
  rw [classDecl_eq]
  cases r with
  | methods => exact List.mem_map_of_mem hmember
  | properties => exact List.mem_map_of_mem hmember
  | fields => exact List.mem_map_of_mem hmember
  | interfaces => exact List.mem_map_of_mem hmember
  | classes => exact List.mem_map_of_mem hmember
  | namespaces => exact absurd hr (by decide)

/-- The class declared of a node lists its own members and nothing else. The lists are taken
together where it matters: a member is in one list and there once. -/
structure OwnsMembers (c : Converter) (t : SyntaxTree) (k : SyntaxNode) (d : ClassDecl) : Prop where
  /-- A node below is in the lists just if it is a member with no member and no scope between. -/
  represented_iff : ∀ m, m.Below k → (m.id ∈ DeclRole.ofMembers.flatMap d.own ↔ c.IsOwn k m)
  /-- In all lists together no node is there twice. -/
  once : (DeclRole.ofMembers.flatMap d.own).Nodup
  /-- Each list has nodes below, in document order. -/
  order : ∀ r ∈ DeclRole.ofMembers, (d.own r).Sublist (SyntaxNode.idsAll k.children)
  /-- It is listed in its role, by its own declaration. -/
  listed : ∀ m, c.IsOwn k m → ∀ r ∈ DeclRole.ofMembers, c.classifier.plays r m.kind = true →
    m.id ∈ d.own r ∧ d.Lists c t m r

theorem mem_own_iff (hids : (SyntaxNode.idsAll k.children).Nodup) (hm : m.Below k) {r : DeclRole}
    (hr : r ∈ DeclRole.ofMembers) :
    m.id ∈ (c.classDecl t k).own r ↔ c.IsOwn k m ∧ c.classifier.plays r m.kind = true := by
  rw [own_classDecl hr, List.mem_map]
  constructor
  · rintro ⟨other, hother, hid⟩
    obtain ⟨hown, hplays⟩ := List.mem_filter.mp hother
    rw [mem_ownNodes_iff hids] at hown
    -- ids tell the nodes below the class apart
    obtain rfl := SyntaxNode.eq_of_id_eq hids hown.below hm hid
    exact ⟨hown, hplays⟩
  · rintro ⟨hown, hplays⟩
    exact ⟨m, List.mem_filter.mpr ⟨(mem_ownNodes_iff hids).mpr hown, hplays⟩, rfl⟩

theorem own_sublist {r : DeclRole} (hr : r ∈ DeclRole.ofMembers) :
    ((c.classDecl t k).own r).Sublist (SyntaxNode.idsAll k.children) := by
  rw [own_classDecl hr]
  exact (List.filter_sublist.trans (c.ownNodes_sublist k)).map SyntaxNode.id

theorem nodup_own {rules : Rules} (hc : c.classifier = .byRules rules) (hrules : rules.MembersApart)
    (hids : (SyntaxNode.idsAll k.children).Nodup) :
    (DeclRole.ofMembers.flatMap (c.classDecl t k).own).Nodup := by
  have hroles : DeclRole.ofMembers.Nodup := by decide
  refine List.nodup_flatMap.mpr ⟨fun r hr => (own_sublist hr).nodup hids, ?_⟩
  refine hroles.imp_of_mem fun {r r'} hr hr' hne x hx hx' => hne ?_
  -- a node in two lists plays two roles
  obtain ⟨m, hm, rfl⟩ := List.mem_map.mp ((own_sublist hr).subset hx)
  have hplays := ((mem_own_iff hids hm hr).mp hx).2
  have hplays' := ((mem_own_iff hids hm hr').mp hx').2
  rw [hc] at hplays hplays'
  exact hrules.role_unique hr hr' hplays hplays'

/-- **A class that is declared owns its members**, and no others. -/
theorem ownsMembers {rules : Rules} (hc : c.classifier = .byRules rules)
    (hrules : rules.MembersApart) (t : SyntaxTree) (hids : (SyntaxNode.idsAll k.children).Nodup) :
    c.OwnsMembers t k (c.classDecl t k) where
  represented_iff m hm := by
    rw [List.mem_flatMap]
    constructor
    · rintro ⟨r, hr, hmem⟩
      exact ((mem_own_iff hids hm hr).mp hmem).1
    · intro hown
      obtain ⟨r, hr, hplays⟩ := (Classifier.isMember_iff _ _).mp hown.member
      exact ⟨r, hr, (mem_own_iff hids hm hr).mpr ⟨hown, hplays⟩⟩
  once := nodup_own hc hrules hids
  order _ hr := own_sublist hr
  listed m hown r hr hplays := by
    refine ⟨(mem_own_iff hids hown.below hr).mpr ⟨hown, hplays⟩, ?_⟩
    exact lists_classDecl hr ((mem_ownNodes_iff hids).mpr hown) hplays

/-! ## Nested classes -/

theorem exists_node_of_nests {n : SyntaxNode} {e : ClassDecl} (h : (c.classDecl t n).Nests e) :
    ∃ k, (k = n ∨ k.Below n ∧ c.classifier.isClass k.kind = true) ∧ e = c.classDecl t k := by
  induction h with
  | self => exact ⟨n, Or.inl rfl, rfl⟩
  | inner _ hinner ih =>
    obtain ⟨k, hk, rfl⟩ := ih
    rw [classDecl_eq] at hinner
    obtain ⟨m, hm, rfl⟩ := List.mem_map.mp hinner
    obtain ⟨hown, hkind⟩ := List.mem_filter.mp hm
    have hbelow : m.Below k := (c.ownNodes_sublist k).subset hown
    refine ⟨m, Or.inr ⟨?_, hkind⟩, rfl⟩
    rcases hk with rfl | ⟨hkn, -⟩
    · exact hbelow
    · exact hbelow.trans hkn

/-- **A class owns the members that nothing else stands around.** Take any rules that give no kind
of member two roles, as the built-in ones do not, and any node of a tree from which a class is
declared. A node below it is in the lists of the class if and only if it is a member and no node
between the two is a member or a scope. In all lists together it is there once, in the list of its
role, and every list is in document order. The same holds of the classes that are nested in the
class, on all levels, each for the node that it is declared of. -/
theorem members_owned_once (c : Converter) (t : SyntaxTree) (hids : t.root.ids.Nodup) :
    (∀ language rules, Rules.forLanguage? language = some rules → rules.MembersApart)
      ∧ ∀ rules, c.classifier = .byRules rules → rules.MembersApart →
          ∀ n ∈ t.allNodes, c.OwnsMembers t n (c.classDecl t n)
            ∧ ∀ e, (c.classDecl t n).Nests e →
                ∃ k, (k = n ∨ k.Below n ∧ c.classifier.isClass k.kind = true) ∧ e = c.classDecl t k
                  ∧ c.OwnsMembers t k e := by
  refine ⟨fun _ _ => Rules.membersApart_of_builtin, fun rules hc hrules n hn => ?_⟩
  -- ids tell the nodes below any node of the tree apart, because they do so in the tree
  have howns : ∀ k ∈ t.allNodes, c.OwnsMembers t k (c.classDecl t k) := fun k hk =>
    ownsMembers hc hrules t
      (nodup_below (((SyntaxNode.preorder_sublist_of_mem t.root hk).map SyntaxNode.id).nodup hids))
  refine ⟨howns n hn, fun e he => ?_⟩
  obtain ⟨k, hk, rfl⟩ := exists_node_of_nests he
  refine ⟨k, hk, rfl, howns k ?_⟩
  rcases hk with rfl | ⟨hbelow, -⟩
  · exact hn
  · exact SyntaxNode.mem_preorder_of_below hbelow t.root hn

/-- A class with a property. -/
def innerClass : SyntaxNode :=
  .node 7 { kind := "class_declaration" } [.node 8 { kind := "property_declaration" } []]

/-- A class with a field, a method that has a class in it, and another class under a condition. -/
def crowdedClass : SyntaxNode :=
  .node 1 { kind := "class_declaration" }
    [.node 2 { kind := "declaration_list" }
      [.node 3 { kind := "field_declaration" } [],
        .node 4 { kind := "method_declaration" } [.node 5 { kind := "class_declaration" } []],
        .node 6 { kind := "preproc_if" } [innerClass]]]

/-- A file with that class and nothing else. -/
def crowdedTree : SyntaxTree where
  nodes := {}
  root := .node 0 { kind := "compilation_unit" } [crowdedClass]
  source := ""
  language := "csharp"

def csharpConverter : Converter := ⟨"csharp", .byRules .csharp⟩

/-- The outer class owns neither the class in the method nor the property of the inner one. -/
theorem crowded_class_owns_nearest :
    crowdedTree.root.ids.Nodup ∧ Rules.csharp.MembersApart ∧ crowdedClass ∈ crowdedTree.allNodes
      ∧ ∃ d inner, d = csharpConverter.classDecl crowdedTree crowdedClass ∧ inner ∈ d.classes
        ∧ DeclRole.ofMembers.map d.own = [[4], [], [3], [7], []]
        ∧ DeclRole.ofMembers.map inner.own = [[], [8], [], [], []]
        ∧ csharpConverter.OwnsMembers crowdedTree crowdedClass d
        ∧ ∃ k, inner = csharpConverter.classDecl crowdedTree k
        ∧ csharpConverter.OwnsMembers crowdedTree k inner := by
  have hids : crowdedTree.root.ids.Nodup := by decide
  have hrules : Rules.csharp.MembersApart := Rules.membersApart_of_builtin Rules.forLanguage_csharp
  have hmem : crowdedClass ∈ crowdedTree.allNodes := .tail _ (.head _)
  obtain ⟨howns, hnested⟩ :=
    (members_owned_once csharpConverter crowdedTree hids).2 .csharp rfl hrules _ hmem
  have hinner : csharpConverter.classDecl crowdedTree innerClass
      ∈ (csharpConverter.classDecl crowdedTree crowdedClass).classes := by
    rw [classDecl_eq csharpConverter crowdedTree crowdedClass]
    exact List.mem_map_of_mem (.head _)
  obtain ⟨k, -, hk, hkowns⟩ := hnested _ (.inner .self hinner)
  exact ⟨hids, hrules, hmem, _, _, rfl, hinner,
    by decide +kernel, by decide +kernel, howns, k, hk, hkowns⟩

end Converter

end SyntaxForest
