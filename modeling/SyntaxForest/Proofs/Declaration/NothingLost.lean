import Mathlib.Order.WellFounded
import SyntaxForest.Proofs.Declaration.Entries
import SyntaxForest.Proofs.Declaration.Reach

/-!
# No declaration is lost

The unit leaves out what a namespace owns, and that namespace may be left out itself. Still every
type is declared that a search of scopes can get to: the owner of a site is larger than the site, so
going from owner to owner ends at a namespace that the unit does not leave out.

* **`UnitDecl.HasSpace`** — the namespaces of a unit, on all levels.
* **`hasSpace_of_mem_below`** — every namespace that the unit would find is one of them.
* **`hasSpace_of_namespace`** — and so is every one that is inside other namespaces only.
* **`nothing_lost`** — what follows for classes and interfaces.
-/

namespace SyntaxForest

/-- The namespace is declared in the unit, at some level. -/
inductive UnitDecl.HasSpace (u : UnitDecl) : NamespaceDecl → Prop where
  | top {d : NamespaceDecl} (h : d ∈ u.namespaces) : HasSpace u d
  | inner {d e : NamespaceDecl} (hd : HasSpace u d) (he : e ∈ d.namespaces) : HasSpace u e

namespace Converter

variable {c : Converter} {t : SyntaxTree} {n : SyntaxNode}

/-! ## Owners -/

/-- The node, or one above it, follows a namespace that the unit would find and that owns what
follows it. -/
def OwnedBy (c : Converter) (root n : SyntaxNode) (s : Site) : Prop :=
  s ∈ c.below Classifier.isNamespace root ∧ c.classifier.isFileScoped s.node.kind = true
    ∧ ∃ x ∈ s.following, n ∈ x.preorder

theorem nodup_below {root : SyntaxNode} (hids : root.ids.Nodup) :
    (SyntaxNode.idsAll root.children).Nodup := by
  cases root with
  | node id info children =>
    rw [SyntaxNode.ids_node] at hids
    exact (List.nodup_cons.mp hids).2

theorem mem_claimed_iff {root x : SyntaxNode} (hids : root.ids.Nodup) (hx : x.Below root) :
    x.id ∈ c.claimed root ↔ ∃ s ∈ c.below Classifier.isNamespace root,
      c.classifier.isFileScoped s.node.kind = true ∧ x ∈ s.following := by
  rw [claimed, List.mem_flatMap]
  refine exists_congr fun s => and_congr_right fun hs => ?_
  rw [followers]
  split
  · rename_i hscoped
    rw [List.mem_map]
    constructor
    · rintro ⟨m, hm, hid⟩
      -- ids tell nodes apart, and the siblings of the namespace are in the tree
      have hinside := Search.preorderAll_following_subset hs (SyntaxNode.mem_preorderAll_of_mem hm)
      obtain rfl := SyntaxNode.eq_of_id_eq (nodup_below hids) hinside hx hid
      exact ⟨hscoped, hm⟩
    · rintro ⟨-, hm⟩
      exact ⟨x, hm, rfl⟩
  · rename_i hscoped
    simp [hscoped]

theorem exists_ownedBy_iff {root : SyntaxNode} (hids : root.ids.Nodup) (hn : n.Below root) :
    (∃ s, c.OwnedBy root n s)
      ↔ n.id ∈ c.claimed root ∨ ∃ a, a.Below root ∧ n.Below a ∧ a.id ∈ c.claimed root := by
  constructor
  · rintro ⟨s, hs, hscoped, x, hx, hnx⟩
    have hxroot : x.Below root :=
      Search.preorderAll_following_subset hs (SyntaxNode.mem_preorderAll_of_mem hx)
    have hclaimed := (mem_claimed_iff hids hxroot).mpr ⟨s, hs, hscoped, hx⟩
    rcases SyntaxNode.mem_preorder_iff.mp hnx with rfl | hbelow
    · exact Or.inl hclaimed
    · exact Or.inr ⟨x, hxroot, hbelow, hclaimed⟩
  · rintro (hclaimed | ⟨a, ha, hna, hclaimed⟩)
    · obtain ⟨s, hs, hscoped, hx⟩ := (mem_claimed_iff hids hn).mp hclaimed
      exact ⟨s, hs, hscoped, n, hx, n.self_mem_preorder⟩
    · obtain ⟨s, hs, hscoped, hx⟩ := (mem_claimed_iff hids ha).mp hclaimed
      exact ⟨s, hs, hscoped, a, hx, SyntaxNode.mem_preorder_iff.mpr (Or.inr hna)⟩

/-! ## What the searches of scopes find -/

section Searches

variable {accept : Classifier → String → Bool}

theorem passes_of_open
    (haccept : ∀ kind, accept c.classifier kind = true → c.classifier.isScope kind = true)
    {skip : List NodeId} {a : SyntaxNode} (hopen : c.classifier.isScope a.kind = false)
    (hskip : a.id ∉ skip) : (c.search accept skip).Passes a := by
  refine ⟨hskip, ?_, hopen⟩
  show accept c.classifier a.kind = false
  cases hkind : accept c.classifier a.kind with
  | false => rfl
  | true =>
    rw [haccept a.kind hkind] at hopen
    cases hopen

theorem exists_mem_inList
    (haccept : ∀ kind, accept c.classifier kind = true → c.classifier.isScope kind = true)
    (hn : accept c.classifier n.kind = true) {nodes : List SyntaxNode}
    (hmem : n ∈ SyntaxNode.preorderAll nodes)
    (hopen : ∀ a ∈ SyntaxNode.preorderAll nodes, n.Below a → c.classifier.isScope a.kind = false) :
    ∃ s ∈ (c.search accept []).inList nodes, s.node = n :=
  Search.exists_site ⟨hn, by simp [search]⟩ nodes hmem fun a ha hna =>
    passes_of_open haccept (hopen a ha hna) (by simp)

theorem exists_mem_within
    (haccept : ∀ kind, accept c.classifier kind = true → c.classifier.isScope kind = true)
    (hn : accept c.classifier n.kind = true) {root : SyntaxNode} {s : Site}
    (howned : c.OwnedBy root n s)
    (hopen : ∀ a, a.Below root → n.Below a → c.classifier.isScope a.kind = false) :
    ∃ m ∈ (c.search accept []).inList (c.followers s), m.node = n := by
  obtain ⟨hs, hscoped, x, hx, hnx⟩ := howned
  rw [followers_of_isFileScoped hscoped]
  refine exists_mem_inList haccept hn (SyntaxNode.mem_preorderAll_iff.mpr ⟨x, hx, hnx⟩)
    fun a ha hna => ?_
  exact hopen a (Search.preorderAll_following_subset hs ha) hna

/-- The unit finds a node that is inside no scope just when nothing owns it. -/
theorem exists_mem_unclaimed_iff
    (haccept : ∀ kind, accept c.classifier kind = true → c.classifier.isScope kind = true)
    (hn : accept c.classifier n.kind = true) {root : SyntaxNode} (hids : root.ids.Nodup)
    (hbelow : n.Below root)
    (hopen : ∀ a, a.Below root → n.Below a → c.classifier.isScope a.kind = false) :
    (∃ s ∈ c.unclaimed accept root, s.node = n) ↔ ¬∃ s, c.OwnedBy root n s := by
  rw [exists_ownedBy_iff hids hbelow, not_or]
  constructor
  · rintro ⟨s, hs, rfl⟩
    obtain ⟨-, htakes, hpasses⟩ := Search.of_mem_inList root.children (nodup_below hids) hs
    refine ⟨htakes.2, ?_⟩
    rintro ⟨a, ha, hna, hclaimed⟩
    exact (hpasses a ha hna).1 hclaimed
  · rintro ⟨hfree, habove⟩
    refine Search.exists_site ⟨hn, hfree⟩ root.children hbelow fun a ha hna => ?_
    exact passes_of_open haccept (hopen a ha hna) fun hclaimed => habove ⟨a, ha, hna, hclaimed⟩

end Searches

/-! ## Namespaces -/

theorem isScope_of_isNamespace {kind : String} (h : c.classifier.isNamespace kind = true) :
    c.classifier.isScope kind = true :=
  isScope_of_isSpaceMember _ (by simp [Classifier.isSpaceMember, h])

theorem hasSpace_of_mem_within {s m : Site} (hs : (c.unit t).HasSpace (c.namespaceDecl t s))
    (hm : m ∈ c.within Classifier.isNamespace s) : (c.unit t).HasSpace (c.namespaceDecl t m) := by
  refine .inner hs ?_
  rw [namespaceDecl_eq c t s]
  exact List.mem_map.mpr ⟨m, hm, rfl⟩

/-- **Every namespace that the unit would find is declared.** If it is claimed, its owner finds it,
and the owner is declared for the same reason. Going from owner to owner ends, since an owner with
the siblings after it is larger than what it owns. -/
theorem hasSpace_of_mem_below (hids : t.root.ids.Nodup) {s : Site}
    (hs : s ∈ c.below Classifier.isNamespace t.root) :
    (c.unit t).HasSpace (c.namespaceDecl t s) := by
  -- by induction on how much smaller the site is than the tree; an owner is larger than what it
  -- owns
  induction hroom : t.root.size - s.size using Nat.strong_induction_on generalizing s with
  | _ room ih =>
    obtain ⟨hbelow, htakes, hpasses⟩ := Search.of_mem_inList t.root.children (nodup_below hids) hs
    have hopen : ∀ a, a.Below t.root → s.node.Below a → c.classifier.isScope a.kind = false :=
      fun a ha hna => (hpasses a ha hna).2.2
    by_cases howned : ∃ owner, c.OwnedBy t.root s.node owner
    · obtain ⟨owner, howner⟩ := howned
      obtain ⟨m, hm, hnode⟩ :=
        exists_mem_within (fun _ => isScope_of_isNamespace) htakes.1 howner hopen
      -- the owner finds the same site, with the same siblings after it
      have hsame : m = s := by
        rw [followers_of_isFileScoped howner.2.1] at hm
        exact Search.site_unique (nodup_below hids) (Search.inList_following_subset howner.1 hm)
          hs hnode
      subst hsame
      have hwithin : m ∈ c.within Classifier.isNamespace owner := List.mem_append_right _ hm
      have hlarger := size_lt_of_mem_within hwithin
      have hbound := size_lt_of_mem_below howner.1
      exact hasSpace_of_mem_within (ih _ (by omega) howner.1 rfl) hwithin
    · obtain ⟨m, hm, hnode⟩ :=
        (exists_mem_unclaimed_iff (fun _ => isScope_of_isNamespace) htakes.1 hids
          hbelow hopen).mpr howned
      have hfound : m ∈ c.below Classifier.isNamespace t.root := Search.mem_inList_of_skip _ _ m hm
      obtain rfl := Search.site_unique (nodup_below hids) hfound hs hnode
      exact .top (List.mem_map.mpr ⟨m, hm, rfl⟩)

/-- The scopes that a node is inside of are namespaces. -/
def InSpaces (c : Converter) (root n : SyntaxNode) : Prop :=
  n.Below root ∧ ∀ a, a.Below root → n.Below a →
    c.classifier.isScope a.kind = false ∨ c.classifier.isNamespace a.kind = true

/-- The node is inside no namespace. -/
def Outside (c : Converter) (root n : SyntaxNode) : Prop :=
  ∀ a, a.Below root → n.Below a → c.classifier.isNamespace a.kind = false

theorem InSpaces.isScope_eq_false {root a : SyntaxNode} (h : c.InSpaces root n) (ha : a.Below root)
    (hna : n.Below a) (hspace : c.classifier.isNamespace a.kind = false) :
    c.classifier.isScope a.kind = false := by
  rcases h.2 a ha hna with hopen | htrue
  · exact hopen
  · rw [hspace] at htrue
    cases htrue

theorem exists_innermost {root : SyntaxNode} (h : ¬c.Outside root n) :
    ∃ p, p.Below root ∧ n.Below p ∧ c.classifier.isNamespace p.kind = true ∧ c.Outside p n := by
  have hsome : {p : SyntaxNode | p.Below root ∧ n.Below p
      ∧ c.classifier.isNamespace p.kind = true}.Nonempty := by
    by_contra hnone
    refine h fun a ha hna => ?_
    by_contra hspace
    exact hnone ⟨a, ha, hna, by simpa using hspace⟩
  -- nested nodes get smaller, so a smallest namespace around the node has no other inside
  obtain ⟨p, ⟨hp, hnp, hkind⟩, hleast⟩ := (measure SyntaxNode.size).wf.has_min _ hsome
  refine ⟨p, hp, hnp, hkind, fun a ha hna => ?_⟩
  by_contra hspace
  exact hleast a ⟨ha.trans hp, hna, by simpa using hspace⟩ ha.size_lt

theorem InSpaces.exists_mem_below {accept : Classifier → String → Bool}
    (haccept : ∀ kind, accept c.classifier kind = true → c.classifier.isScope kind = true)
    (hn : accept c.classifier n.kind = true) {root p : SyntaxNode} (h : c.InSpaces root n)
    (hp : p.Below root) (hnp : n.Below p) (hinner : c.Outside p n) :
    ∃ m ∈ c.below accept p, m.node = n :=
  exists_mem_inList haccept hn hnp fun a ha hna =>
    h.isScope_eq_false (SyntaxNode.Below.trans ha hp) hna (hinner a ha hna)

/-- **Every namespace is declared that is inside other namespaces only.** -/
theorem hasSpace_of_namespace (hids : t.root.ids.Nodup) {p : SyntaxNode} (hp : c.InSpaces t.root p)
    (hkind : c.classifier.isNamespace p.kind = true) :
    ∃ s : Site, s.node = p ∧ (c.unit t).HasSpace (c.namespaceDecl t s) := by
  -- by induction on how much smaller the namespace is than the tree, so from the outermost inwards
  induction hroom : t.root.size - p.size using Nat.strong_induction_on generalizing p with
  | _ room ih =>
    by_cases hout : c.Outside t.root p
    · obtain ⟨s, hs, hnode⟩ : ∃ s ∈ c.below Classifier.isNamespace t.root, s.node = p :=
        exists_mem_inList (fun _ => isScope_of_isNamespace) hkind hp.1 fun a ha hpa =>
          hp.isScope_eq_false ha hpa (hout a ha hpa)
      exact ⟨s, hnode, hasSpace_of_mem_below hids hs⟩
    · obtain ⟨outer, houter, hpo, houterKind, hinner⟩ := exists_innermost hout
      have houterIn : c.InSpaces t.root outer := ⟨houter, fun a ha hoa => hp.2 a ha (hpo.trans hoa)⟩
      have hlarger := hpo.size_lt
      have hbound := houter.size_lt
      obtain ⟨s, rfl, hspace⟩ := ih _ (by omega) houterIn houterKind rfl
      obtain ⟨m, hm, hnode⟩ :=
        hp.exists_mem_below (fun _ => isScope_of_isNamespace) hkind houter hpo hinner
      exact ⟨m, hnode, hasSpace_of_mem_within hspace (List.mem_append_left _ hm)⟩

end Converter

/-! ## Types -/

/-- One sort of type: which kinds declare it, how it is made of a node, and where it is listed.
Classes and interfaces differ in nothing else as far as the following is concerned, and the
equations say what is needed of their lists. -/
structure TypeListing (α : Type) where
  accept : Classifier → String → Bool
  make : Converter → SyntaxTree → SyntaxNode → α
  node : α → NodeId
  ofUnit : UnitDecl → List α
  ofSpace : NamespaceDecl → List α
  isScope : ∀ (k : Classifier) kind, accept k kind = true → k.isScope kind = true
  node_make : ∀ c t n, node (make c t n) = n.id
  ofUnit_unit : ∀ (c : Converter) (t : SyntaxTree),
    ofUnit (c.unit t) = (c.unclaimed accept t.root).map fun s => make c t s.node
  ofSpace_space : ∀ (c : Converter) (t : SyntaxTree) (s : Site),
    ofSpace (c.namespaceDecl t s) = (c.within accept s).map fun m => make c t m.node

namespace TypeListing

/-- Classes, as they are listed by units and namespaces. -/
def classes : TypeListing ClassDecl where
  accept := Classifier.isClass
  make := Converter.classDecl
  node := ClassDecl.node
  ofUnit := UnitDecl.classes
  ofSpace := NamespaceDecl.classes
  isScope k kind h := Converter.isScope_of_isSpaceMember k (by simp [Classifier.isSpaceMember, h])
  node_make c t n := by rw [Converter.classDecl_eq]
  ofUnit_unit _ _ := rfl
  ofSpace_space c t s := by rw [Converter.namespaceDecl_eq]

/-- Interfaces, as they are listed by units and namespaces. -/
def interfaces : TypeListing InterfaceDecl where
  accept := Classifier.isInterface
  make := Converter.interface
  node := InterfaceDecl.node
  ofUnit := UnitDecl.interfaces
  ofSpace := NamespaceDecl.interfaces
  isScope k kind h := Converter.isScope_of_isSpaceMember k (by simp [Classifier.isSpaceMember, h])
  node_make _ _ _ := rfl
  ofUnit_unit _ _ := rfl
  ofSpace_space c t s := by rw [Converter.namespaceDecl_eq]

variable {α : Type}

/-- The type that a node declares is in the unit, and where it is depends on its owner. Classes and
interfaces are kept in the same way, so the listing is a parameter. -/
structure Kept (l : TypeListing α) (c : Converter) (t : SyntaxTree) (n : SyntaxNode) : Prop where
  /-- It is declared, by the unit or by a namespace at some level. -/
  somewhere : l.make c t n ∈ l.ofUnit (c.unit t)
    ∨ ∃ d, (c.unit t).HasSpace d ∧ l.make c t n ∈ l.ofSpace d
  /-- Outside of namespaces, the unit declares it just when nothing owns it. -/
  top_iff : c.Outside t.root n →
    (l.make c t n ∈ l.ofUnit (c.unit t) ↔ ¬∃ s, c.OwnedBy t.root n s)
  /-- What owns it declares it instead, and is itself declared. -/
  owned : c.Outside t.root n → ∀ s, c.OwnedBy t.root n s →
    (c.unit t).HasSpace (c.namespaceDecl t s) ∧ l.make c t n ∈ l.ofSpace (c.namespaceDecl t s)
      ∧ ∀ d ∈ l.ofUnit (c.unit t), l.node d ≠ n.id

variable {l : TypeListing α} {c : Converter} {t : SyntaxTree} {n : SyntaxNode}

theorem exists_mem_unclaimed (hids : t.root.ids.Nodup) (hn : n.Below t.root) {d : α}
    (hd : d ∈ l.ofUnit (c.unit t)) (hnode : l.node d = n.id) :
    ∃ s ∈ c.unclaimed l.accept t.root, s.node = n := by
  rw [l.ofUnit_unit, List.mem_map] at hd
  obtain ⟨s, hs, rfl⟩ := hd
  rw [l.node_make] at hnode
  have hmem := (Search.of_mem_inList t.root.children (Converter.nodup_below hids) hs).1
  exact ⟨s, hs, SyntaxNode.eq_of_id_eq (Converter.nodup_below hids) hmem hn hnode⟩

theorem mem_ofSpace {s m : Site} (hm : m ∈ c.within l.accept s) :
    l.make c t m.node ∈ l.ofSpace (c.namespaceDecl t s) := by
  rw [l.ofSpace_space]
  exact List.mem_map.mpr ⟨m, hm, rfl⟩

/-- **A type that is inside namespaces only is in the unit**, and where it is depends on its
owner. -/
theorem kept (hids : t.root.ids.Nodup) (hn : c.InSpaces t.root n)
    (hkind : l.accept c.classifier n.kind = true) : l.Kept c t n := by
  have hscope := l.isScope c.classifier
  -- outside of namespaces, nothing around the node keeps searches from it
  have hopen : c.Outside t.root n → ∀ a, a.Below t.root → n.Below a →
      c.classifier.isScope a.kind = false :=
    fun hout a ha hna => hn.isScope_eq_false ha hna (hout a ha hna)
  have htop : c.Outside t.root n →
      (l.make c t n ∈ l.ofUnit (c.unit t) ↔ ¬∃ s, c.OwnedBy t.root n s) := by
    intro hout
    rw [← Converter.exists_mem_unclaimed_iff hscope hkind hids hn.1 (hopen hout)]
    constructor
    · exact fun hmem => exists_mem_unclaimed hids hn.1 hmem (l.node_make c t n)
    · rintro ⟨s, hs, rfl⟩
      rw [l.ofUnit_unit]
      exact List.mem_map.mpr ⟨s, hs, rfl⟩
  have howned : c.Outside t.root n → ∀ s, c.OwnedBy t.root n s →
      (c.unit t).HasSpace (c.namespaceDecl t s)
        ∧ l.make c t n ∈ l.ofSpace (c.namespaceDecl t s) := by
    intro hout s hs
    obtain ⟨m, hm, rfl⟩ := Converter.exists_mem_within hscope hkind hs (hopen hout)
    exact ⟨Converter.hasSpace_of_mem_below hids hs.1, mem_ofSpace (List.mem_append_right _ hm)⟩
  refine ⟨?_, htop, fun hout s hs => ⟨(howned hout s hs).1, (howned hout s hs).2, ?_⟩⟩
  · by_cases hout : c.Outside t.root n
    · by_cases hs : ∃ s, c.OwnedBy t.root n s
      · obtain ⟨s, hs⟩ := hs
        exact Or.inr ⟨_, howned hout s hs⟩
      · exact Or.inl ((htop hout).mpr hs)
    · -- the innermost namespace around the node is declared, and finds the node
      obtain ⟨p, hp, hnp, hspace, hinner⟩ := Converter.exists_innermost hout
      have hpIn : c.InSpaces t.root p := ⟨hp, fun a ha hpa => hn.2 a ha (hnp.trans hpa)⟩
      obtain ⟨s, rfl, hhas⟩ := Converter.hasSpace_of_namespace hids hpIn hspace
      obtain ⟨m, hm, rfl⟩ := hn.exists_mem_below hscope hkind hp hnp hinner
      exact Or.inr ⟨_, hhas, mem_ofSpace (List.mem_append_left _ hm)⟩
  -- whatever the unit declares from the node would be unclaimed, and it is claimed
  · intro d hd hnode
    exact (Converter.exists_mem_unclaimed_iff hscope hkind hids hn.1 (hopen hout)).mp
      (exists_mem_unclaimed hids hn.1 hd hnode) ⟨s, hs⟩

end TypeListing

namespace Converter

/-- **No declaration is lost.** Whatever the rules, a class or an interface below the root of a tree
that is inside no scopes but namespaces is declared in the unit. Outside of namespaces the unit
itself declares it, unless it or a node above it follows a namespace that owns what follows; then
that namespace is in the unit and declares it instead. Trees made of sound forests have ids that
tell their nodes apart. -/
theorem nothing_lost (c : Converter) (t : SyntaxTree) (hids : t.root.ids.Nodup) (n : SyntaxNode)
    (hn : c.InSpaces t.root n) :
    (c.classifier.isClass n.kind = true → TypeListing.classes.Kept c t n)
      ∧ (c.classifier.isInterface n.kind = true → TypeListing.interfaces.Kept c t n) :=
  ⟨fun hkind => TypeListing.kept hids hn hkind, fun hkind => TypeListing.kept hids hn hkind⟩

/-- A class, to be put behind namespaces. -/
def lateClass : SyntaxNode := .node 4 { kind := "class_declaration" } []

/-- Two namespaces without bodies, and after them a condition with a class in it. -/
def classAfterSpaces : SyntaxTree where
  nodes := {}
  root := .node 0 { kind := "compilation_unit" }
    [.node 1 { kind := "file_scoped_namespace_declaration" } [],
      .node 2 { kind := "file_scoped_namespace_declaration" } [],
      .node 3 { kind := "preproc_if" } [lateClass]]
  source := ""
  language := "csharp"

/-- The class is inside no scope and is kept, although the second namespace is itself owned by the
first. -/
theorem late_class_kept :
    (Converter.mk "csharp" (.byRules .csharp)).InSpaces classAfterSpaces.root lateClass
      ∧ TypeListing.classes.Kept (Converter.mk "csharp" (.byRules .csharp)) classAfterSpaces
        lateClass := by
  have hin : (Converter.mk "csharp" (.byRules .csharp)).InSpaces classAfterSpaces.root
      lateClass := by
    have hbelow : ∀ a, a.Below classAfterSpaces.root ↔ a ∈ classAfterSpaces.root.children
        ∨ a = lateClass := by
      simp [SyntaxNode.Below, classAfterSpaces, SyntaxNode.children, SyntaxNode.preorderAll,
        SyntaxNode.preorder, lateClass, or_assoc]
    refine ⟨(hbelow _).mpr (Or.inr rfl), fun a ha hna => ?_⟩
    rcases (hbelow a).mp ha with hchild | rfl
    · -- two namespaces, and the condition, which is no scope
      have hkinds : ∀ m ∈ classAfterSpaces.root.children,
          (Classifier.byRules .csharp).isScope m.kind = false
            ∨ (Classifier.byRules .csharp).isNamespace m.kind = true := by decide
      exact hkinds a hchild
    · cases hna
  exact ⟨hin, (nothing_lost _ classAfterSpaces (by decide) _ hin).1 (by decide)⟩

/-- A file that is a single class. -/
def classAtRoot : SyntaxTree where
  nodes := {}
  root := .node 0 { kind := "class_declaration", name := some "A" } []
  source := "class A { }"
  language := "csharp"

/-- The root is not looked at, so a class there is declared nowhere. -/
theorem lost_at_root :
    (∀ a, a.Below classAtRoot.root → ¬classAtRoot.root.Below a)
      ∧ (Classifier.byRules .csharp).isClass classAtRoot.root.kind = true
      ∧ ((Converter.mk "csharp" (.byRules .csharp)).unit classAtRoot).entries = [] := by
  refine ⟨fun a ha => ?_, by decide, by decide⟩
  cases ha

end Converter

end SyntaxForest
