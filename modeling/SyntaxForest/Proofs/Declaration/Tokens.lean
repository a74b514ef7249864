import SyntaxForest.Declaration.Outline
import SyntaxForest.Proofs.Data.Basic
import SyntaxForest.Proofs.Declaration.Entries
import SyntaxForest.Proofs.Declaration.NothingLost

/-!
# Declarations of trees with and without tokens

A tree can be made with its tokens, the anonymous leaves for keywords and punctuation, or without
them. Whatever is looked for in it, a declaration, a name, a list of parameters or a body, is looked
for by the kinds and names of nodes; tokens whose kinds tell nothing are never what is found.

* **`Classifier.tells`**, **`Converter.Silent`** — the kinds that mean something to a converter, and
  tokens that it passes over.
* **`Converter.Thins`** — the second tree is the first one without its silent tokens. The ids that
  correspond are listed, since siblings that a namespace owns are left out by their ids.
* **`ThinsAll.filter`**, **`ThinsAll.filter_preorder`**, **`ThinsAll.inList`** — whatever is looked
  for, corresponding nodes are found.
* **`outline_unit`** — both trees declare the same.
-/

namespace SyntaxForest

theorem listOf_map_eq {α β γ : Type} {R : α → β → Prop} {decl : α → γ} {decl' : β → γ}
    {outline : γ → Datum} {l : List α} {l' : List β} (h : List.Forall₂ R l l')
    (hdecl : ∀ a ∈ l, ∀ b, R a b → outline (decl a) = outline (decl' b)) :
    Datum.listOf outline (l.map decl) = Datum.listOf outline (l'.map decl') := by
  rw [Datum.listOf, Datum.listOf, List.map_map, List.map_map]
  exact congrArg Datum.list (map_eq_of_forall₂ h hdecl)

theorem ClassDecl.outlines_eq (classes : List ClassDecl) :
    outlines classes = classes.map outline := by
  induction classes with
  | nil => rfl
  | cons c rest ih => rw [outlines, ih, List.map_cons]

theorem NamespaceDecl.outlines_eq (namespaces : List NamespaceDecl) :
    outlines namespaces = namespaces.map outline := by
  induction namespaces with
  | nil => rfl
  | cons n rest ih => rw [outlines, ih, List.map_cons]

theorem NamespaceDecl.length_of_outline {n n' : NamespaceDecl} (h : n.outline = n'.outline) :
    n.namespaces.length = n'.namespaces.length := by
  cases n
  cases n'
  simp only [outline, outlineOf, Datum.record.injEq, List.cons_append, List.nil_append,
    List.cons.injEq, Prod.mk.injEq,
    Datum.list.injEq, outlines_eq] at h
  have hlengths := congrArg List.length h.2.2.2.2.1.2
  rwa [List.length_map, List.length_map] at hlengths

/-- The kind is one that a converter looks for. -/
def Classifier.tells (c : Classifier) (kind : String) : Bool :=
  c.isImport kind || c.isNamespace kind || c.isMember kind || c.isParameterList
    kind || c.isBody kind
    || Text.endsWith kind "identifier"

theorem Classifier.tells_eq_false_iff {c : Classifier} {kind : String} :
    c.tells kind = false ↔ c.isImport kind = false ∧ c.isNamespace kind = false
      ∧ c.isMember kind = false
      ∧ c.isParameterList kind = false ∧ c.isBody kind = false
      ∧ Text.endsWith kind "identifier" = false := by
  simp only [tells, Bool.or_eq_false_iff, and_assoc]

theorem Classifier.isMember_eq_false_iff {c : Classifier} {kind : String} :
    c.isMember kind = false ↔ c.isMethod kind = false ∧ c.isFunction kind = false
      ∧ c.isProperty kind = false
      ∧ c.isField kind = false ∧ c.isClass kind = false ∧ c.isInterface kind = false := by
  simp only [isMember, isCallable, Bool.or_eq_false_iff, and_assoc]

/-- An anonymous node that neither failed nor was made up. -/
def SyntaxNode.isToken (n : SyntaxNode) : Bool :=
  !((Assoc.get? n.info.metadata "is_named").map Datum.isGiven).getD true && !n.info.isError
    && !n.info.isMissing

namespace Converter

variable {c : Converter} {ids : List (NodeId × NodeId)} {n m : SyntaxNode}
  {nodes others : List SyntaxNode}

/-- The converter passes over this token. -/
structure Silent (c : Converter) (n : SyntaxNode) : Prop where
  token : n.isToken = true
  leaf : n.children = []
  nameless : n.info.isNamed = false
  untold : c.classifier.tells n.kind = false

theorem Silent.preorder (h : c.Silent n) : n.preorder = [n] := by
  cases n with
  | node id info children =>
    obtain rfl : children = [] := h.leaf
    rfl

mutual

/-- The second tree is the first one without tokens, all of which are silent, with other ids. -/
def Thins (c : Converter) (ids : List (NodeId × NodeId)) : SyntaxNode → SyntaxNode → Prop
  | .node id info children, .node id' info' children' =>
    (id, id') ∈ ids ∧ info = info' ∧ ThinsAll c ids children children'

def ThinsAll (c : Converter) (ids : List (NodeId × NodeId)) :
    List SyntaxNode → List SyntaxNode → Prop
  | [], others => others = []
  | n :: rest, others =>
    if n.isToken then c.Silent n ∧ ThinsAll c ids rest others
    else ∃ m remaining, others = m :: remaining ∧ Thins c ids n m ∧ ThinsAll c ids rest remaining

end

theorem Thins.parts (h : Thins c ids n m) :
    (n.id, m.id) ∈ ids ∧ n.info = m.info ∧ ThinsAll c ids n.children m.children := by
  cases n
  cases m
  exact h

/-- The test looks at what a node says, and no silent token passes it. -/
structure Blind (c : Converter) (test : SyntaxNode → Bool) : Prop where
  agree : ∀ {n m : SyntaxNode}, n.info = m.info → test n = test m
  silent : ∀ {n : SyntaxNode}, c.Silent n → test n = false

/-- What is looked for among siblings is found at corresponding nodes. -/
theorem ThinsAll.filter {test : SyntaxNode → Bool} (htest : c.Blind test) :
    ∀ {nodes others : List SyntaxNode}, ThinsAll c ids nodes others →
      List.Forall₂ (Thins c ids) (nodes.filter test) (others.filter test)
  | [], others, h => by
    rw [ThinsAll] at h
    subst h
    exact .nil
  | n :: rest, others, h => by
    rw [ThinsAll] at h
    split at h
    · rw [List.filter_cons_of_neg (by rw [htest.silent h.1]; exact Bool.false_ne_true)]
      exact ThinsAll.filter htest h.2
    · obtain ⟨m, remaining, rfl, hnm, hrest⟩ := h
      rw [List.filter_cons, List.filter_cons, htest.agree hnm.parts.2.1]
      split
      · exact .cons hnm (ThinsAll.filter htest hrest)
      · exact ThinsAll.filter htest hrest

mutual

theorem Thins.filter_preorder {test : SyntaxNode → Bool} (htest : c.Blind test) :
    ∀ {n m : SyntaxNode}, Thins c ids n m →
      List.Forall₂ (Thins c ids) (n.preorder.filter test) (m.preorder.filter test)
  | .node id info children, .node id' info' children', h => by
    have hrest := ThinsAll.filter_preorder htest h.parts.2.2
    rw [SyntaxNode.preorder, SyntaxNode.preorder, List.filter_cons, List.filter_cons,
      htest.agree h.parts.2.1]
    split
    · exact .cons h hrest
    · exact hrest

/-- The same anywhere below. -/
theorem ThinsAll.filter_preorder {test : SyntaxNode → Bool} (htest : c.Blind test) :
    ∀ {nodes others : List SyntaxNode}, ThinsAll c ids nodes others →
      List.Forall₂ (Thins c ids) ((SyntaxNode.preorderAll nodes).filter test)
        ((SyntaxNode.preorderAll others).filter test)
  | [], others, h => by
    rw [ThinsAll] at h
    subst h
    exact .nil
  | n :: rest, others, h => by
    rw [ThinsAll] at h
    rw [SyntaxNode.preorderAll, List.filter_append]
    split at h
    · have hnone : n.preorder.filter test = [] := by
        rw [h.1.preorder, List.filter_cons_of_neg
          (by rw [htest.silent h.1]; exact Bool.false_ne_true),
          List.filter_nil]
      rw [hnone, List.nil_append]
      exact ThinsAll.filter_preorder htest h.2
    · obtain ⟨m, remaining, rfl, hnm, hrest⟩ := h
      rw [SyntaxNode.preorderAll, List.filter_append]
      exact List.rel_append (hnm.filter_preorder htest) (ThinsAll.filter_preorder htest hrest)

end

theorem find?_cases {test : SyntaxNode → Bool} {l l' : List SyntaxNode}
    (h : List.Forall₂ (Thins c ids) (l.filter test) (l'.filter test)) :
    (l.find? test = none ∧ l'.find? test = none)
      ∨ ∃ n m, l.find? test = some n ∧ l'.find? test = some m ∧ Thins c ids n m := by
  rw [← List.head?_filter, ← List.head?_filter]
  generalize l.filter test = found at h ⊢
  generalize l'.filter test = found' at h ⊢
  cases h with
  | nil => exact .inl ⟨rfl, rfl⟩
  | cons hnm _ => exact .inr ⟨_, _, rfl, rfl, hnm⟩

/-! ## Searches -/

/-- The sites correspond: their nodes and the siblings after them. -/
def SiteThins (c : Converter) (ids : List (NodeId × NodeId)) (s s' : Site) : Prop :=
  Thins c ids s.node s'.node ∧ ThinsAll c ids s.following s'.following

/-- Corresponding nodes are left out by both searches or by none. -/
def SkipsAlike (ids : List (NodeId × NodeId)) (skip skip' : List NodeId) : Prop :=
  ∀ a b, (a, b) ∈ ids → (a ∈ skip ↔ b ∈ skip')

mutual

theorem Thins.inTree {accept closed : String → Bool} {skip skip' : List NodeId}
    (haccept : ∀ n, c.Silent n → accept n.kind = false) (hskip : SkipsAlike ids skip skip') :
    ∀ {n m : SyntaxNode} {following following' : List SyntaxNode}, Thins c ids n m →
      ThinsAll c ids following following' →
      List.Forall₂ (SiteThins c ids) (Search.inTree ⟨accept, closed, skip⟩ following n)
        (Search.inTree ⟨accept, closed, skip'⟩ following' m)
  | .node id info children, .node id' info' children', following, following', h, hfollowing => by
    obtain ⟨hid, hinfo, hbelow⟩ := h.parts
    obtain rfl : info = info' := hinfo
    have hboth : skip.contains id = skip'.contains id' := by
      rw [Bool.eq_iff_iff, List.contains_iff_mem, List.contains_iff_mem]
      exact hskip id id' hid
    -- both searches do the same with the node: leave it out, accept it, stop at it or go on below
    -- it
    rw [Search.inTree, Search.inTree, hboth]
    split
    · exact .nil
    · split
      · exact .cons ⟨h, hfollowing⟩ .nil
      · split
        · exact .nil
        · exact ThinsAll.inList haccept hskip hbelow

/-- **Searches find corresponding sites**, provided that they accept no silent node and skip
corresponding nodes. The recursion is the one of the search, over both lists at once. -/
theorem ThinsAll.inList {accept closed : String → Bool} {skip skip' : List NodeId}
    (haccept : ∀ n, c.Silent n → accept n.kind = false) (hskip : SkipsAlike ids skip skip') :
    ∀ {nodes others : List SyntaxNode}, ThinsAll c ids nodes others →
      List.Forall₂ (SiteThins c ids) (Search.inList ⟨accept, closed, skip⟩ nodes)
        (Search.inList ⟨accept, closed, skip'⟩ others)
  | [], others, h => by
    rw [ThinsAll] at h
    subst h
    exact .nil
  | n :: rest, others, h => by
    rw [ThinsAll] at h
    rw [Search.inList]
    split at h
    · -- a token is not accepted, and nothing is below it
      have hnone : Search.inTree ⟨accept, closed, skip⟩ rest n = [] := by
        cases n with
        | node id info children =>
          obtain rfl : children = [] := h.1.leaf
          have hkind : accept info.kind = false := haccept _ h.1
          simp only [Search.inTree, hkind, Search.inList, Bool.false_eq_true, if_false, ite_self]
      rw [hnone, List.nil_append]
      exact ThinsAll.inList haccept hskip h.2
    -- the siblings after both nodes correspond, so the sites do
    · obtain ⟨m, remaining, rfl, hnm, hrest⟩ := h
      rw [Search.inList]
      exact List.rel_append (hnm.inTree haccept hskip hrest) (ThinsAll.inList haccept hskip hrest)

end

theorem skipsAlike_nil : SkipsAlike ids [] [] :=
  fun _ _ _ => iff_of_false List.not_mem_nil List.not_mem_nil

/-- All that is searched for tells something by its kind. -/
def Told (c : Converter) (accept : Classifier → String → Bool) : Prop :=
  ∀ kind, c.classifier.tells kind = false → accept c.classifier kind = false

section Told

variable (c : Converter)

theorem told_isImport : c.Told Classifier.isImport := fun _ h =>
  (Classifier.tells_eq_false_iff.mp h).1

theorem told_isNamespace : c.Told Classifier.isNamespace := fun _ h =>
  (Classifier.tells_eq_false_iff.mp h).2.1

theorem told_isMember : c.Told Classifier.isMember := fun _ h =>
  (Classifier.tells_eq_false_iff.mp h).2.2.1

theorem told_isParameterList : c.Told Classifier.isParameterList := fun _ h =>
  (Classifier.tells_eq_false_iff.mp h).2.2.2.1

theorem told_isBody : c.Told Classifier.isBody := fun _ h =>
  (Classifier.tells_eq_false_iff.mp h).2.2.2.2.1

theorem told_isClass : c.Told Classifier.isClass := fun kind h =>
  (Classifier.isMember_eq_false_iff.mp (c.told_isMember kind h)).2.2.2.2.1

theorem told_isInterface : c.Told Classifier.isInterface := fun kind h =>
  (Classifier.isMember_eq_false_iff.mp (c.told_isMember kind h)).2.2.2.2.2

theorem told_isFunction : c.Told Classifier.isFunction := fun kind h =>
  (Classifier.isMember_eq_false_iff.mp (c.told_isMember kind h)).2.1

end Told

theorem forall₂_below {accept : Classifier → String → Bool} (htold : c.Told accept)
    (h : Thins c ids n m) :
    List.Forall₂ (SiteThins c ids) (c.below accept n) (c.below accept m) :=
  h.parts.2.2.inList (fun _ hn => htold _ hn.untold) skipsAlike_nil

theorem thinsAll_followers {s s' : Site} (h : SiteThins c ids s s') :
    ThinsAll c ids (c.followers s) (c.followers s') := by
  have hkind : s.node.kind = s'.node.kind := congrArg NodeInfo.kind h.1.parts.2.1
  rw [followers, followers, hkind]
  split
  · exact h.2
  · rw [ThinsAll]

theorem forall₂_within {accept : Classifier → String → Bool} (htold : c.Told accept) {s s' : Site}
    (h : SiteThins c ids s s') :
    List.Forall₂ (SiteThins c ids) (c.within accept s) (c.within accept s') :=
  List.rel_append (forall₂_below htold h.1)
    ((thinsAll_followers h).inList (fun _ hn => htold _ hn.untold) skipsAlike_nil)

theorem forall₂_members (test : Classifier → String → Bool) (h : Thins c ids n m) :
    List.Forall₂ (Thins c ids) (c.members n test) (c.members m test) := by
  have hbelow := forall₂_below c.told_isMember h
  rw [members, members]
  generalize c.below Classifier.isMember n = l at hbelow ⊢
  generalize c.below Classifier.isMember m = l' at hbelow ⊢
  induction hbelow with
  | nil => exact .nil
  | @cons s s' l l' hs _ ih =>
    have hkind : s.node.kind = s'.node.kind := congrArg NodeInfo.kind hs.1.parts.2.1
    rw [List.map_cons, List.map_cons, List.filter_cons, List.filter_cons, hkind]
    split
    · exact .cons hs.1 ih
    · exact ih

/-! ## What is told about corresponding nodes -/

section Blind

variable (c : Converter)

theorem blind_isNamed : c.Blind fun n => n.info.isNamed where
  agree h := by rw [h]
  silent h := h.nameless

theorem blind_isIdentifier : c.Blind isIdentifier where
  agree h := by rw [isIdentifier, isIdentifier, SyntaxNode.kind, SyntaxNode.kind, h]
  silent h := by
    obtain ⟨-, -, -, -, -, hkind⟩ := Classifier.tells_eq_false_iff.mp h.untold
    exact hkind

theorem blind_of_told {accept : Classifier → String → Bool} (htold : c.Told accept) :
    c.Blind fun n => accept c.classifier n.kind where
  agree h := by rw [SyntaxNode.kind, SyntaxNode.kind, h]
  silent h := htold _ h.untold

theorem blind_isParameter : c.Blind isParameter where
  agree h := by rw [isParameter, isParameter, SyntaxNode.kind, SyntaxNode.kind, h]
  silent h := by
    have htoken := h.token
    simp only [SyntaxNode.isToken, Bool.and_eq_true, Bool.not_eq_true'] at htoken
    rw [isParameter, htoken.1.1, Bool.false_and]

end Blind

theorem span_thins (h : Thins c ids n m) : n.span = m.span := congrArg NodeInfo.span h.parts.2.1

section Outlines

variable {t t' : SyntaxTree} (hsource : t.source = t'.source)

include hsource

theorem textOf_span (span : Option Span) : t.textOf span = t'.textOf span := by
  unfold SyntaxTree.textOf
  rw [hsource]

theorem textOf_thins (h : Thins c ids n m) : textOf t n = textOf t' m := by
  rw [textOf, textOf, SyntaxNode.span, SyntaxNode.span, h.parts.2.1, textOf_span hsource]

/-- **Corresponding nodes have the same name**: their own, their text, or that of the first named
node or identifier below. -/
theorem resolveName_thins (h : Thins c ids n m) : resolveName t n = resolveName t' m := by
  obtain ⟨-, hinfo, hbelow⟩ := h.parts
  have hnamed := find?_cases (hbelow.filter_preorder c.blind_isNamed)
  have hfirst := find?_cases (hbelow.filter_preorder c.blind_isIdentifier)
  rw [resolveName, resolveName, hinfo, c.blind_isIdentifier.agree hinfo, textOf_thins hsource h]
  split
  · rfl
  · split
    · rfl
    · dsimp only
      -- the first named node below is looked for before the first identifier
      rcases hnamed with ⟨hnone, hnone'⟩ | ⟨x, y, hx, hy, hxy⟩
      · rw [hnone, hnone']
        rcases hfirst with ⟨hnone, hnone'⟩ | ⟨x, y, hx, hy, hxy⟩
        · rw [hnone, hnone']
          rfl
        · rw [hx, hy]
          exact textOf_thins hsource hxy
      · rw [hx, hy]
        exact congrArg NodeInfo.name hxy.parts.2.1

theorem nameOr_thins (h : Thins c ids n m) (unknown : String) :
    nameOr t n unknown = nameOr t' m unknown := by
  rw [nameOr, nameOr, resolveName_thins hsource h]

theorem outline_parameter (h : Thins c ids n m) :
    (parameter t n).outline = (parameter t' m).outline := by
  rw [ParameterDecl.outline, ParameterDecl.outline, parameter, parameter]
  dsimp only
  rw [span_thins h, textOf_span hsource, nameOr_thins hsource h]

theorem outline_parameters (h : Thins c ids n m) :
    Datum.listOf ParameterDecl.outline (c.parameters t n) = Datum.listOf ParameterDecl.outline
      (c.parameters t' m) := by
  rw [parameters, parameters]
  rcases find?_cases (h.parts.2.2.filter (c.blind_of_told c.told_isParameterList)) with
    ⟨hnone, hnone'⟩ | ⟨x, y, hx, hy, hxy⟩
  · rw [hnone, hnone']
  · rw [hx, hy]
    exact listOf_map_eq (hxy.parts.2.2.filter c.blind_isParameter) fun _ _ _ hab =>
      outline_parameter hsource hab

theorem signature_thins (h : Thins c ids n m) : c.signature t n = c.signature t' m := by
  rw [signature, signature, beforeBody, beforeBody, span_thins h, textOf_span hsource]
  rcases find?_cases (h.parts.2.2.filter (c.blind_of_told c.told_isBody)) with
    ⟨hnone, hnone'⟩ | ⟨x, y, hx, hy, hxy⟩
  · rw [hnone, hnone']
  · rw [hx, hy]
    dsimp only
    rw [span_thins hxy]

/-- **Corresponding methods declare the same.** -/
theorem outline_method (h : Thins c ids n m) :
    (c.method t n).outline = (c.method t' m).outline := by
  rw [MethodDecl.outline, MethodDecl.outline, method, method]
  dsimp only
  rw [span_thins h, nameOr_thins hsource h, outline_parameters hsource h, signature_thins hsource h]

theorem outline_property (h : Thins c ids n m) :
    (property t n).outline = (property t' m).outline := by
  rw [MemberDecl.outline, MemberDecl.outline, property, property]
  dsimp only
  rw [span_thins h, nameOr_thins hsource h]

theorem outline_field (h : Thins c ids n m) : (field t n).outline = (field t' m).outline := by
  rw [MemberDecl.outline, MemberDecl.outline, field, field]
  dsimp only
  rw [span_thins h, nameOr_thins hsource h]

/-- **Corresponding interfaces declare the same**, member by member, since their searches find
corresponding members in the same order. -/
theorem outline_interface (h : Thins c ids n m) :
    (c.interface t n).outline = (c.interface t' m).outline := by
  rw [InterfaceDecl.outline, InterfaceDecl.outline, interface, interface]
  dsimp only
  rw [span_thins h, nameOr_thins hsource h,
    listOf_map_eq (forall₂_members Classifier.isCallable h) fun _ _ _ hxy =>
      outline_method hsource hxy,
    listOf_map_eq (forall₂_members Classifier.isProperty h) fun _ _ _ hxy =>
      outline_property hsource hxy]

/-- **Corresponding classes declare the same.** -/
theorem outline_classDecl (n : SyntaxNode) :
    ∀ m, Thins c ids n m → (c.classDecl t n).outline = (c.classDecl t' m).outline := by
  induction n using classDecl.induct c with
  | case1 n ih =>
    intro m h
    have hclasses : (c.members n Classifier.isClass).map (ClassDecl.outline ∘ c.classDecl t)
        = (c.members m Classifier.isClass).map (ClassDecl.outline ∘ c.classDecl t') :=
      map_eq_of_forall₂ (forall₂_members Classifier.isClass h) fun x hx y hxy => ih ⟨x, hx⟩ y hxy
    have hkind : n.kind = m.kind := congrArg NodeInfo.kind h.parts.2.1
    rw [classDecl_eq, classDecl_eq, ClassDecl.outline, ClassDecl.outline, ClassDecl.outlines_eq,
      ClassDecl.outlines_eq, List.map_map, List.map_map, hclasses, hkind, span_thins h,
      nameOr_thins hsource h,
      listOf_map_eq (forall₂_members Classifier.isCallable h) fun _ _ _ hxy =>
        outline_method hsource hxy,
      listOf_map_eq (forall₂_members Classifier.isProperty h) fun _ _ _ hxy =>
        outline_property hsource hxy,
      listOf_map_eq (forall₂_members Classifier.isField h) fun _ _ _ hxy =>
        outline_field hsource hxy,
      listOf_map_eq (forall₂_members Classifier.isInterface h) fun _ _ _ hxy =>
        outline_interface hsource hxy]

/-- **Corresponding namespaces declare the same**, with the siblings that they own. -/
theorem outline_namespaceDecl (s : Site) :
    ∀ s', SiteThins c ids s s' →
      (c.namespaceDecl t s).outline = (c.namespaceDecl t' s').outline := by
  induction s using namespaceDecl.induct c with
  | case1 s ih =>
    intro s' h
    have hnamespaces : (c.within Classifier.isNamespace s).map
        (NamespaceDecl.outline ∘ c.namespaceDecl t)
        = (c.within Classifier.isNamespace s').map (NamespaceDecl.outline ∘ c.namespaceDecl t') :=
      map_eq_of_forall₂ (forall₂_within c.told_isNamespace h) fun x hx y hxy => ih ⟨x, hx⟩ y hxy
    rw [namespaceDecl_eq, namespaceDecl_eq, NamespaceDecl.outline, NamespaceDecl.outline,
      NamespaceDecl.outlines_eq, NamespaceDecl.outlines_eq, List.map_map, List.map_map, hnamespaces,
      span_thins h.1, nameOr_thins hsource h.1,
      listOf_map_eq (forall₂_within c.told_isClass h) fun _ _ _ hxy =>
        outline_classDecl hsource _ _ hxy.1,
      listOf_map_eq (forall₂_within c.told_isInterface h) fun _ _ _ hxy =>
        outline_interface hsource hxy.1]

end Outlines

/-! ## Units -/

/-- The second tree, from its root down, is the first one without tokens. The ids that correspond
are those of all nodes but the tokens and the roots. -/
structure ThinsBelow (c : Converter) (ids : List (NodeId × NodeId)) (root root' : SyntaxNode) :
    Prop where
  info : root.info = root'.info
  below : ThinsAll c ids root.children root'.children
  first : ids.map Prod.fst = ((SyntaxNode.preorderAll root.children).filter (!·.isToken)).map
    SyntaxNode.id
  second : ids.map Prod.snd = SyntaxNode.idsAll root'.children

theorem ThinsAll.forall₂ {nodes others : List SyntaxNode} (h : ThinsAll c ids nodes others) :
    List.Forall₂ (Thins c ids) (nodes.filter (!·.isToken)) others := by
  induction nodes generalizing others with
  | nil =>
    rw [ThinsAll] at h
    subst h
    exact .nil
  | cons n rest ih =>
    rw [ThinsAll] at h
    split at h
    · rename_i htoken
      rw [List.filter_cons_of_neg (by rw [htoken]; exact Bool.false_ne_true)]
      exact ih h.2
    · rename_i hkept
      obtain ⟨m, remaining, rfl, hnm, hrest⟩ := h
      rw [List.filter_cons_of_pos (by rw [Bool.eq_false_iff.mpr hkept]; rfl)]
      exact .cons hnm (ih hrest)

theorem mem_claimed {root : SyntaxNode} {id : NodeId} :
    id ∈ c.claimed root ↔ ∃ s ∈ c.below Classifier.isNamespace root, ∃ x ∈ c.followers s,
      x.id = id := by
  rw [claimed, List.mem_flatMap]
  refine exists_congr fun s => and_congr_right fun _ => ?_
  rw [List.mem_map]

theorem followers_subset (s : Site) : c.followers s ⊆ s.following := by
  rw [followers]
  split
  · exact List.Subset.refl _
  · exact List.nil_subset _

namespace ThinsBelow

variable {root root' : SyntaxNode}

theorem kept_of_mem (h : ThinsBelow c ids root root')
    (hids : (SyntaxNode.idsAll root.children).Nodup) {x : SyntaxNode} {b : NodeId}
    (hx : x ∈ SyntaxNode.preorderAll root.children) (hb : (x.id, b) ∈ ids) :
    x.isToken = false := by
  have hkept : x.id ∈ ids.map Prod.fst := List.mem_map_of_mem hb
  rw [h.first, List.mem_map] at hkept
  obtain ⟨y, hy, hid⟩ := hkept
  obtain ⟨hinside, htoken⟩ := List.mem_filter.mp hy
  rw [← SyntaxNode.eq_of_id_eq hids hinside hx hid]
  exact Bool.not_eq_true' _ |>.mp htoken

/-- **The siblings that namespaces own correspond.** A token may be owned as well, but it has no
counterpart, so its id is in no pair. -/
theorem skipsAlike (h : ThinsBelow c ids root root')
    (hids : (SyntaxNode.idsAll root.children).Nodup)
    (hids' : (SyntaxNode.idsAll root'.children).Nodup) :
    SkipsAlike ids (c.claimed root) (c.claimed root') := by
  have hfirst : (ids.map Prod.fst).Nodup := h.first ▸ hids.sublist (List.filter_sublist.map _)
  have hsecond : (ids.map Prod.snd).Nodup := h.second ▸ hids'
  have hsites : List.Forall₂ (SiteThins c ids) (c.below Classifier.isNamespace root)
      (c.below Classifier.isNamespace root') :=
    h.below.inList (fun _ hn => c.told_isNamespace _ hn.untold) skipsAlike_nil
  intro a b hab
  rw [mem_claimed, mem_claimed]
  constructor
  · rintro ⟨s, hs, x, hx, rfl⟩
    obtain ⟨s', hs', hss'⟩ := exists_of_forall₂ hsites hs
    -- the node has a counterpart, so it is no token and stands among the siblings in both trees
    have hinside : x ∈ SyntaxNode.preorderAll root.children :=
      Search.preorderAll_following_subset hs
        (SyntaxNode.mem_preorderAll_of_mem (followers_subset s hx))
    have hkept : x ∈ (c.followers s).filter (!·.isToken) :=
      List.mem_filter.mpr ⟨hx, by rw [h.kept_of_mem hids hinside hab]; rfl⟩
    obtain ⟨y, hy, hxy⟩ := exists_of_forall₂ (thinsAll_followers hss').forall₂ hkept
    have heq := List.inj_on_of_nodup_map hfirst hxy.parts.1 hab rfl
    exact ⟨s', hs', y, hy, congrArg Prod.snd heq⟩
  · rintro ⟨s', hs', y, hy, rfl⟩
    obtain ⟨s, hs, hss'⟩ :=
      exists_of_forall₂ (List.Forall₂.flip (R := flip (SiteThins c ids)) hsites) hs'
    obtain ⟨x, hx, hxy⟩ :=
      exists_of_forall₂ (List.Forall₂.flip (R := flip (Thins c ids))
        (thinsAll_followers hss').forall₂) hy
    have heq := List.inj_on_of_nodup_map hsecond hxy.parts.1 hab rfl
    exact ⟨s, hs, x, List.mem_of_mem_filter hx, congrArg Prod.fst heq⟩

end ThinsBelow

section Unit

variable {t t' : SyntaxTree}

theorem forall₂_unclaimed {accept : Classifier → String → Bool} (htold : c.Told accept)
    (h : ThinsBelow c ids t.root t'.root) (hids : t.root.ids.Nodup) (hids' : t'.root.ids.Nodup) :
    List.Forall₂ (SiteThins c ids) (c.unclaimed accept t.root) (c.unclaimed accept t'.root) :=
  h.below.inList (fun _ hn => htold _ hn.untold)
    (h.skipsAlike (nodup_below hids) (nodup_below hids'))

theorem imports_thins (hsource : t.source = t'.source) (h : ThinsBelow c ids t.root t'.root) :
    c.imports t = c.imports t' := by
  have hsites : List.Forall₂ (SiteThins c ids) (c.below Classifier.isImport t.root)
      (c.below Classifier.isImport t'.root) :=
    h.below.inList (fun _ hn => c.told_isImport _ hn.untold) skipsAlike_nil
  rw [imports, imports]
  exact congrArg _ (map_eq_of_forall₂ hsites fun _ _ _ hs => by rw [textOf_thins hsource hs.1])

/-- **Both trees declare the same.** -/
theorem outline_unit (hsource : t.source = t'.source) (hfile : t.file = t'.file)
    (h : ThinsBelow c ids t.root t'.root) (hids : t.root.ids.Nodup) (hids' : t'.root.ids.Nodup) :
    (c.unit t).outline = (c.unit t').outline := by
  have hspan : t.root.span = t'.root.span := congrArg NodeInfo.span h.info
  rw [UnitDecl.outline, UnitDecl.outline, unit, unit]
  dsimp only
  rw [hfile, hspan, imports_thins hsource h,
    listOf_map_eq (forall₂_unclaimed c.told_isNamespace h hids hids') fun _ _ _ hs =>
      outline_namespaceDecl hsource _ _ hs,
    listOf_map_eq (forall₂_unclaimed c.told_isClass h hids hids') fun _ _ _ hs =>
      outline_classDecl hsource _ _ hs.1,
    listOf_map_eq (forall₂_unclaimed c.told_isInterface h hids hids') fun _ _ _ hs =>
      outline_interface hsource hs.1,
    listOf_map_eq (forall₂_unclaimed c.told_isFunction h hids hids') fun _ _ _ hs =>
      outline_method hsource hs.1]

/-- The outline shows how many namespaces there are in each. -/
theorem nested_of_outline (h : (c.unit t).outline = (c.unit t').outline) :
    (c.unclaimed Classifier.isNamespace t.root).map
      (fun s => (c.within Classifier.isNamespace s).length)
      = (c.unclaimed Classifier.isNamespace t'.root).map
        (fun s => (c.within Classifier.isNamespace s).length) := by
  have houtlines : ((c.unclaimed Classifier.isNamespace t.root).map (c.namespaceDecl t)).map
      NamespaceDecl.outline
      = ((c.unclaimed Classifier.isNamespace t'.root).map (c.namespaceDecl t')).map
        NamespaceDecl.outline := by
    simp only [UnitDecl.outline, Datum.record.injEq, List.cons.injEq, Prod.mk.injEq,
      Datum.listOf, unit,
      Datum.list.injEq] at h
    exact h.2.2.2.2.1.2
  rw [List.map_map, List.map_map, ← List.forall₂_eq_eq_eq, List.forall₂_map_left_iff,
    List.forall₂_map_right_iff] at houtlines
  refine map_eq_of_forall₂ houtlines fun s _ s' hsame => ?_
  have hlength := NamespaceDecl.length_of_outline hsame
  rwa [namespaceDecl_eq, namespaceDecl_eq, List.length_map, List.length_map] at hlength

end Unit

end Converter

end SyntaxForest
