import SyntaxForest.Proofs.Declaration.Entries

/-!
# What namespaces own

A namespace without a body of its own owns the siblings that follow it. The unit leaves those
siblings to the namespace, but a namespace does not: what follows such a namespace *inside another
namespace* is declared by both.

## The architecture

* **`Classifier.contestedIn`** — some such namespace, met inside another one, is followed by a
  declaration; by recursion over the tree and without any search.
* **`Gathering`**, **`Converter.gathered`** — counting the entries that the sites of one search give
  rise to, with one equation per constructor of the tree.
* **`gathered_space_le`** — without contest, a namespace gathers at most as many entries as there
  are nodes that owe them, whatever is counted.
* **`two_le_gathered_space`** — a contest gives some node two entries.
-/

namespace SyntaxForest

/-! ## Contested declarations -/

namespace Classifier

mutual

/-- Some namespace or type is declared among the nodes, or below them outside of other scopes. -/
def declaresIn (c : Classifier) : List SyntaxNode → Bool
  | [] => false
  | n :: rest => c.declaresAt n || c.declaresIn rest

def declaresAt (c : Classifier) : SyntaxNode → Bool
  | .node _ info children =>
    if c.isSpaceMember info.kind then true
    else if c.isScope info.kind then false
    else c.declaresIn children

end

mutual

/-- Some namespace that owns what follows it stands inside another namespace and is followed by a
declaration. `inside` says whether the nodes are inside a namespace already. -/
def contestedIn (c : Classifier) (inside : Bool) : List SyntaxNode → Bool
  | [] => false
  | n :: rest =>
    c.contestedAt inside rest n || c.contestedIn (inside || c.isFileScoped n.kind) rest

def contestedAt (c : Classifier) (inside : Bool) (following : List SyntaxNode) : SyntaxNode → Bool
  | .node _ info children =>
    if c.isNamespace info.kind then
      (inside && c.isFileScoped info.kind && c.declaresIn following) || c.contestedIn true children
    else if c.isScope info.kind then false
    else c.contestedIn inside children

end

mutual

theorem contestedIn_mono (c : Classifier) :
    ∀ nodes : List SyntaxNode, c.contestedIn false nodes = true → c.contestedIn true nodes = true
  | [], h => by simp [contestedIn] at h
  | n :: rest, h => by
    rw [contestedIn, Bool.or_eq_true] at h ⊢
    rw [Bool.true_or]
    rcases h with htree | hrest
    · exact Or.inl (contestedAt_mono c rest n htree)
    · cases hscoped : c.isFileScoped n.kind with
      | true => exact Or.inr (by simpa [hscoped] using hrest)
      | false => exact Or.inr (contestedIn_mono c rest (by simpa [hscoped] using hrest))

theorem contestedAt_mono (c : Classifier) (following : List SyntaxNode) :
    ∀ n : SyntaxNode, c.contestedAt false following n = true → c.contestedAt true following n = true
  | .node id info children, h => by
    rw [contestedAt] at h ⊢
    split
    · rename_i hnamespace
      rw [if_pos hnamespace] at h
      simp only [Bool.false_and, Bool.false_or] at h
      simp [h]
    · rename_i hnamespace
      rw [if_neg hnamespace] at h
      split
      · rename_i hscope
        simp [hscope] at h
      · rename_i hscope
        rw [if_neg hscope] at h
        exact contestedIn_mono c children h

end

end Classifier

/-! ## Counting the entries of one search -/

/-- What is gathered from a list of nodes: kinds that are accepted, the roles in which they are
declared, and the nodes left out. -/
structure Gathering where
  accept : Classifier → String → Bool
  roles : List DeclRole
  skip : List NodeId

namespace Gathering

/-- What a namespace gathers. -/
def space : Gathering := ⟨Classifier.isSpaceMember, [.classes, .interfaces, .namespaces], []⟩

/-- What a unit gathers, where some nodes are claimed. -/
def top (claimed : List NodeId) : Gathering :=
  ⟨Classifier.isUnitMember, Converter.unitRoles, claimed⟩

end Gathering

namespace Converter

variable (c : Converter) (t : SyntaxTree) (test : DeclEntry → Bool)

/-- How many entries that pass the test are gathered from a list of nodes. -/
def gathered (g : Gathering) (nodes : List SyntaxNode) : Nat :=
  (((c.search g.accept g.skip).inList nodes).flatMap (c.siteEntries t g.roles)).countP test

/-- How many entries that pass the test are gathered from one tree. -/
def gatheredAt (g : Gathering) (following : List SyntaxNode) (n : SyntaxNode) : Nat :=
  (((c.search g.accept g.skip).inTree following n).flatMap (c.siteEntries t g.roles)).countP test

@[simp] theorem gathered_nil (g : Gathering) : c.gathered t test g [] = 0 := by
  simp [gathered, Search.inList]

theorem gathered_cons (g : Gathering) (n : SyntaxNode) (rest : List SyntaxNode) :
    c.gathered t test g (n :: rest)
      = c.gatheredAt t test g rest n + c.gathered t test g rest := by
  rw [gathered, Search.inList, List.flatMap_append, List.countP_append]
  rfl

theorem gatheredAt_node (g : Gathering) (following : List SyntaxNode) (id : NodeId)
    (info : NodeInfo) (children : List SyntaxNode) :
    c.gatheredAt t test g following (.node id info children)
      = if g.skip.contains id then 0
        else if g.accept c.classifier info.kind then
          (c.siteEntries t g.roles ⟨.node id info children, following⟩).countP test
        else if c.classifier.isScope info.kind then 0
        else c.gathered t test g children := by
  have hskip : (c.search g.accept g.skip).skip = g.skip := rfl
  have haccept : (c.search g.accept g.skip).accept = g.accept c.classifier := rfl
  have hclosed : (c.search g.accept g.skip).closed = c.classifier.isScope := rfl
  rw [gatheredAt, Search.inTree, hskip, haccept, hclosed]
  split
  · simp
  · split
    · simp
    · split
      · simp
      · rfl

theorem gathered_eq_zero_of_skip {g : Gathering} {nodes : List SyntaxNode}
    (h : ∀ n ∈ nodes, n.id ∈ g.skip) : c.gathered t test g nodes = 0 := by
  induction nodes with
  | nil => simp
  | cons n rest ih =>
    have hn := h n (by simp)
    cases n with
    | node id info children =>
      have hid : g.skip.contains id = true := List.contains_iff_mem.mpr hn
      rw [gathered_cons, gatheredAt_node, if_pos hid, ih fun m hm => h m (by simp [hm])]

/-! ## The entries of one site

A site of one role gives the entries of that role. They are at most as many as the nodes of the
site's tree that owe an entry: a type stays inside its own tree. -/

/-- A site gives the entries of its one role. The other roles are not played by its kind, since
roles exclude each other. -/
theorem siteEntries_of_plays (hk : c.classifier.Exclusive) {roles : List DeclRole}
    (hnodup : roles.Nodup) {r : DeclRole} (hr : r ∈ roles) {s : Site}
    (hplays : c.classifier.plays r s.node.kind = true) :
    c.siteEntries t roles s = c.roleEntries t r s := by
  have hother : ∀ r', r' ≠ r → c.classifier.plays r' s.node.kind = false := fun r' hne => by
    cases h : c.classifier.plays r' s.node.kind with
    | false => rfl
    | true => exact absurd (hk.role_unique h hplays) hne
  -- by induction on the roles: the one that the kind plays comes once, and the others give nothing
  induction roles with
  | nil => simp at hr
  | cons first rest ih =>
    rw [List.nodup_cons] at hnodup
    rw [siteEntries, List.flatMap_cons]
    by_cases hfirst : first = r
    · subst hfirst
      have hrest : (rest.flatMap fun r' =>
          if c.classifier.plays r' s.node.kind then c.roleEntries t r' s else []) = [] := by
        rw [List.flatMap_eq_nil_iff]
        intro r' hr'
        rw [hother r' fun heq => hnodup.1 (heq ▸ hr')]
        rfl
      rw [hrest, hplays, if_pos rfl, List.append_nil]
    · have hmem : r ∈ rest := by
        rcases List.mem_cons.mp hr with heq | hmem
        · exact absurd heq.symm hfirst
        · exact hmem
      rw [hother first hfirst]
      exact ih hnodup.2 hmem

theorem siteEntries_eq_nil {roles : List DeclRole} {s : Site}
    (h : ∀ r ∈ roles, c.classifier.plays r s.node.kind = false) :
    c.siteEntries t roles s = [] := by
  rw [siteEntries, List.flatMap_eq_nil_iff]
  intro r hr
  rw [h r hr]
  rfl

theorem countP_siteEntries_le (hk : c.classifier.Exclusive) {roles : List DeclRole}
    (hnodup : roles.Nodup) {s : Site} {bound : Nat}
    (h : ∀ r ∈ roles, c.classifier.plays r s.node.kind = true →
      (c.roleEntries t r s).countP test ≤ bound) :
    (c.siteEntries t roles s).countP test ≤ bound := by
  by_cases hplays : ∃ r ∈ roles, c.classifier.plays r s.node.kind = true
  · obtain ⟨r, hr, hr'⟩ := hplays
    rw [c.siteEntries_of_plays t hk hnodup hr hr']
    exact h r hr hr'
  · rw [c.siteEntries_eq_nil t fun r hr => by
      cases h' : c.classifier.plays r s.node.kind with
      | false => rfl
      | true => exact absurd ⟨r, hr, h'⟩ hplays]
    simp

/-- How many nodes of a tree owe an entry that passes the test. -/
def owedAt (n : SyntaxNode) : Nat := n.preorder.countP (c.classifier.owes test)

/-- How many nodes of several trees owe an entry that passes the test. -/
def owed (nodes : List SyntaxNode) : Nat :=
  (SyntaxNode.preorderAll nodes).countP (c.classifier.owes test)

theorem owed_cons (n : SyntaxNode) (rest : List SyntaxNode) :
    c.owed test (n :: rest) = c.owedAt test n + c.owed test rest := by
  rw [owed, SyntaxNode.preorderAll, List.countP_append]
  rfl

theorem owedAt_node (id : NodeId) (info : NodeInfo) (children : List SyntaxNode) :
    c.owedAt test (.node id info children)
      = c.owed test children
        + if c.classifier.owes test (.node id info children) then 1 else 0 := by
  rw [owedAt, SyntaxNode.preorder, List.countP_cons]
  rfl

theorem countP_own_le {n : SyntaxNode} {r : DeclRole}
    (hplays : c.classifier.plays r n.kind = true) :
    [(n.id, r)].countP test + c.owed test n.children ≤ c.owedAt test n := by
  cases n with
  | node id info children =>
    rw [owedAt_node]
    cases htest : test (id, r) with
    | false => simp [SyntaxNode.id, SyntaxNode.children, htest]
    | true =>
      have howes := Classifier.owes_of_plays hplays htest
      simp [SyntaxNode.id, SyntaxNode.children, htest, howes, Nat.add_comm]

/-- The entry of a node and the entries of sites below it, when every site gives at most what its
own tree owes. -/
theorem countP_body_le {n : SyntaxNode} {r : DeclRole} (hplays : c.classifier.plays r n.kind = true)
    {f : Site → List DeclEntry}
    (hf : ∀ s ∈ c.below Classifier.isMember n, (f s).countP test ≤ c.owedAt test s.node) :
    ((n.id, r) :: (c.below Classifier.isMember n).flatMap f).countP test ≤ c.owedAt test n := by
  have hsites : ∀ sites : List Site, (∀ s ∈ sites, (f s).countP test ≤ c.owedAt test s.node) →
      (sites.flatMap f).countP test
        ≤ (sites.flatMap fun s => s.node.preorder).countP (c.classifier.owes test) := by
    intro sites h
    induction sites with
    | nil => simp
    | cons s rest ih =>
      rw [List.flatMap_cons, List.flatMap_cons, List.countP_append, List.countP_append]
      exact Nat.add_le_add (h s (by simp)) (ih fun s' hs' => h s' (by simp [hs']))
  have hbelow : ((c.below Classifier.isMember n).flatMap f).countP test ≤ c.owed test n.children :=
    Nat.le_trans (hsites _ hf) (Search.preorder_sublist _ _).countP_le
  have hown := c.countP_own_le test hplays
  rw [← List.singleton_append, List.countP_append]
  omega

/-- **An interface declares no more than its tree owes.** -/
theorem countP_interface_le (hk : c.classifier.Exclusive) {n : SyntaxNode}
    (hplays : c.classifier.plays .interfaces n.kind = true) :
    (c.interface t n).entries.countP test ≤ c.owedAt test n := by
  rw [(c.entries_interface t n).countP_eq]
  refine c.countP_body_le test hplays fun s _ =>
    c.countP_siteEntries_le t test hk (by decide) fun r hr hr' => ?_
  have hown := c.countP_own_le test hr'
  simp only [List.mem_cons, List.not_mem_nil, or_false] at hr
  rcases hr with rfl | rfl
  · exact Nat.le_trans (Nat.le_add_right _ _) hown
  · exact Nat.le_trans (Nat.le_add_right _ _) hown

/-- **A class declares no more than its tree owes.** -/
theorem countP_classDecl_le (hk : c.classifier.Exclusive) (n : SyntaxNode)
    (hplays : c.classifier.plays .classes n.kind = true) :
    (c.classDecl t n).entries.countP test ≤ c.owedAt test n := by
  rw [(c.entries_classDecl t n).countP_eq]
  refine c.countP_body_le test hplays fun s hs =>
    c.countP_siteEntries_le t test hk (by decide) fun r hr hr' => ?_
  have hown := Nat.le_trans (Nat.le_add_right _ _) (c.countP_own_le test hr')
  -- the nested class is smaller, all other members have entries of their own only
  have hsize : s.node.size < n.size := by
    have := size_lt_of_mem_below hs
    rw [Site.size] at this
    omega
  simp only [List.mem_cons, List.not_mem_nil, or_false] at hr
  rcases hr with rfl | rfl | rfl | rfl | rfl
  · exact hown
  · exact hown
  · exact hown
  · exact countP_classDecl_le hk s.node hr'
  · exact c.countP_interface_le t test hk hr'
termination_by n.size

/-! ## The cases of a tree

A tree that is not left out is gathered in its role, or is the closed scope of something else, or is
open to the search. -/

variable {c t test}

theorem gatheredAt_role (hk : c.classifier.Exclusive) {g : Gathering} (hnodup : g.roles.Nodup)
    {n : SyntaxNode} (hskip : n.id ∉ g.skip) (haccept : g.accept c.classifier n.kind = true)
    {r : DeclRole} (hr : r ∈ g.roles) (hplays : c.classifier.plays r n.kind = true)
    (following : List SyntaxNode) :
    c.gatheredAt t test g following n = (c.roleEntries t r ⟨n, following⟩).countP test := by
  cases n with
  | node id info children =>
    have hid : ¬(g.skip.contains id = true) := fun h => hskip (List.contains_iff_mem.mp h)
    have haccept' : g.accept c.classifier info.kind = true := haccept
    rw [gatheredAt_node, if_neg hid, if_pos haccept', c.siteEntries_of_plays t hk hnodup hr hplays]

theorem gatheredAt_closed {g : Gathering} {n : SyntaxNode}
    (haccept : g.accept c.classifier n.kind = false) (hscope : c.classifier.isScope n.kind = true)
    (following : List SyntaxNode) : c.gatheredAt t test g following n = 0 := by
  cases n with
  | node id info children =>
    simp only [SyntaxNode.kind, SyntaxNode.info] at haccept hscope
    rw [gatheredAt_node, haccept, hscope]
    simp

theorem gatheredAt_open {g : Gathering} {n : SyntaxNode} (hskip : n.id ∉ g.skip)
    (haccept : g.accept c.classifier n.kind = false) (hscope : c.classifier.isScope n.kind = false)
    (following : List SyntaxNode) :
    c.gatheredAt t test g following n = c.gathered t test g n.children := by
  cases n with
  | node id info children =>
    have hid : ¬(g.skip.contains id = true) := fun h => hskip (List.contains_iff_mem.mp h)
    simp only [SyntaxNode.kind, SyntaxNode.info] at haccept hscope
    rw [gatheredAt_node, if_neg hid, haccept, hscope]
    simp [SyntaxNode.children]

theorem gatheredAt_space_role (hk : c.classifier.Exclusive) {n : SyntaxNode} {r : DeclRole}
    (hr : r ∈ Gathering.space.roles) (hplays : c.classifier.plays r n.kind = true)
    (following : List SyntaxNode) :
    c.gatheredAt t test .space following n = (c.roleEntries t r ⟨n, following⟩).countP test :=
  gatheredAt_role hk (by decide) (by simp [Gathering.space])
    (isSpaceMember_of_plays c.classifier hr hplays) hr hplays following

theorem exists_role_of_isSpaceMember {kind : String} (h : c.classifier.isSpaceMember kind = true) :
    ∃ r ∈ Gathering.space.roles, c.classifier.plays r kind = true := by
  rw [Classifier.isSpaceMember, Bool.or_eq_true, Bool.or_eq_true] at h
  rcases h with (hnamespace | hclass) | hinterface
  · exact ⟨.namespaces, by decide, hnamespace⟩
  · exact ⟨.classes, by decide, hclass⟩
  · exact ⟨.interfaces, by decide, hinterface⟩

theorem one_le_countP_roleEntries (r : DeclRole) (s : Site) :
    1 ≤ (c.roleEntries t r s).countP (·.1 == s.node.id) := by
  apply List.one_le_countP_iff.mpr
  cases r with
  | namespaces =>
    exact ⟨_, (c.entries_namespaceDecl t s).mem_iff.mpr (List.mem_cons_self ..), by simp⟩
  | classes =>
    exact ⟨_, (c.entries_classDecl t s.node).mem_iff.mpr (List.mem_cons_self ..), by simp⟩
  | interfaces =>
    exact ⟨_, (c.entries_interface t s.node).mem_iff.mpr (List.mem_cons_self ..), by simp⟩
  | methods => exact ⟨(s.node.id, .methods), by simp [roleEntries], by simp⟩
  | properties => exact ⟨(s.node.id, .properties), by simp [roleEntries], by simp⟩
  | fields => exact ⟨(s.node.id, .fields), by simp [roleEntries], by simp⟩

/-! ## Namespaces -/

theorem countP_namespaceDecl (s : Site) :
    (c.namespaceDecl t s).entries.countP test
      = [(s.node.id, DeclRole.namespaces)].countP test + c.gathered t test .space s.node.children
        + c.gathered t test .space (c.followers s) := by
  rw [(c.entries_namespaceDecl t s).countP_eq, ← List.singleton_append, List.countP_append, within,
    List.flatMap_append, List.countP_append, Nat.add_assoc]
  rfl

theorem followers_of_not_isFileScoped {n : SyntaxNode} {following : List SyntaxNode}
    (h : c.classifier.isFileScoped n.kind = false) : c.followers ⟨n, following⟩ = [] :=
  if_neg (by simp [h])

theorem isSpaceMember_eq_false_of_open {kind : String} (h : c.classifier.isScope kind = false) :
    c.classifier.isSpaceMember kind = false := by
  cases hmember : c.classifier.isSpaceMember kind with
  | false => rfl
  | true => rw [isScope_of_isSpaceMember _ hmember] at h; exact absurd h (by decide)

mutual

theorem gathered_space_eq_zero :
    ∀ nodes : List SyntaxNode, c.classifier.declaresIn nodes = false →
      c.gathered t test .space nodes = 0
  | [], _ => by simp
  | n :: rest, h => by
    rw [Classifier.declaresIn, Bool.or_eq_false_iff] at h
    rw [gathered_cons, gatheredAt_space_eq_zero rest n h.1, gathered_space_eq_zero rest h.2]

theorem gatheredAt_space_eq_zero (following : List SyntaxNode) :
    ∀ n : SyntaxNode, c.classifier.declaresAt n = false →
      c.gatheredAt t test .space following n = 0
  | .node id info children, h => by
    rw [Classifier.declaresAt] at h
    cases hmember : c.classifier.isSpaceMember info.kind with
    | true => simp [hmember] at h
    | false =>
      cases hscope : c.classifier.isScope info.kind with
      | true => exact gatheredAt_closed hmember hscope following
      | false =>
        rw [gatheredAt_open (by simp [Gathering.space]) hmember hscope]
        exact gathered_space_eq_zero children (by simpa [hmember, hscope] using h)

end

mutual

theorem one_le_gathered_space (hk : c.classifier.Exclusive) :
    ∀ nodes : List SyntaxNode, c.classifier.declaresIn nodes = true →
      ∃ x : NodeId, 1 ≤ c.gathered t (·.1 == x) .space nodes
  | [], h => by simp [Classifier.declaresIn] at h
  | n :: rest, h => by
    rw [Classifier.declaresIn, Bool.or_eq_true] at h
    rcases h with htree | hrest
    · obtain ⟨x, hx⟩ := one_le_gatheredAt_space hk rest n htree
      exact ⟨x, by rw [gathered_cons]; omega⟩
    · obtain ⟨x, hx⟩ := one_le_gathered_space hk rest hrest
      exact ⟨x, by rw [gathered_cons]; omega⟩

theorem one_le_gatheredAt_space (hk : c.classifier.Exclusive) (following : List SyntaxNode) :
    ∀ n : SyntaxNode, c.classifier.declaresAt n = true →
      ∃ x : NodeId, 1 ≤ c.gatheredAt t (·.1 == x) .space following n
  | .node id info children, h => by
    rw [Classifier.declaresAt] at h
    cases hmember : c.classifier.isSpaceMember info.kind with
    | true =>
      obtain ⟨r, hr, hplays⟩ := exists_role_of_isSpaceMember hmember
      refine ⟨id, ?_⟩
      rw [gatheredAt_space_role hk hr (n := .node id info children) hplays]
      exact one_le_countP_roleEntries r ⟨.node id info children, following⟩
    | false =>
      cases hscope : c.classifier.isScope info.kind with
      | true => simp [hmember, hscope] at h
      | false =>
        obtain ⟨x, hx⟩ := one_le_gathered_space hk children (by simpa [hmember, hscope] using h)
        refine ⟨x, ?_⟩
        rw [gatheredAt_open (by simp [Gathering.space]) hmember hscope]
        exact hx

end

theorem owed_children_le (n : SyntaxNode) : c.owed test n.children ≤ c.owedAt test n := by
  cases n with
  | node id info children =>
    rw [owedAt_node]
    exact Nat.le_add_right _ _

theorem countP_namespaceDecl_le {s : Site}
    (hplays : c.classifier.plays .namespaces s.node.kind = true) {bound : Nat}
    (hchildren : c.gathered t test .space s.node.children ≤ c.owed test s.node.children)
    (hfollowers : c.gathered t test .space (c.followers s) ≤ bound) :
    (c.roleEntries t .namespaces s).countP test ≤ c.owedAt test s.node + bound := by
  have hown := c.countP_own_le test hplays
  rw [roleEntries, countP_namespaceDecl]
  omega

theorem isNamespace_of_contestedAt_false {inside : Bool} {following : List SyntaxNode} {id : NodeId}
    {info : NodeInfo} {children : List SyntaxNode}
    (h : c.classifier.contestedAt inside following (.node id info children) = false)
    (hnamespace : c.classifier.isNamespace info.kind = true) :
    (inside && c.classifier.isFileScoped info.kind && c.classifier.declaresIn following) = false
      ∧ c.classifier.contestedIn true children = false := by
  rw [Classifier.contestedAt, if_pos hnamespace, Bool.or_eq_false_iff] at h
  exact h

theorem contestedIn_children_of_open {inside : Bool} {following : List SyntaxNode} {id : NodeId}
    {info : NodeInfo} {children : List SyntaxNode} {b : Bool}
    (h : c.classifier.contestedAt inside following (.node id info children) = b)
    (hscope : c.classifier.isScope info.kind = false) :
    c.classifier.contestedIn inside children = b := by
  have hnamespace : c.classifier.isNamespace info.kind = false := by
    simp only [Classifier.isScope, Bool.or_eq_false_iff] at hscope
    exact hscope.1.1.1
  simpa [Classifier.contestedAt, hnamespace, hscope] using h

mutual

/-- **Inside a namespace, without contest, nothing is declared more often than it is owed.** -/
theorem gathered_space_le (hk : c.classifier.Exclusive) :
    ∀ nodes : List SyntaxNode, c.classifier.contestedIn true nodes = false →
      c.gathered t test .space nodes ≤ c.owed test nodes
  | [], _ => by simp
  | n :: rest, h => by
    rw [Classifier.contestedIn, Bool.or_eq_false_iff, Bool.true_or] at h
    have htree := gatheredAt_space_le hk rest n h.1
    have hrest := gathered_space_le hk rest h.2
    rw [gathered_cons, owed_cons]
    omega

theorem gatheredAt_space_le (hk : c.classifier.Exclusive) (following : List SyntaxNode) :
    ∀ n : SyntaxNode, c.classifier.contestedAt true following n = false →
      c.gatheredAt t test .space following n ≤ c.owedAt test n
  | .node id info children, h => by
    cases hmember : c.classifier.isSpaceMember info.kind with
    | true =>
      obtain ⟨r, hr, hplays⟩ := exists_role_of_isSpaceMember hmember
      rw [gatheredAt_space_role hk hr (n := .node id info children) hplays]
      simp only [Gathering.space, List.mem_cons, List.not_mem_nil, or_false] at hr
      rcases hr with rfl | rfl | rfl
      · exact c.countP_classDecl_le t test hk _ hplays
      · exact c.countP_interface_le t test hk hplays
      · obtain ⟨hfollow, hchildren⟩ := isNamespace_of_contestedAt_false h hplays
        -- a namespace met inside another one owns nothing that declares
        have hnone : c.gathered t test .space (c.followers ⟨.node id info children, following⟩)
            ≤ 0 := by
          cases hscoped : c.classifier.isFileScoped info.kind with
          | true =>
            rw [followers_of_isFileScoped hscoped]
            exact Nat.le_of_eq (gathered_space_eq_zero following (by simpa [hscoped] using hfollow))
          | false =>
            rw [followers_of_not_isFileScoped hscoped]
            simp
        exact countP_namespaceDecl_le hplays (gathered_space_le hk children hchildren) hnone
    | false =>
      cases hscope : c.classifier.isScope info.kind with
      | true =>
        rw [gatheredAt_closed hmember hscope]
        exact Nat.zero_le _
      | false =>
        have hchildren : c.gathered t test .space children ≤ c.owed test children :=
          gathered_space_le hk children (contestedIn_children_of_open h hscope)
        rw [gatheredAt_open (by simp [Gathering.space]) hmember hscope]
        exact Nat.le_trans hchildren (owed_children_le (.node id info children))

end

mutual

/-- **Inside a namespace, a contest gives some node two entries.** -/
theorem two_le_gathered_space (hk : c.classifier.Exclusive) :
    ∀ nodes : List SyntaxNode, c.classifier.contestedIn true nodes = true →
      ∃ x : NodeId, 2 ≤ c.gathered t (·.1 == x) .space nodes
  | [], h => by simp [Classifier.contestedIn] at h
  | n :: rest, h => by
    rw [Classifier.contestedIn, Bool.or_eq_true, Bool.true_or] at h
    rcases h with htree | hrest
    · obtain ⟨x, hx⟩ := two_le_gatheredAt_space hk rest n htree
      exact ⟨x, by rw [gathered_cons]; exact hx⟩
    · obtain ⟨x, hx⟩ := two_le_gathered_space hk rest hrest
      exact ⟨x, by rw [gathered_cons]; omega⟩

theorem two_le_gatheredAt_space (hk : c.classifier.Exclusive) (following : List SyntaxNode) :
    ∀ n : SyntaxNode, c.classifier.contestedAt true following n = true →
      ∃ x : NodeId, 2 ≤ c.gatheredAt t (·.1 == x) .space following n
        + c.gathered t (·.1 == x) .space following
  | .node id info children, h => by
    -- a namespace is contested itself or has a contest in it; below other open nodes the search
    -- goes on
    cases hnamespace : c.classifier.isNamespace info.kind with
    | true =>
      rw [Classifier.contestedAt, if_pos hnamespace, Bool.or_eq_true] at h
      rcases h with hfollow | hchildren
      · -- what follows is declared here as well as by the namespace around
        simp only [Bool.true_and, Bool.and_eq_true] at hfollow
        obtain ⟨x, hx⟩ := one_le_gathered_space (t := t) hk following hfollow.2
        refine ⟨x, ?_⟩
        rw [gatheredAt_space_role hk (r := .namespaces) (by decide) (n := .node id info children)
          hnamespace, roleEntries, countP_namespaceDecl, followers_of_isFileScoped hfollow.1]
        omega
      · obtain ⟨x, hx⟩ := two_le_gathered_space hk children hchildren
        refine ⟨x, ?_⟩
        rw [gatheredAt_space_role hk (r := .namespaces) (by decide) (n := .node id info children)
          hnamespace, roleEntries, countP_namespaceDecl]
        simp only [SyntaxNode.children]
        omega
    | false =>
      cases hscope : c.classifier.isScope info.kind with
      | true => simp [Classifier.contestedAt, hnamespace, hscope] at h
      | false =>
        obtain ⟨x, hx⟩ :=
          two_le_gathered_space hk children (contestedIn_children_of_open h hscope)
        have hmember := isSpaceMember_eq_false_of_open hscope
        refine ⟨x, ?_⟩
        rw [gatheredAt_open (by simp [Gathering.space]) hmember hscope]
        simp only [SyntaxNode.children]
        omega

end

end Converter

end SyntaxForest
