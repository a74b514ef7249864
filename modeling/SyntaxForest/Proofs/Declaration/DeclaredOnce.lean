import Mathlib.Data.List.Nodup
import SyntaxForest.Proofs.Declaration.Ownership

/-!
# Each node is declared once, unless namespaces contest it

The unit searches its top level and leaves out the nodes that some namespace claims. What it gathers
there is counted by the same recursion as inside a namespace (`Gathering.top`), and the claimed
nodes are exactly those that a namespace before them gathers.

* **`gathered_top_le`** — without contest, nothing is declared more often than it is owed.
* **`two_le_gathered_top`** — a contest gives some node two entries, as long as ids tell nodes
  apart.
* **`declared_once_iff`** — the law and its exact condition.
-/

namespace SyntaxForest

namespace Classifier

theorem contestedIn_eq_false_of_inside {c : Classifier} {inside : Bool} {nodes : List SyntaxNode}
    (h : c.contestedIn inside nodes = false) : c.contestedIn false nodes = false := by
  cases inside with
  | false => exact h
  | true =>
    cases hout : c.contestedIn false nodes with
    | false => rfl
    | true => rw [contestedIn_mono c nodes hout] at h; exact absurd h (by decide)

end Classifier

namespace Converter

variable {c : Converter} {t : SyntaxTree} {test : DeclEntry → Bool}

/-! ## Claimed nodes -/

/-- The ids that the namespaces among the nodes claim. -/
def claimedIn (c : Converter) (nodes : List SyntaxNode) : List NodeId :=
  ((c.search Classifier.isNamespace []).inList nodes).flatMap fun s => (c.followers s).map (·.id)

/-- The ids that the namespaces in one tree claim. -/
def claimedAt (c : Converter) (following : List SyntaxNode) (n : SyntaxNode) : List NodeId :=
  ((c.search Classifier.isNamespace []).inTree following n).flatMap fun s =>
    (c.followers s).map (·.id)

theorem claimedIn_cons (n : SyntaxNode) (rest : List SyntaxNode) :
    c.claimedIn (n :: rest) = c.claimedAt rest n ++ c.claimedIn rest := by
  rw [claimedIn, Search.inList, List.flatMap_append]
  rfl

theorem claimedAt_node (following : List SyntaxNode) (id : NodeId) (info : NodeInfo)
    (children : List SyntaxNode) :
    c.claimedAt following (.node id info children)
      = if c.classifier.isNamespace info.kind then
          (c.followers ⟨.node id info children, following⟩).map (·.id)
        else if c.classifier.isScope info.kind then []
        else c.claimedIn children := by
  have haccept : (c.search Classifier.isNamespace []).accept = c.classifier.isNamespace := rfl
  have hclosed : (c.search Classifier.isNamespace []).closed = c.classifier.isScope := rfl
  have hskip : (c.search Classifier.isNamespace []).skip = [] := rfl
  rw [claimedAt, Search.inTree, hskip, haccept, hclosed, if_neg (by simp)]
  split
  · simp
  · split
    · simp
    · rfl

/-- A namespace that owns what follows it claims just that; every other tree claims nodes of its
own. -/
theorem claimedAt_cases (hk : c.classifier.Exclusive) (following : List SyntaxNode)
    (n : SyntaxNode) :
    (c.classifier.isFileScoped n.kind = true ∧ c.claimedAt following n = following.map (·.id))
      ∨ (c.classifier.isFileScoped n.kind = false
          ∧ (c.claimedAt following n = [] ∨ c.claimedAt following n = c.claimedIn n.children)) := by
  cases n with
  | node id info children =>
    rw [claimedAt_node]
    cases hscoped : c.classifier.isFileScoped info.kind with
    | true =>
      refine Or.inl ⟨hscoped, ?_⟩
      rw [if_pos (hk.isNamespace_of_isFileScoped hscoped), followers_of_isFileScoped hscoped]
    | false =>
      refine Or.inr ⟨hscoped, ?_⟩
      rw [followers_of_not_isFileScoped hscoped]
      split
      · exact Or.inl rfl
      · split
        · exact Or.inl rfl
        · exact Or.inr rfl

theorem mem_inTree_of_namespace {skip : List NodeId} {n : SyntaxNode} (hfree : n.id ∉ skip)
    (hnamespace : c.classifier.isNamespace n.kind = true) {following : List SyntaxNode} :
    ⟨n, following⟩ ∈ (c.search Classifier.isNamespace skip).inTree following n := by
  cases n with
  | node id info children =>
    have hid : id ∉ (c.search Classifier.isNamespace skip).skip := hfree
    have haccept : (c.search Classifier.isNamespace skip).accept info.kind = true := hnamespace
    simp [Search.inTree, hid, haccept]

theorem inTree_of_open {skip : List NodeId} {n : SyntaxNode} (hfree : n.id ∉ skip)
    (hscope : c.classifier.isScope n.kind = false) {following : List SyntaxNode} :
    (c.search Classifier.isNamespace skip).inTree following n
      = (c.search Classifier.isNamespace skip).inList n.children := by
  cases n with
  | node id info children =>
    have hid : id ∉ (c.search Classifier.isNamespace skip).skip := hfree
    have haccept : (c.search Classifier.isNamespace skip).accept info.kind = false := by
      have hmember := isSpaceMember_eq_false_of_open hscope
      simp only [Classifier.isSpaceMember, Bool.or_eq_false_iff] at hmember
      exact hmember.1.1
    have hclosed : (c.search Classifier.isNamespace skip).closed info.kind = false := hscope
    simp [Search.inTree, hid, haccept, hclosed, SyntaxNode.children]

mutual

theorem claimedIn_subset (hk : c.classifier.Exclusive) :
    ∀ nodes : List SyntaxNode, ∀ id ∈ c.claimedIn nodes, id ∈ SyntaxNode.idsAll nodes
  | [], id, h => by simp [claimedIn, Search.inList] at h
  | n :: rest, id, h => by
    rw [claimedIn_cons, List.mem_append] at h
    rw [SyntaxNode.idsAll_cons, List.mem_append]
    rcases h with htree | hrest
    -- all that follows, nothing, or what is claimed below
    · rcases claimedAt_cases hk rest n with ⟨-, hall⟩ | ⟨-, hnone | hbelow⟩
      · rw [hall, List.mem_map] at htree
        obtain ⟨m, hm, rfl⟩ := htree
        exact Or.inr (SyntaxNode.id_mem_idsAll hm)
      · simp [hnone] at htree
      · exact Or.inl (claimedBelow_subset hk n id (hbelow ▸ htree))
    · exact Or.inr (claimedIn_subset hk rest id hrest)

theorem claimedBelow_subset (hk : c.classifier.Exclusive) :
    ∀ n : SyntaxNode, ∀ id ∈ c.claimedIn n.children, id ∈ n.ids
  | .node own info children, id, h => by
    rw [SyntaxNode.ids_node]
    exact List.mem_cons_of_mem _ (claimedIn_subset hk children id h)

end

/-! ## The top level without contest -/

theorem exists_role_of_isUnitMember {kind : String} (h : c.classifier.isUnitMember kind = true) :
    ∃ r ∈ unitRoles, c.classifier.plays r kind = true := by
  rw [Classifier.isUnitMember, Bool.or_eq_true] at h
  rcases h with hspace | hfunction
  · obtain ⟨r, hr, hplays⟩ := exists_role_of_isSpaceMember hspace
    simp only [Gathering.space, List.mem_cons, List.not_mem_nil, or_false] at hr
    exact ⟨r, by rcases hr with rfl | rfl | rfl <;> decide, hplays⟩
  · exact ⟨.methods, by decide, by simp [Classifier.plays, Classifier.isCallable, hfunction]⟩

theorem isUnitMember_of_isNamespace {kind : String} (h : c.classifier.isNamespace kind = true) :
    c.classifier.isUnitMember kind = true := by
  simp [Classifier.isUnitMember, Classifier.isSpaceMember, h]

theorem isUnitMember_eq_false_of_open {kind : String} (h : c.classifier.isScope kind = false) :
    c.classifier.isUnitMember kind = false := by
  cases hmember : c.classifier.isUnitMember kind with
  | false => rfl
  | true => rw [isScope_of_isUnitMember _ hmember] at h; exact absurd h (by decide)

theorem gatheredAt_top_namespace (hk : c.classifier.Exclusive) {claimed : List NodeId}
    {n : SyntaxNode} (hfree : n.id ∉ claimed) (hnamespace : c.classifier.isNamespace n.kind = true)
    (following : List SyntaxNode) :
    c.gatheredAt t test (.top claimed) following n
      = [(n.id, DeclRole.namespaces)].countP test + c.gathered t test .space n.children
        + c.gathered t test .space (c.followers ⟨n, following⟩) := by
  rw [gatheredAt_role hk (g := .top claimed) (show unitRoles.Nodup by decide) hfree
    (isUnitMember_of_isNamespace hnamespace) (r := .namespaces)
    (show DeclRole.namespaces ∈ unitRoles by decide) hnamespace, roleEntries, countP_namespaceDecl]

theorem gatheredAt_of_skip {g : Gathering} {n : SyntaxNode} (h : n.id ∈ g.skip)
    (following : List SyntaxNode) : c.gatheredAt t test g following n = 0 := by
  cases n with
  | node id info children =>
    have hid : g.skip.contains id = true := List.contains_iff_mem.mpr h
    rw [gatheredAt_node, if_pos hid]

/-- The nodes that follow a namespace found among the nodes, and belong to it, are all claimed. -/
def Covers (c : Converter) (claimed : List NodeId) (sites : List Site) : Prop :=
  ∀ s ∈ sites, ∀ m ∈ c.followers s, m.id ∈ claimed

mutual

/-- **Without contest, nothing is declared more often than it is owed.** The induction is on the
trees, in document order. Where the unit meets a namespace that owns what follows, the rest is
counted for that namespace, and the unit gathers nothing from it. -/
theorem gathered_top_le (hk : c.classifier.Exclusive) {claimed : List NodeId} :
    ∀ nodes : List SyntaxNode, c.classifier.contestedIn false nodes = false →
      c.Covers claimed ((c.search Classifier.isNamespace claimed).inList nodes) →
      c.gathered t test (.top claimed) nodes ≤ c.owed test nodes
  | [], _, _ => by simp
  | n :: rest, h, hcovers => by
    rw [Classifier.contestedIn, Bool.or_eq_false_iff, Bool.false_or] at h
    rw [Search.inList] at hcovers
    have hrest := gathered_top_le hk rest (Classifier.contestedIn_eq_false_of_inside h.2)
      fun s hs => hcovers s (List.mem_append_right _ hs)
    rw [gathered_cons, owed_cons]
    -- the first tree may be left out, for a namespace before it owns it
    by_cases hfree : n.id ∈ claimed
    · rw [gatheredAt_of_skip hfree]
      omega
    · have htree := gatheredAt_top_le hk rest n h.1 hfree
        fun s hs => hcovers s (List.mem_append_left _ hs)
      cases hscoped : c.classifier.isFileScoped n.kind with
      | false =>
        rw [followers_of_not_isFileScoped hscoped, gathered_nil] at htree
        omega
      | true =>
        -- everything that follows belongs to the namespace, and the unit leaves it out
        have howns : ∀ m ∈ rest, m.id ∈ claimed := fun m hm =>
          hcovers ⟨n, rest⟩
            (List.mem_append_left _ (mem_inTree_of_namespace hfree
              (hk.isNamespace_of_isFileScoped hscoped)))
            m (by rwa [followers_of_isFileScoped hscoped])
        have hnone := c.gathered_eq_zero_of_skip t test (g := .top claimed) howns
        have hspace : c.gathered t test .space rest ≤ c.owed test rest :=
          gathered_space_le hk rest (hscoped ▸ h.2)
        rw [followers_of_isFileScoped hscoped] at htree
        omega

/-- One tree, together with what the siblings after it give to a namespace, if its root is one that
owns them. These are added on the right, since they are not owed by this tree. -/
theorem gatheredAt_top_le (hk : c.classifier.Exclusive) {claimed : List NodeId}
    (following : List SyntaxNode) :
    ∀ n : SyntaxNode, c.classifier.contestedAt false following n = false → n.id ∉ claimed →
      c.Covers claimed ((c.search Classifier.isNamespace claimed).inTree following n) →
      c.gatheredAt t test (.top claimed) following n
        ≤ c.owedAt test n + c.gathered t test .space (c.followers ⟨n, following⟩)
  | .node id info children, h, hfree, hcovers => by
    cases hmember : c.classifier.isUnitMember info.kind with
    | true =>
      obtain ⟨r, hr, hplays⟩ := exists_role_of_isUnitMember hmember
      rw [gatheredAt_role hk (g := .top claimed) (show unitRoles.Nodup by decide) hfree hmember hr
        hplays]
      have hown := c.countP_own_le test (n := .node id info children) hplays
      simp only [unitRoles, List.mem_cons, List.not_mem_nil, or_false] at hr
      -- a namespace, a class, an interface or a function
      rcases hr with rfl | rfl | rfl | rfl
      · obtain ⟨-, hchildren⟩ := isNamespace_of_contestedAt_false h hplays
        exact countP_namespaceDecl_le hplays (gathered_space_le hk children hchildren)
          (Nat.le_refl _)
      · exact Nat.le_add_right_of_le (c.countP_classDecl_le t test hk _ hplays)
      · exact Nat.le_add_right_of_le (c.countP_interface_le t test hk hplays)
      · exact Nat.le_add_right_of_le (Nat.le_trans (Nat.le_add_right _ _) hown)
    | false =>
      cases hscope : c.classifier.isScope info.kind with
      | true =>
        rw [gatheredAt_closed hmember hscope]
        exact Nat.zero_le _
      | false =>
        rw [gatheredAt_open hfree hmember hscope]
        have hchildren := gathered_top_le hk children (contestedIn_children_of_open h hscope)
          fun s hs => hcovers s (by rwa [inTree_of_open hfree hscope])
        exact Nat.le_add_right_of_le
          (Nat.le_trans hchildren (owed_children_le (.node id info children)))

end

/-! ## A contest at the top level

The recursion goes down through open nodes until the first namespace. Nothing that it meets on the
way is left out: a claimed node follows a namespace, and ids tell nodes apart. -/

/-- Among these nodes, only those are left out that a namespace among them claims. -/
def ClaimsOwn (c : Converter) (claimed : List NodeId) (nodes : List SyntaxNode) : Prop :=
  ∀ id ∈ SyntaxNode.idsAll nodes, id ∈ claimed → id ∈ c.claimedIn nodes

theorem ClaimsOwn.head (hk : c.classifier.Exclusive) {claimed : List NodeId} {n : SyntaxNode}
    {rest : List SyntaxNode} (hids : (SyntaxNode.idsAll (n :: rest)).Nodup)
    (h : c.ClaimsOwn claimed (n :: rest)) : n.id ∉ claimed := by
  intro hclaimed
  have hmem := h n.id (SyntaxNode.id_mem_idsAll (List.mem_cons_self ..)) hclaimed
  cases n with
  | node id info children =>
    rw [SyntaxNode.idsAll_cons, SyntaxNode.ids_node, List.cons_append, List.nodup_cons,
      List.mem_append, not_or] at hids
    rw [claimedIn_cons, List.mem_append] at hmem
    rcases hmem with htree | hrest
    · rcases claimedAt_cases hk rest (.node id info children) with ⟨-, hall⟩ | ⟨-, hnone | hbelow⟩
      · rw [hall, List.mem_map] at htree
        obtain ⟨m, hm, heq⟩ := htree
        have hfirst : m.id = id := heq
        exact hids.1.2 (hfirst ▸ SyntaxNode.id_mem_idsAll hm)
      · simp [hnone] at htree
      · exact hids.1.1 (claimedIn_subset hk children _ (hbelow ▸ htree))
    · exact hids.1.2 (claimedIn_subset hk rest _ hrest)

/-- After a node that does not own what follows it. -/
theorem ClaimsOwn.tail (hk : c.classifier.Exclusive) {claimed : List NodeId} {n : SyntaxNode}
    {rest : List SyntaxNode} (hids : (SyntaxNode.idsAll (n :: rest)).Nodup)
    (hscoped : c.classifier.isFileScoped n.kind = false) (h : c.ClaimsOwn claimed (n :: rest)) :
    c.ClaimsOwn claimed rest := by
  intro id hid hclaimed
  rw [SyntaxNode.idsAll_cons] at hids
  have hmem := h id (by rw [SyntaxNode.idsAll_cons]; exact List.mem_append_right _ hid) hclaimed
  rw [claimedIn_cons, List.mem_append] at hmem
  rcases hmem with htree | hrest
  · rcases claimedAt_cases hk rest n with ⟨htrue, -⟩ | ⟨-, hnone | hbelow⟩
    · rw [hscoped] at htrue
      exact absurd htrue (by decide)
    · simp [hnone] at htree
    · exact absurd hid
        (List.disjoint_of_nodup_append hids (claimedBelow_subset hk n id (hbelow ▸ htree)))
  · exact hrest

/-- Below an open node. -/
theorem ClaimsOwn.below (hk : c.classifier.Exclusive) {claimed : List NodeId} {n : SyntaxNode}
    {rest : List SyntaxNode} (hids : (SyntaxNode.idsAll (n :: rest)).Nodup)
    (hscope : c.classifier.isScope n.kind = false) (h : c.ClaimsOwn claimed (n :: rest)) :
    c.ClaimsOwn claimed n.children := by
  intro id hid hclaimed
  have hown : id ∈ n.ids := by
    cases n with
    | node own info children =>
      rw [SyntaxNode.ids_node]
      exact List.mem_cons_of_mem _ hid
  rw [SyntaxNode.idsAll_cons] at hids
  have hmem := h id (by rw [SyntaxNode.idsAll_cons]; exact List.mem_append_left _ hown) hclaimed
  rw [claimedIn_cons, List.mem_append] at hmem
  rcases hmem with htree | hrest
  · rw [claimedAt, inTree_of_open (by simp) hscope] at htree
    exact htree
  · exact absurd (claimedIn_subset hk rest id hrest) (List.disjoint_of_nodup_append hids hown)

mutual

/-- **A contest gives some node two entries.** The induction is the one by which contests are
defined. At the first namespace around the contest what is counted becomes what that namespace
gathers, and there a contest gives two entries. -/
theorem two_le_gathered_top (hk : c.classifier.Exclusive) {claimed : List NodeId} :
    ∀ nodes : List SyntaxNode, (SyntaxNode.idsAll nodes).Nodup → c.ClaimsOwn claimed nodes →
      c.classifier.contestedIn false nodes = true →
      ∃ x : NodeId, 2 ≤ c.gathered t (·.1 == x) (.top claimed) nodes
  | [], _, _, h => by simp [Classifier.contestedIn] at h
  | n :: rest, hids, hclaims, h => by
    rw [Classifier.contestedIn, Bool.or_eq_true, Bool.false_or] at h
    have hids' := hids
    rw [SyntaxNode.idsAll_cons] at hids'
    -- the contest is in the first tree or after it, and in the second case a namespace may own the
    -- rest
    rcases h with htree | hrest
    · obtain ⟨x, hx⟩ := two_le_gatheredAt_top hk rest n hids hclaims htree
      exact ⟨x, by rw [gathered_cons]; omega⟩
    · cases hscoped : c.classifier.isFileScoped n.kind with
      | true =>
        obtain ⟨x, hx⟩ := two_le_gathered_space (t := t) hk rest (hscoped ▸ hrest)
        refine ⟨x, ?_⟩
        rw [gathered_cons, gatheredAt_top_namespace hk (hclaims.head hk hids)
          (hk.isNamespace_of_isFileScoped hscoped), followers_of_isFileScoped hscoped]
        omega
      | false =>
        obtain ⟨x, hx⟩ := two_le_gathered_top hk rest hids'.of_append_right
          (hclaims.tail hk hids hscoped) (hscoped ▸ hrest)
        exact ⟨x, by rw [gathered_cons]; omega⟩

theorem two_le_gatheredAt_top (hk : c.classifier.Exclusive) {claimed : List NodeId}
    (following : List SyntaxNode) :
    ∀ n : SyntaxNode, (SyntaxNode.idsAll (n :: following)).Nodup →
      c.ClaimsOwn claimed (n :: following) → c.classifier.contestedAt false following n = true →
      ∃ x : NodeId, 2 ≤ c.gatheredAt t (·.1 == x) (.top claimed) following n
  | .node id info children, hids, hclaims, h => by
    have hfree := hclaims.head hk hids
    cases hnamespace : c.classifier.isNamespace info.kind with
    | true =>
      rw [Classifier.contestedAt, if_pos hnamespace] at h
      obtain ⟨x, hx⟩ := two_le_gathered_space (t := t) hk children (by simpa using h)
      refine ⟨x, ?_⟩
      rw [gatheredAt_top_namespace hk hfree hnamespace]
      simp only [SyntaxNode.children]
      omega
    | false =>
      -- any other scope is closed to the search and contests nothing, so the node is open
      cases hscope : c.classifier.isScope info.kind with
      | true => simp [Classifier.contestedAt, hnamespace, hscope] at h
      | false =>
        have hbelow : (SyntaxNode.idsAll children).Nodup := by
          rw [SyntaxNode.idsAll_cons, SyntaxNode.ids_node] at hids
          exact (List.nodup_cons.mp hids.of_append_left).2
        obtain ⟨x, hx⟩ := two_le_gathered_top hk children hbelow
          (hclaims.below hk hids hscope) (contestedIn_children_of_open h hscope)
        refine ⟨x, ?_⟩
        rw [gatheredAt_open hfree (isUnitMember_eq_false_of_open hscope) hscope]
        exact hx

end

/-! ## The unit -/

theorem countP_unit (hk : c.classifier.Exclusive) :
    (c.unit t).entries.countP test
      = c.gathered t test (.top (c.claimed t.root)) t.root.children :=
  (c.entries_unit hk t).countP_eq test

theorem covers_claimed (root : SyntaxNode) :
    c.Covers (c.claimed root)
      ((c.search Classifier.isNamespace (c.claimed root)).inList root.children) := by
  intro s hs m hm
  have hfound := Search.mem_inList_of_skip _ _ s hs
  exact List.mem_flatMap.mpr ⟨s, hfound, List.mem_map.mpr ⟨m, hm, rfl⟩⟩

theorem countP_unit_le (hk : c.classifier.Exclusive)
    (h : c.classifier.contestedIn false t.root.children = false) :
    (c.unit t).entries.countP test ≤ t.allNodes.countP (c.classifier.owes test) := by
  rw [countP_unit hk]
  exact Nat.le_trans (gathered_top_le hk _ h (covers_claimed t.root)) (owed_children_le t.root)

theorem countP_owes_id_le (k : Classifier) (x : NodeId) (nodes : List SyntaxNode) :
    nodes.countP (k.owes (·.1 == x)) ≤ (nodes.map (·.id)).count x := by
  rw [List.count, List.countP_map]
  refine List.countP_mono_left fun n _ howes => ?_
  obtain ⟨r, -, hr⟩ := List.any_eq_true.mp howes
  exact (Bool.and_eq_true _ _ ▸ hr).2

theorem countP_owes_namespace_le (k : Classifier) (nodes : List SyntaxNode) :
    nodes.countP (k.owes (·.2 = .namespaces)) ≤ nodes.countP fun n => k.isNamespace n.kind := by
  refine List.countP_mono_left fun n _ howes => ?_
  obtain ⟨r, -, hr⟩ := List.any_eq_true.mp howes
  rw [Bool.and_eq_true, decide_eq_true_eq] at hr
  obtain ⟨hplays, rfl⟩ := hr
  exact hplays

theorem nodup_entries_of_uncontested (hk : c.classifier.Exclusive) (hids : t.root.ids.Nodup)
    (h : c.classifier.contestedIn false t.root.children = false) :
    ((c.unit t).entries.map Prod.fst).Nodup := by
  rw [List.nodup_iff_count_le_one]
  intro x
  have hbound : (c.unit t).entries.countP (·.1 == x)
      ≤ t.allNodes.countP (c.classifier.owes (·.1 == x)) := countP_unit_le hk h
  have howes := countP_owes_id_le c.classifier x t.allNodes
  have honce := List.nodup_iff_count_le_one.mp hids x
  rw [List.count, List.countP_map]
  exact Nat.le_trans hbound (Nat.le_trans howes honce)

theorem not_nodup_entries_of_contested (hk : c.classifier.Exclusive) (hids : t.root.ids.Nodup)
    (h : c.classifier.contestedIn false t.root.children = true) :
    ¬((c.unit t).entries.map Prod.fst).Nodup := by
  intro hnodup
  have hbelow : (SyntaxNode.idsAll t.root.children).Nodup := by
    revert hids
    cases t.root with
    | node id info children =>
      intro hids
      rw [SyntaxNode.ids_node] at hids
      exact (List.nodup_cons.mp hids).2
  have hclaims : c.ClaimsOwn (c.claimed t.root) t.root.children := fun _ _ hid => hid
  obtain ⟨x, hx⟩ := two_le_gathered_top (t := t) hk _ hbelow hclaims h
  have honce := List.nodup_iff_count_le_one.mp hnodup x
  rw [List.count, List.countP_map] at honce
  rw [← countP_unit hk] at hx
  exact absurd (Nat.le_trans hx honce) (by decide)

end Converter

namespace Classifier

variable {c : Classifier}

mutual

theorem contestedIn_eq_false (h : ∀ kind, c.isFileScoped kind = false) (inside : Bool) :
    ∀ nodes : List SyntaxNode, c.contestedIn inside nodes = false
  | [] => by rw [contestedIn]
  | n :: rest => by
    rw [contestedIn, contestedAt_eq_false h inside rest n, contestedIn_eq_false h _ rest]
    rfl

theorem contestedAt_eq_false (h : ∀ kind, c.isFileScoped kind = false) (inside : Bool)
    (following : List SyntaxNode) :
    ∀ n : SyntaxNode, c.contestedAt inside following n = false
  | .node id info children => by
    rw [contestedAt, h info.kind, contestedIn_eq_false h true children,
      contestedIn_eq_false h inside children]
    simp

end

end Classifier

namespace Converter

/-- **Each node is declared once, unless namespaces contest it.** With the rules of any built-in
table, no node of a tree is declared twice in its unit, counted over all levels, if and only if no
namespace that owns what follows it stands inside another namespace and is followed by a
declaration. Without such a contest there are no more namespaces in the unit than in the tree. Only
a table with namespaces that own what follows them can have contests. -/
theorem declared_once_iff {table : String} {rules : Rules}
    (hrules : Rules.forLanguage? table = some rules) (language : String) (t : SyntaxTree)
    (hids : t.root.ids.Nodup) :
    ((((Converter.mk language (.byRules rules)).unit t).entries.map Prod.fst).Nodup
        ↔ (Classifier.byRules rules).contestedIn false t.root.children = false)
      ∧ ((Classifier.byRules rules).contestedIn false t.root.children = false →
          ((Converter.mk language (.byRules rules)).unit t).entries.countP
              (·.2 = DeclRole.namespaces)
            ≤ t.allNodes.countP fun n => (Classifier.byRules rules).isNamespace n.kind)
      ∧ (rules.fileScopedNamespaces = [] →
          (Classifier.byRules rules).contestedIn false t.root.children = false) := by
  have hk : (Converter.mk language (.byRules rules)).classifier.Exclusive :=
    Rules.exclusive_of_builtin hrules
  refine ⟨⟨fun hnodup => ?_, fun h => nodup_entries_of_uncontested hk hids h⟩, fun h => ?_,
    fun h => ?_⟩
  · cases hcontested : (Classifier.byRules rules).contestedIn false t.root.children with
    | false => rfl
    | true => exact absurd hnodup (not_nodup_entries_of_contested hk hids hcontested)
  · exact Nat.le_trans (countP_unit_le hk h) (countP_owes_namespace_le _ _)
  · refine Classifier.contestedIn_eq_false (fun kind => ?_) false _
    simp [Classifier.isFileScoped, h]

/-- A tree of nodes without names, numbered in document order, whose root has three children. -/
def threeMembers (kinds : String × String × String) : SyntaxTree where
  nodes := {}
  root := .node 0 { kind := "compilation_unit" }
    [.node 1 { kind := kinds.1 } [], .node 2 { kind := kinds.2.1 } [],
      .node 3 { kind := kinds.2.2 } []]
  source := ""
  language := "csharp"

/-- One namespace without a body and two classes after it. -/
theorem declared_once_one_namespace :
    (((Converter.mk "csharp" (.byRules .csharp)).unit (threeMembers
      ("file_scoped_namespace_declaration", "class_declaration", "class_declaration"))).entries.map
        Prod.fst).Nodup :=
  (declared_once_iff Rules.forLanguage_csharp "csharp" _ (by decide)).1.mpr (by decide +kernel)

/-- Two namespaces without bodies, one after the other, both declare the class after them. -/
theorem declared_twice_two_namespaces :
    ¬(((Converter.mk "csharp" (.byRules .csharp)).unit (threeMembers
      ("file_scoped_namespace_declaration", "file_scoped_namespace_declaration",
        "class_declaration"))).entries.map Prod.fst).Nodup :=
  not_nodup_entries_of_contested (Rules.exclusive_of_builtin Rules.forLanguage_csharp) (by decide)
    (by decide +kernel)

end Converter

end SyntaxForest
