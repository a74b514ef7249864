import Mathlib.Data.List.Nodup
import Mathlib.Data.List.Pairwise
import SyntaxForest.Proofs.Declaration.Search

/-!
# Which nodes a search reaches

A search finds a node just when it accepts the node and passes through everything above it. So what
a search finds can be told from the nodes above, without following its walk.

* **`Search.exists_site`**, **`Search.of_mem_inList`** — the two directions; the second needs that
  ids tell nodes apart.
* **`Search.site_unique`** — a node has one site only.
* **`Search.inList_following_subset`** — what is found among the siblings after a site is found with
  it.
-/

namespace SyntaxForest

namespace SyntaxNode

/-- The first node is below the second one. -/
def Below (n a : SyntaxNode) : Prop := n ∈ preorderAll a.children

theorem mem_preorder_iff {m n : SyntaxNode} : m ∈ n.preorder ↔ m = n ∨ m.Below n := by
  cases n
  exact List.mem_cons

theorem mem_preorderAll_iff {m : SyntaxNode} {nodes : List SyntaxNode} :
    m ∈ preorderAll nodes ↔ ∃ n ∈ nodes, m ∈ n.preorder := by
  induction nodes with
  | nil => simp [preorderAll]
  | cons n rest ih => rw [preorderAll, List.mem_append, ih, List.exists_mem_cons_iff]

theorem mem_preorderAll_of_mem {n : SyntaxNode} {nodes : List SyntaxNode} (hn : n ∈ nodes) :
    n ∈ preorderAll nodes :=
  mem_preorderAll_iff.mpr ⟨n, hn, n.self_mem_preorder⟩

mutual

theorem mem_preorder_of_below {m a : SyntaxNode} (hm : m.Below a) :
    ∀ n : SyntaxNode, a ∈ n.preorder → m ∈ n.preorder
  | .node id info children, ha => by
    rcases List.mem_cons.mp ha with rfl | hbelow
    · exact List.mem_cons_of_mem _ hm
    · exact List.mem_cons_of_mem _ (mem_preorderAll_of_below hm children hbelow)

theorem mem_preorderAll_of_below {m a : SyntaxNode} (hm : m.Below a) :
    ∀ nodes : List SyntaxNode, a ∈ preorderAll nodes → m ∈ preorderAll nodes
  | n :: rest, ha => by
    rw [preorderAll, List.mem_append] at ha ⊢
    rcases ha with hn | hrest
    · exact Or.inl (mem_preorder_of_below hm n hn)
    · exact Or.inr (mem_preorderAll_of_below hm rest hrest)

end

mutual

theorem preorder_sublist_of_mem {m : SyntaxNode} :
    ∀ n : SyntaxNode, m ∈ n.preorder → m.preorder.Sublist n.preorder
  | .node id info children, hm => by
    rcases List.mem_cons.mp hm with rfl | hbelow
    · exact List.Sublist.refl _
    · exact (preorderAll_sublist_of_mem children hbelow).cons _

theorem preorderAll_sublist_of_mem {m : SyntaxNode} :
    ∀ nodes : List SyntaxNode, m ∈ preorderAll nodes → m.preorder.Sublist (preorderAll nodes)
  | n :: rest, hm => by
    rw [preorderAll, List.mem_append] at hm
    rw [preorderAll]
    rcases hm with hn | hrest
    · exact (preorder_sublist_of_mem n hn).trans (List.sublist_append_left _ _)
    · exact (preorderAll_sublist_of_mem rest hrest).trans (List.sublist_append_right _ _)

end

theorem Below.trans {m a b : SyntaxNode} (hm : m.Below a) (ha : a.Below b) : m.Below b :=
  mem_preorderAll_of_below hm _ ha

mutual

theorem size_le_of_mem_preorder {m : SyntaxNode} :
    ∀ n : SyntaxNode, m ∈ n.preorder → m.size ≤ n.size
  | .node id info children, hm => by
    rcases List.mem_cons.mp hm with rfl | hbelow
    · exact Nat.le_refl _
    · have := size_le_of_mem_preorderAll children hbelow
      rw [size]
      omega

theorem size_le_of_mem_preorderAll {m : SyntaxNode} :
    ∀ nodes : List SyntaxNode, m ∈ preorderAll nodes → m.size ≤ sizeAll nodes
  | n :: rest, hm => by
    rw [preorderAll, List.mem_append] at hm
    rw [sizeAll]
    rcases hm with hn | hrest
    · have := size_le_of_mem_preorder n hn
      omega
    · have := size_le_of_mem_preorderAll rest hrest
      omega

end

theorem Below.size_lt {m a : SyntaxNode} (h : m.Below a) : m.size < a.size := by
  cases a with
  | node id info children =>
    have := size_le_of_mem_preorderAll children h
    rw [size]
    omega

theorem eq_of_id_eq {nodes : List SyntaxNode} (hids : (idsAll nodes).Nodup) {m n : SyntaxNode}
    (hm : m ∈ preorderAll nodes) (hn : n ∈ preorderAll nodes) (h : m.id = n.id) : m = n :=
  List.inj_on_of_nodup_map hids hm hn h

theorem not_mem_rest {n : SyntaxNode} {rest : List SyntaxNode} (hids : (idsAll (n :: rest)).Nodup)
    {m : SyntaxNode} (hm : m ∈ n.preorder) : m ∉ preorderAll rest := by
  intro hrest
  rw [idsAll_cons] at hids
  exact List.disjoint_of_nodup_append hids (List.mem_map.mpr ⟨m, hm, rfl⟩)
    (List.mem_map.mpr ⟨m, hrest, rfl⟩)

end SyntaxNode

namespace Search

/-- The search takes the node, if it gets to it. -/
def Takes (q : Search) (n : SyntaxNode) : Prop := q.accept n.kind = true ∧ n.id ∉ q.skip

/-- The search goes on below the node, if it gets to it. -/
def Passes (q : Search) (n : SyntaxNode) : Prop :=
  n.id ∉ q.skip ∧ q.accept n.kind = false ∧ q.closed n.kind = false

variable {q : Search} {n : SyntaxNode} {s : Site}

theorem inTree_of_takes {following : List SyntaxNode} (h : q.Takes n) :
    q.inTree following n = [⟨n, following⟩] := by
  cases n with
  | node id info children =>
    have haccept : q.accept info.kind = true := h.1
    have hskip : id ∉ q.skip := h.2
    simp [inTree, hskip, haccept]

theorem inTree_of_passes {following : List SyntaxNode} (h : q.Passes n) :
    q.inTree following n = q.inList n.children := by
  cases n with
  | node id info children =>
    have hskip : id ∉ q.skip := h.1
    have haccept : q.accept info.kind = false := h.2.1
    have hclosed : q.closed info.kind = false := h.2.2
    simp [inTree, hskip, haccept, hclosed, SyntaxNode.children]

/-- What is found in a tree is its root, or was found below the root. -/
theorem inTree_cases {following : List SyntaxNode} (h : s ∈ q.inTree following n) :
    (q.Takes n ∧ s = ⟨n, following⟩) ∨ (q.Passes n ∧ s ∈ q.inList n.children) := by
  cases n with
  | node id info children =>
    rw [inTree] at h
    split at h
    · cases h
    · rename_i hskip
      have hid : id ∉ q.skip := by simpa using hskip
      split at h
      · rename_i haccept
        exact Or.inl ⟨⟨haccept, hid⟩, List.mem_singleton.mp h⟩
      · rename_i haccept
        split at h
        · cases h
        · rename_i hclosed
          exact Or.inr ⟨⟨hid, Bool.eq_false_iff.mpr haccept, Bool.eq_false_iff.mpr hclosed⟩, h⟩

mutual

/-- **Whatever a search takes is found**, if the search passes through all that is above it. -/
theorem exists_site (hn : q.Takes n) :
    ∀ nodes : List SyntaxNode, n ∈ SyntaxNode.preorderAll nodes →
      (∀ a ∈ SyntaxNode.preorderAll nodes, n.Below a → q.Passes a) →
      ∃ s ∈ q.inList nodes, s.node = n
  | m :: rest, hmem, hopen => by
    rw [SyntaxNode.preorderAll, List.forall_mem_append] at hopen
    rw [SyntaxNode.preorderAll, List.mem_append] at hmem
    rw [inList]
    rcases hmem with htree | hrest
    · obtain ⟨s, hs, heq⟩ := exists_site_inTree hn rest m htree hopen.1
      exact ⟨s, List.mem_append_left _ hs, heq⟩
    · obtain ⟨s, hs, heq⟩ := exists_site hn rest hrest hopen.2
      exact ⟨s, List.mem_append_right _ hs, heq⟩

theorem exists_site_inTree (hn : q.Takes n) (following : List SyntaxNode) :
    ∀ m : SyntaxNode, n ∈ m.preorder → (∀ a ∈ m.preorder, n.Below a → q.Passes a) →
      ∃ s ∈ q.inTree following m, s.node = n
  | .node id info children, hmem, hopen => by
    rcases List.mem_cons.mp hmem with rfl | hbelow
    · rw [inTree_of_takes hn]
      exact ⟨_, List.mem_singleton_self _, rfl⟩
    · have hpasses := hopen (.node id info children) List.mem_cons_self hbelow
      rw [inTree_of_passes hpasses]
      exact exists_site hn children hbelow fun a ha => hopen a (List.mem_cons_of_mem _ ha)

end

mutual

/-- **Whatever is found was taken**, and the search has passed through all that is above it. -/
theorem of_mem_inList :
    ∀ nodes : List SyntaxNode, (SyntaxNode.idsAll nodes).Nodup → s ∈ q.inList nodes →
      s.node ∈ SyntaxNode.preorderAll nodes ∧ q.Takes s.node
        ∧ ∀ a ∈ SyntaxNode.preorderAll nodes, s.node.Below a → q.Passes a
  | m :: rest, hids, hs => by
    -- ids are kept for the whole list, since a node above would be in one tree only
    have hboth := hids
    rw [SyntaxNode.idsAll_cons] at hboth
    rw [inList, List.mem_append] at hs
    rw [SyntaxNode.preorderAll, List.mem_append, List.forall_mem_append]
    rcases hs with htree | hrest
    · obtain ⟨hmem, htakes, hopen⟩ := of_mem_inTree rest m hboth.of_append_left htree
      refine ⟨Or.inl hmem, htakes, hopen, fun a ha hbelow => ?_⟩
      exact absurd (SyntaxNode.mem_preorderAll_of_below hbelow rest ha)
        (SyntaxNode.not_mem_rest hids hmem)
    · obtain ⟨hmem, htakes, hopen⟩ := of_mem_inList rest hboth.of_append_right hrest
      refine ⟨Or.inr hmem, htakes, fun a ha hbelow => ?_, hopen⟩
      exact absurd hmem (SyntaxNode.not_mem_rest hids
        (SyntaxNode.mem_preorder_of_below hbelow m ha))

theorem of_mem_inTree (following : List SyntaxNode) :
    ∀ m : SyntaxNode, m.ids.Nodup → s ∈ q.inTree following m →
      s.node ∈ m.preorder ∧ q.Takes s.node ∧ ∀ a ∈ m.preorder, s.node.Below a → q.Passes a
  | .node id info children, hids, hs => by
    rcases inTree_cases hs with ⟨htakes, rfl⟩ | ⟨hpasses, hbelow⟩
    · refine ⟨List.mem_cons_self, htakes, fun a ha habove => ?_⟩
      -- nothing in a tree is above its root
      have hle := SyntaxNode.size_le_of_mem_preorder _ ha
      exact absurd habove.size_lt (Nat.not_lt.mpr hle)
    · rw [SyntaxNode.ids_node] at hids
      obtain ⟨hmem, htakes, hopen⟩ := of_mem_inList children (List.nodup_cons.mp hids).2 hbelow
      refine ⟨List.mem_cons_of_mem _ hmem, htakes, fun a ha habove => ?_⟩
      rcases List.mem_cons.mp ha with rfl | hinner
      · exact hpasses
      · exact hopen a hinner habove

end

theorem site_unique {nodes : List SyntaxNode} (hids : (SyntaxNode.idsAll nodes).Nodup) {s s' : Site}
    (hs : s ∈ q.inList nodes) (hs' : s' ∈ q.inList nodes) (h : s.node = s'.node) : s = s' := by
  have hnodup : ((q.inList nodes).flatMap fun s => s.node.preorder).Nodup :=
    (preorder_sublist q nodes).nodup (List.Nodup.of_map _ hids)
  have happart := (List.nodup_flatMap.mp hnodup).2
  have hsymm : Std.Symm (Function.onFun List.Disjoint fun s : Site => s.node.preorder) :=
    ⟨fun _ _ hd _ ha hb => hd hb ha⟩
  by_contra hne
  have hdisjoint := happart.forall hs hs' hne
  have hself := s.node.self_mem_preorder
  exact hdisjoint hself (h ▸ hself)

section Following

variable {α : Type} {view : List SyntaxNode → List α}

mutual

theorem following_subset (hrest : ∀ m rest, view rest ⊆ view (m :: rest))
    (hbelow : ∀ m rest, q.Passes m → view m.children ⊆ view (m :: rest)) :
    ∀ nodes : List SyntaxNode, s ∈ q.inList nodes → view s.following ⊆ view nodes
  | m :: rest, hs => by
    rw [inList, List.mem_append] at hs
    rcases hs with htree | hlater
    · exact following_subset_inTree hrest hbelow rest m htree
    · exact List.Subset.trans (following_subset hrest hbelow rest hlater) (hrest m rest)

theorem following_subset_inTree (hrest : ∀ m rest, view rest ⊆ view (m :: rest))
    (hbelow : ∀ m rest, q.Passes m → view m.children ⊆ view (m :: rest))
    (following : List SyntaxNode) :
    ∀ m : SyntaxNode, s ∈ q.inTree following m → view s.following ⊆ view (m :: following)
  | .node id info children, hs => by
    rcases inTree_cases hs with ⟨-, rfl⟩ | ⟨hpasses, hinner⟩
    · exact hrest _ _
    · exact List.Subset.trans (following_subset hrest hbelow children hinner)
        (hbelow _ following hpasses)

end

end Following

theorem inList_following_subset {nodes : List SyntaxNode} (hs : s ∈ q.inList nodes) :
    q.inList s.following ⊆ q.inList nodes := by
  refine following_subset (fun m rest => ?_) (fun m rest hpasses => ?_) nodes hs
  · rw [inList]
    exact List.subset_append_right _ _
  · rw [inList, inTree_of_passes hpasses]
    exact List.subset_append_left _ _

theorem preorderAll_following_subset {nodes : List SyntaxNode} (hs : s ∈ q.inList nodes) :
    SyntaxNode.preorderAll s.following ⊆ SyntaxNode.preorderAll nodes := by
  refine following_subset (fun m rest => ?_) (fun m rest _ => ?_) nodes hs
  · exact List.subset_append_right _ _
  · intro n hn
    rw [SyntaxNode.preorderAll]
    exact List.mem_append_left _ (SyntaxNode.mem_preorder_iff.mpr (Or.inr hn))

end Search

end SyntaxForest
