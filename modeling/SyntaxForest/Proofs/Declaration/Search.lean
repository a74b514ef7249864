import SyntaxForest.Declaration.Site

/-!
# What a search finds

A search for the nearest accepted nodes walks trees in document order. Two facts about it carry the
theory of declarations:

* **`Search.preorder_sublist`**: the trees found are disjoint parts of the trees searched, in
  document order. Whatever is counted over the trees found is therefore counted at most once.
* **`Search.inList_filter`**: a search for some kinds among those that another search accepts finds
  what the other search finds, filtered, as long as the kinds left out close their scope.
-/

namespace SyntaxForest

namespace SyntaxNode

/-- The ids of a tree's nodes, in document order. -/
def ids (n : SyntaxNode) : List NodeId := n.preorder.map (·.id)

/-- The ids of the nodes of several trees, in document order. -/
def idsAll (nodes : List SyntaxNode) : List NodeId := (preorderAll nodes).map (·.id)

@[simp] theorem idsAll_nil : idsAll [] = [] := rfl

theorem self_mem_preorder (n : SyntaxNode) : n ∈ n.preorder := by
  cases n
  exact List.mem_cons_self

theorem ids_node (id : NodeId) (info : NodeInfo) (children : List SyntaxNode) :
    ids (.node id info children) = id :: idsAll children := by
  simp [ids, idsAll, preorder, SyntaxNode.id]

theorem idsAll_cons (n : SyntaxNode) (rest : List SyntaxNode) :
    idsAll (n :: rest) = n.ids ++ idsAll rest := by
  simp [ids, idsAll, preorderAll]

theorem id_mem_ids (n : SyntaxNode) : n.id ∈ n.ids := by
  cases n with
  | node id info children => simp [ids_node, SyntaxNode.id]

theorem id_mem_idsAll {n : SyntaxNode} {nodes : List SyntaxNode} (hn : n ∈ nodes) :
    n.id ∈ idsAll nodes := by
  induction nodes with
  | nil => simp at hn
  | cons first rest ih =>
    rw [idsAll_cons, List.mem_append]
    rcases List.mem_cons.mp hn with rfl | hrest
    · exact Or.inl (id_mem_ids n)
    · exact Or.inr (ih hrest)

end SyntaxNode

namespace Search

/-! ### The trees found are parts of the trees searched -/

mutual

/-- **The trees found are disjoint parts of the trees searched**, in document order. -/
theorem preorder_sublist (q : Search) :
    ∀ nodes : List SyntaxNode,
      ((q.inList nodes).flatMap fun s => s.node.preorder).Sublist (SyntaxNode.preorderAll nodes)
  | [] => by simp [inList]
  | n :: rest => by
    rw [inList, List.flatMap_append, SyntaxNode.preorderAll]
    exact (preorder_sublist_inTree q rest n).append (preorder_sublist q rest)

theorem preorder_sublist_inTree (q : Search) (following : List SyntaxNode) :
    ∀ n : SyntaxNode,
      ((q.inTree following n).flatMap fun s => s.node.preorder).Sublist n.preorder
  | .node id info children => by
    rw [inTree]
    -- the tree is left out, found, or closed; if it is none of these, it is searched without its
    -- root
    split
    · simp
    · split
      · simp
      · split
        · simp
        · rw [SyntaxNode.preorder]
          exact (preorder_sublist q children).cons _

end

theorem node_mem_preorderAll {q : Search} {nodes : List SyntaxNode} {s : Site}
    (hs : s ∈ q.inList nodes) :
    s.node ∈ SyntaxNode.preorderAll nodes :=
  (preorder_sublist q nodes).subset (List.mem_flatMap.mpr ⟨s, hs, s.node.self_mem_preorder⟩)

mutual

theorem accept_of_mem_inList (q : Search) :
    ∀ (nodes : List SyntaxNode) (s : Site), s ∈ q.inList nodes → q.accept s.node.kind = true
  | [], s, hs => by simp [inList] at hs
  | n :: rest, s, hs => by
    rw [inList, List.mem_append] at hs
    rcases hs with htree | hrest
    · exact accept_of_mem_inTree q rest n s htree
    · exact accept_of_mem_inList q rest s hrest

theorem accept_of_mem_inTree (q : Search) (following : List SyntaxNode) :
    ∀ (n : SyntaxNode) (s : Site), s ∈ q.inTree following n → q.accept s.node.kind = true
  | .node id info children, s, hs => by
    rw [inTree] at hs
    split at hs
    · simp at hs
    · split at hs
      · rename_i haccept
        simp only [List.mem_singleton] at hs
        subst hs
        exact haccept
      · split at hs
        · simp at hs
        · exact accept_of_mem_inList q children s hs

end

mutual

theorem mem_inList_of_skip (q : Search) :
    ∀ (nodes : List SyntaxNode) (s : Site),
      s ∈ q.inList nodes → s ∈ ({ q with skip := [] } : Search).inList nodes
  | [], s, hs => by simp [inList] at hs
  | n :: rest, s, hs => by
    rw [inList, List.mem_append] at hs ⊢
    rcases hs with htree | hrest
    · exact Or.inl (mem_inTree_of_skip q rest n s htree)
    · exact Or.inr (mem_inList_of_skip q rest s hrest)

theorem mem_inTree_of_skip (q : Search) (following : List SyntaxNode) :
    ∀ (n : SyntaxNode) (s : Site),
      s ∈ q.inTree following n → s ∈ ({ q with skip := [] } : Search).inTree following n
  | .node id info children, s, hs => by
    rw [inTree] at hs ⊢
    split at hs
    · simp at hs
    · cases haccept : q.accept info.kind with
      | true => simpa [haccept] using hs
      | false =>
        cases hclosed : q.closed info.kind with
        | true => simp [haccept, hclosed] at hs
        | false =>
          simp only [haccept, hclosed] at hs
          simpa [haccept, hclosed] using mem_inList_of_skip q children s hs

end

/-! ### Searching for less -/

mutual

/-- **A search for less.** -/
theorem inList_filter (q : Search) {narrow : String → Bool}
    (hsub : ∀ kind, narrow kind = true → q.accept kind = true)
    (hclosed : ∀ kind, q.accept kind = true → narrow kind = false → q.closed kind = true) :
    ∀ nodes : List SyntaxNode,
      ({ q with accept := narrow } : Search).inList nodes
        = (q.inList nodes).filter fun s => narrow s.node.kind
  | [] => by simp [inList]
  | n :: rest => by
    rw [inList, inList, List.filter_append, inTree_filter q hsub hclosed rest n,
      inList_filter q hsub hclosed rest]

theorem inTree_filter (q : Search) {narrow : String → Bool}
    (hsub : ∀ kind, narrow kind = true → q.accept kind = true)
    (hclosed : ∀ kind, q.accept kind = true → narrow kind = false → q.closed kind = true)
    (following : List SyntaxNode) :
    ∀ n : SyntaxNode,
      ({ q with accept := narrow } : Search).inTree following n
        = (q.inTree following n).filter fun s => narrow s.node.kind
  | .node id info children => by
    rw [inTree, inTree]
    -- what the narrow search accepts the wide one accepts, so three cases are left
    cases hskip : q.skip.contains id with
    | true => simp
    | false =>
      cases hnarrow : narrow info.kind with
      | true =>
        have haccept := hsub info.kind hnarrow
        simp [haccept, hnarrow, SyntaxNode.kind, SyntaxNode.info]
      | false =>
        cases haccept : q.accept info.kind with
        | true =>
          -- the wide search stops here with a find, and the narrow one because the scope is closed
          have hshut := hclosed info.kind haccept hnarrow
          simp [hshut, hnarrow, SyntaxNode.kind, SyntaxNode.info]
        | false =>
          cases q.closed info.kind with
          | true => simp [hnarrow]
          | false => simpa [hnarrow] using inList_filter q hsub hclosed children

end

end Search

end SyntaxForest
