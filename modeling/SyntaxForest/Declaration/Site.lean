import SyntaxForest.Tree.SyntaxNode

/-!
Finding the nearest nodes that satisfy a test.

The search goes through a list of trees in document order. A node that passes the test is found and
not searched further; a node that closes a scope is not searched either. What is found is a `Site`:
the node together with the siblings that follow it. A site is never larger than the list it was
found in, so searching again below a site, or among the siblings after it, comes to an end.
-/

namespace SyntaxForest

/-- A node and the siblings that follow it. -/
structure Site where
  node : SyntaxNode
  following : List SyntaxNode

namespace Site

/-- How many nodes the site has, its following siblings included. -/
def size (s : Site) : Nat := s.node.size + SyntaxNode.sizeAll s.following

end Site

/-- What a search accepts, where it does not go on, and which nodes it leaves out. -/
structure Search where
  accept : String → Bool
  closed : String → Bool
  skip : List NodeId := []

namespace Search

mutual

/-- The nearest accepted nodes in a list of siblings, in document order. -/
def inList (q : Search) : List SyntaxNode → List Site
  | [] => []
  | n :: rest => inTree q rest n ++ inList q rest

/-- The nearest accepted nodes in one tree, which has `following` siblings after it. -/
def inTree (q : Search) (following : List SyntaxNode) : SyntaxNode → List Site
  | .node id info children =>
    if q.skip.contains id then []
    else if q.accept info.kind then [⟨.node id info children, following⟩]
    else if q.closed info.kind then []
    else inList q children

end

mutual

theorem size_le_of_mem_inList (q : Search) :
    ∀ (nodes : List SyntaxNode) (s : Site), s ∈ q.inList nodes → s.size ≤ SyntaxNode.sizeAll nodes
  | [], s, h => by simp [inList] at h
  | n :: rest, s, h => by
    rw [inList, List.mem_append] at h
    rw [SyntaxNode.sizeAll]
    rcases h with h | h
    · exact size_le_of_mem_inTree q rest n s h
    · have := size_le_of_mem_inList q rest s h
      omega

theorem size_le_of_mem_inTree (q : Search) (following : List SyntaxNode) :
    ∀ (n : SyntaxNode) (s : Site),
      s ∈ q.inTree following n → s.size ≤ n.size + SyntaxNode.sizeAll following
  | .node id info children, s, h => by
    rw [inTree] at h
    split at h
    · simp at h
    · split at h
      · simp only [List.mem_singleton] at h
        subst h
        simp [Site.size]
      · split at h
        · simp at h
        · have := size_le_of_mem_inList q children s h
          rw [SyntaxNode.size]
          omega

end

/-- A site found below a node is smaller than the node. -/
theorem size_lt_of_mem_children (q : Search) (n : SyntaxNode) (s : Site)
    (h : s ∈ q.inList n.children) : s.size < n.size := by
  have := size_le_of_mem_inList q n.children s h
  cases n with
  | node id info children =>
    rw [SyntaxNode.size]
    simp only [SyntaxNode.children] at this
    omega

end Search

namespace SyntaxNode

theorem size_pos (n : SyntaxNode) : 0 < n.size := by
  cases n with
  | node id info children => rw [size]; omega

end SyntaxNode

end SyntaxForest
