import SyntaxForest.Declaration.Reading
import SyntaxForest.Proofs.Declaration.MemberOwnership
import SyntaxForest.Proofs.Forest.Traversal
import SyntaxForest.Proofs.Tree.Frozen

/-!
# Reading sound links

Where the links of a forest form trees, going from node to node finds what the recursion through the
trees finds. So every reading ends, and none of them fails.

* **`Reading.Ends`** — a reading that comes to an answer, within a limit that is large enough, and
  that can fail by its limit only.
* **`Forest.nearest_ends`** — a search with a stack ends with what the search through the trees
  finds, and visits every node at most once.
* **`Forest.Stands`** — trees that are the last children of some node. Every site of a search stands
  in this way (`Stands.of_mem_inList`), so a namespace is found among the children of its parent
  (`Converter.readFollowers_eq`).
* **`Converter.readClass_ends`**, **`Converter.readNamespace_ends`**, **`Converter.readUnit_ends`**
  — what is read is what the recursion through the tree declares. The limit need not be larger than
  the number of nodes.
-/

namespace SyntaxForest

/-! ## Ending -/

/-- The reading comes to the answer, if the limit is large enough; if not, it may also go over the
limit. -/
structure Reading.Ends {α : Type} (enough limit : Nat) (r : Reading α) (answer : α) : Prop where
  answers : enough ≤ limit → r = .ok answer
  nothing_else : r = .ok answer ∨ r = .error .overLimit

namespace Reading.Ends

variable {α β : Type} {enough limit : Nat} {r : Reading α} {a : α}

theorem ok (a : α) : Ends enough limit (.ok a) a := ⟨fun _ => rfl, Or.inl rfl⟩

theorem of_eq (h : r = .ok a) : Ends enough limit r a := h ▸ ok a

theorem overLimit (h : limit < enough) (a : α) : Ends enough limit (.error .overLimit) a :=
  ⟨fun hle => absurd hle (Nat.not_le.mpr h), Or.inr rfl⟩

theorem eq_of_ok (h : Ends enough limit r a) {b : α} (hb : r = .ok b) : b = a := by
  rcases h.nothing_else with hok | herror
  · rw [hb] at hok
    exact Except.ok.inj hok
  · rw [hb] at herror
    cases herror

theorem mono {enough' limit' : Nat} (h : Ends enough' limit' r a)
    (hle : enough ≤ limit → enough' ≤ limit') :
    Ends enough limit r a :=
  ⟨fun hlimit => h.answers (hle hlimit), h.nothing_else⟩

theorem bind {next : α → Reading β} {b : β} (h : Ends enough limit r a)
    (hnext : Ends enough limit (next a) b) :
    Ends enough limit (r >>= next) b := by
  constructor
  · intro hlimit
    rw [h.answers hlimit]
    exact hnext.answers hlimit
  · rcases h.nothing_else with hok | herror
    · rw [hok]
      exact hnext.nothing_else
    · rw [herror]
      exact Or.inr rfl

theorem mapM {γ : Type} {key : γ → NodeId} {readOne : NodeId → Reading β} {answer : γ → β} :
    ∀ items : List γ, (∀ x ∈ items, Ends enough limit (readOne (key x)) (answer x)) →
      Ends enough limit ((items.map key).mapM readOne) (items.map answer)
  | [], _ => ok []
  | x :: rest, h => by
    rw [List.forall_mem_cons] at h
    rw [List.map_cons, List.mapM_cons]
    exact h.1.bind ((mapM rest h.2).bind (ok _))

end Reading.Ends

open Reading

/-! ## Searches -/

theorem SyntaxNode.size_eq (n : SyntaxNode) : n.size = sizeAll n.children + 1 := by
  cases n with
  | node id info below => rw [size, children]

namespace Search

variable (q : Search)

/-- The nodes found, without what comes after them. -/
def found (nodes : List SyntaxNode) : List NodeId := (q.inList nodes).map (·.node.id)

theorem map_inTree (following following' : List SyntaxNode) (n : SyntaxNode) :
    (q.inTree following n).map (·.node.id) = (q.inTree following' n).map (·.node.id) := by
  cases n with
  | node id info children =>
    rw [inTree, inTree]
    split
    · rfl
    · split
      · rfl
      · split <;> rfl

theorem found_append (nodes more : List SyntaxNode) :
    q.found (nodes ++ more) = q.found nodes ++ q.found more := by
  induction nodes with
  | nil => rfl
  | cons n rest ih =>
    unfold found at ih ⊢
    rw [List.cons_append, inList, inList, List.map_append, List.map_append, ih, List.append_assoc,
      map_inTree q (rest ++ more) rest n]

/-- The first tree is left out, or found, or closed, or searched before the others. This is how a
search with a stack goes on: what is below a tree is put before the trees that are left. -/
theorem found_cons (n : SyntaxNode) (rest : List SyntaxNode) :
    q.found (n :: rest)
      = if q.skip.contains n.id then q.found rest
        else if q.accept n.kind then n.id :: q.found rest
        else if q.closed n.kind then q.found rest
        else q.found (n.children ++ rest) := by
  rw [found_append]
  cases n with
  | node id info children =>
    show (q.inTree rest (.node id info children) ++ q.inList rest).map _
      = if q.skip.contains id then _ else if q.accept info.kind then _ else if q.closed info.kind
        then _ else _
    rw [inTree, List.map_append]
    -- the tests are made in the same order on both sides
    by_cases hskip : q.skip.contains id = true
    · rw [if_pos hskip, if_pos hskip]
      rfl
    · rw [if_neg hskip, if_neg hskip]
      by_cases haccept : q.accept info.kind = true
      · rw [if_pos haccept, if_pos haccept]
        rfl
      · rw [if_neg haccept, if_neg haccept]
        by_cases hclosed : q.closed info.kind = true
        · rw [if_pos hclosed, if_pos hclosed]
          rfl
        · rw [if_neg hclosed, if_neg hclosed]
          rfl

end Search

namespace Forest

variable {g : Forest} {n : SyntaxNode} {nodes : List SyntaxNode}

theorem isOf_of_holds (test : String → Bool) (hn : g.Holds n) : g.isOf test n.id = test n.kind := by
  obtain ⟨node, hnode, hkind⟩ := Option.map_eq_some_iff.mp (hn.get?_map fun info => test info.kind)
  rw [isOf, hnode, Option.any_some]
  exact hkind

theorem children_eq (hn : g.Holds n) : g.children n.id = n.children.map SyntaxNode.id := by
  cases n with
  | node id info children => exact children_of_holds hn

theorem Sound.read_eq (hg : g.Sound) (hn : g.Holds n) : g.read n.id = .ok n := by
  rw [read, hg.view?_eq hn]
  rfl

theorem holdsAll_iff : g.HoldsAll nodes ↔ ∀ n ∈ nodes, g.Holds n := by
  induction nodes with
  | nil => exact ⟨fun _ _ hn => absurd hn List.not_mem_nil, fun _ => trivial⟩
  | cons n rest ih => rw [HoldsAll, ih, List.forall_mem_cons]

theorem holdsAll_append {more : List SyntaxNode} (h : g.HoldsAll nodes) (hmore : g.HoldsAll more) :
    g.HoldsAll (nodes ++ more) := by
  rw [holdsAll_iff] at h hmore ⊢
  exact List.forall_mem_append.mpr ⟨h, hmore⟩

theorem holdsAll_children (hn : g.Holds n) : g.HoldsAll n.children := by
  cases n with
  | node id info children => exact hn.2

/-- **A search with a stack ends.** It finds what the search through the trees on the stack finds,
and visits no more nodes than these trees have. -/
theorem nearest_ends (q : Search) (limit : Nat) (hnodes : g.HoldsAll nodes) :
    Ends (SyntaxNode.sizeAll nodes) limit
      (g.nearest (g.isOf q.accept) (g.isOf q.closed) q.skip limit (nodes.map SyntaxNode.id))
        (q.found nodes) := by
  -- every step takes a node off the stack and puts at most those on it that were below
  induction limit generalizing nodes with
  | zero =>
    cases nodes with
    | nil => exact .ok []
    | cons n rest =>
      refine .overLimit ?_ _
      have hpos := n.size_pos
      rw [SyntaxNode.sizeAll]
      omega
  | succ limit ih =>
    cases nodes with
    | nil => exact .ok []
    | cons n rest =>
      obtain ⟨hn, hrest⟩ := hnodes
      have hsize := n.size_eq
      have hlater : Ends (SyntaxNode.sizeAll (n :: rest)) (limit + 1)
          (g.nearest (g.isOf q.accept) (g.isOf q.closed) q.skip limit (rest.map SyntaxNode.id))
            (q.found rest) := by
        refine (ih hrest).mono fun hle => ?_
        rw [SyntaxNode.sizeAll] at hle
        omega
      rw [List.map_cons, nearest, isOf_of_holds q.accept hn, isOf_of_holds q.closed hn,
        q.found_cons]
      by_cases hskip : q.skip.contains n.id = true
      · rw [if_pos hskip, if_pos hskip]
        exact hlater
      · rw [if_neg hskip, if_neg hskip]
        by_cases haccept : q.accept n.kind = true
        · rw [if_pos haccept, if_pos haccept]
          exact hlater.bind (.ok _)
        · rw [if_neg haccept, if_neg haccept]
          by_cases hclosed : q.closed n.kind = true
          · rw [if_pos hclosed, if_pos hclosed]
            exact hlater
          -- what is below the node is searched before the rest, and has as many nodes less one
          · rw [if_neg hclosed, if_neg hclosed, children_eq hn, ← List.map_append]
            refine (ih (holdsAll_append (holdsAll_children hn) hrest)).mono fun hle => ?_
            rw [SyntaxNode.sizeAll_append]
            rw [SyntaxNode.sizeAll] at hle
            omega

/-! ## Siblings -/

theorem idxOf?_of_nodup {before after : List NodeId} {x : NodeId}
    (h : (before ++ x :: after).Nodup) :
    (before ++ x :: after).idxOf? x = some before.length := by
  induction before with
  | nil => simp [List.idxOf?_cons]
  | cons first rest ih =>
    rw [List.cons_append, List.nodup_cons] at h
    have hne : first ≠ x := fun heq => h.1 (heq ▸ by simp)
    rw [List.cons_append, List.idxOf?_cons, ih h.2]
    simp [hne]

theorem Sound.idxOf?_children (hg : g.Sound) {id p : NodeId} {before after : List NodeId}
    (h : g.children p = before ++ id :: after) :
    (g.children p).idxOf? id = some before.length ∧ (g.children p).drop (before.length + 1)
      = after := by
  rw [h]
  refine ⟨idxOf?_of_nodup (h ▸ hg.nodup p), ?_⟩
  simp

/-- The trees are the last children of some node. -/
structure Stands (g : Forest) (nodes : List SyntaxNode) : Prop where
  holds : g.HoldsAll nodes
  siblings : ∃ p before, g.children p = before ++ nodes.map SyntaxNode.id

theorem stands_children (hn : g.Holds n) : g.Stands n.children :=
  ⟨holdsAll_children hn, n.id, [], children_eq hn⟩

theorem Stands.tail {rest : List SyntaxNode} (h : g.Stands (n :: rest)) : g.Stands rest := by
  obtain ⟨holds, p, before, hp⟩ := h
  refine ⟨holds.2, p, before ++ [n.id], ?_⟩
  rw [hp, List.map_cons, List.append_assoc, List.singleton_append]

mutual

/-- Every site is found with the siblings that its parent has. -/
theorem Stands.of_mem_inList {q : Search} {s : Site} :
    ∀ nodes : List SyntaxNode, g.Stands nodes → s ∈ q.inList nodes →
      g.Stands (s.node :: s.following)
  | n :: rest, h, hs => by
    rw [Search.inList, List.mem_append] at hs
    rcases hs with htree | hlater
    · exact Stands.of_mem_inTree n rest h htree
    · exact Stands.of_mem_inList rest h.tail hlater

theorem Stands.of_mem_inTree {q : Search} {s : Site} :
    ∀ (n : SyntaxNode) (following : List SyntaxNode), g.Stands (n :: following) →
      s ∈ q.inTree following n →
      g.Stands (s.node :: s.following)
  | .node id info children, following, h, hs => by
    rcases Search.inTree_cases hs with ⟨-, rfl⟩ | ⟨-, hbelow⟩
    · exact h
    · exact Stands.of_mem_inList children (stands_children h.holds.1) hbelow

end

end Forest

namespace Converter

variable {c : Converter} {t : SyntaxTree} {g : Forest} {n : SyntaxNode} {s : Site}

theorem collect_ends (accept : Classifier → String → Bool) (skip : List NodeId) (limit : Nat)
    {nodes : List SyntaxNode} (hnodes : g.HoldsAll nodes) :
    Ends (SyntaxNode.sizeAll nodes) limit
      (c.collect g (g.isOf (accept c.classifier)) skip limit (nodes.map SyntaxNode.id))
      ((c.search accept skip).found nodes) :=
  Forest.nearest_ends (c.search accept skip) limit hnodes

/-- The siblings after a site are those that its parent has after it. -/
theorem readFollowers_eq (hg : g.Sound) (hs : g.Stands (s.node :: s.following)) :
    c.readFollowers g s.node.id = .ok ((c.followers s).map SyntaxNode.id) := by
  obtain ⟨⟨hnode, -⟩, p, before, hp⟩ := hs
  have hparent : g.parent? s.node.id = some p := by
    rw [← hg.linked, hp]
    simp
  obtain ⟨hplace, hafter⟩ := hg.idxOf?_children hp
  rw [readFollowers, hparent]
  simp only [Forest.isOf_of_holds _ hnode, followers]
  split
  · rw [hplace]
    exact congrArg Except.ok hafter
  · rfl

/-- **Every node is found among the children of its parent**, and so no search for its siblings
fails. -/
theorem exists_readFollowers (c : Converter) (hg : g.Sound) (id : NodeId) :
    ∃ after, c.readFollowers g id = .ok after
      ∧ ∀ p, g.parent? id = some p → g.isOf c.classifier.isFileScoped id = true →
          ∃ before, g.children p = before ++ id :: after := by
  unfold readFollowers
  cases hp : g.parent? id with
  | none => exact ⟨[], rfl, fun p h => by cases h⟩
  | some p =>
    by_cases hscoped : g.isOf c.classifier.isFileScoped id = true
    -- a node with a parent is among its children, because links go both ways
    · obtain ⟨before, after, hsplit⟩ := List.append_of_mem ((hg.linked p id).mpr hp)
      obtain ⟨hplace, hafter⟩ := hg.idxOf?_children hsplit
      refine ⟨after, ?_, ?_⟩
      · simp only [hscoped, if_true, hplace, hafter]
        rfl
      · intro p' hp' _
        cases hp'
        exact ⟨before, hsplit⟩
    · refine ⟨[], ?_, fun _ _ h => absurd h hscoped⟩
      simp only [hscoped]
      rfl

theorem stands_of_mem_within {accept : Classifier → String → Bool} {m : Site}
    (hs : g.Stands (s.node :: s.following)) (hm : m ∈ c.within accept s) :
    g.Stands (m.node :: m.following) := by
  rcases List.mem_append.mp hm with hbelow | hafter
  · exact .of_mem_inList _ (Forest.stands_children hs.holds.1) hbelow
  · rw [followers] at hafter
    split at hafter
    · exact .of_mem_inList _ hs.tail hafter
    · cases hafter

theorem size_node_le (s : Site) : s.node.size ≤ s.size := Nat.le_add_right _ _

theorem sizeAll_followers_le (s : Site) :
    SyntaxNode.sizeAll (c.followers s) ≤ SyntaxNode.sizeAll s.following := by
  unfold followers
  split
  · exact Nat.le_refl _
  · exact Nat.zero_le _

/-- What a namespace holds is read by one search through what is below it and what follows it. -/
theorem readWithin_ends (hg : g.Sound) (accept : Classifier → String → Bool) (limit : Nat)
    (hs : g.Stands (s.node :: s.following)) :
    Ends s.size (limit + 1) (c.readWithin g accept limit s.node.id)
      ((c.within accept s).map (·.node.id)) := by
  have hfollowers : g.HoldsAll (c.followers s) := by
    unfold followers
    split
    · exact hs.holds.2
    · trivial
  -- two searches through the trees, one with a stack
  have hfound : (c.within accept s).map (·.node.id)
      = (c.search accept []).found (s.node.children ++ c.followers s) := by
    rw [Search.found_append, within, List.map_append]
    rfl
  refine Ends.bind (.of_eq (readFollowers_eq hg hs)) ?_
  rw [Forest.children_eq hs.holds.1, ← List.map_append, hfound]
  refine (collect_ends _ _ limit (Forest.holdsAll_append (Forest.holdsAll_children hs.holds.1)
    hfollowers)).mono
    fun hle => ?_
  have hnode := s.node.size_eq
  have hle' := sizeAll_followers_le (c := c) s
  rw [SyntaxNode.sizeAll_append]
  unfold Site.size at hle
  omega

/-! ## Declarations -/

theorem readMembers_ends (limit : Nat) (hn : g.Holds n) :
    Ends n.size (limit + 1) (c.readMembers g limit n.id) ((c.ownNodes n).map SyntaxNode.id) := by
  have hfound : (c.ownNodes n).map SyntaxNode.id = (c.search Classifier.isMember []).found
      n.children := List.map_map
  rw [readMembers, Forest.children_eq hn, hfound]
  refine (collect_ends _ _ limit (Forest.holdsAll_children hn)).mono fun hle => ?_
  have hsize := n.size_eq
  omega

theorem holds_of_mem_ownNodes {m : SyntaxNode} (hn : g.Holds n) (hm : m ∈ c.ownNodes n) :
    g.Holds m := by
  have hbelow : m ∈ SyntaxNode.preorderAll n.children := (c.ownNodes_sublist n).subset hm
  exact Forest.holds_of_mem_preorder n hn (SyntaxNode.mem_preorder_iff.mpr (Or.inr hbelow))

theorem holds_of_mem_members {test : Classifier → String → Bool} {m : SyntaxNode} (hn : g.Holds n)
    (hm : m ∈ c.members n test) : g.Holds m :=
  holds_of_mem_ownNodes hn (List.mem_filter.mp hm).1

theorem filter_members (hn : g.Holds n) (test : Classifier → String → Bool) :
    ((c.ownNodes n).map SyntaxNode.id).filter (g.isOf (test c.classifier))
      = (c.members n test).map SyntaxNode.id := by
  rw [List.filter_map]
  refine congrArg (List.map SyntaxNode.id) (List.filter_congr fun m hm => ?_)
  exact Forest.isOf_of_holds _ (holds_of_mem_ownNodes hn hm)

section Tree

variable (hg : t.nodes.Sound) {enough limit : Nat}

include hg

theorem readEach_ends {α γ : Type} (decl : SyntaxNode → α) {node : γ → SyntaxNode} {items : List γ}
    (h : ∀ x ∈ items, t.nodes.Holds (node x)) :
    Ends enough limit (readEach t decl (items.map fun x => (node x).id))
      (items.map fun x => decl (node x)) := by
  have hread : Ends enough limit ((items.map fun x => (node x).id).mapM t.nodes.read)
      (items.map node) :=
    Ends.mapM items fun x hx => .of_eq (hg.read_eq (h x hx))
  have hdecl : (items.map node).map decl = items.map fun x => decl (node x) := List.map_map
  exact hread.bind (hdecl ▸ .ok _)

theorem readInterface_ends (hn : t.nodes.Holds n) :
    Ends n.size (limit + 1) (c.readInterface t limit n.id) (c.interface t n) := by
  refine Ends.bind (.of_eq (hg.read_eq hn)) ((readMembers_ends limit hn).bind ?_)
  rw [filter_members hn, filter_members hn]
  refine (readEach_ends hg _ fun m => holds_of_mem_members hn).bind ?_
  exact (readEach_ends hg _ fun m => holds_of_mem_members hn).bind (.ok _)

/-- **A class is read to the end**, if the limit is not below the number of its nodes. The induction
is on the limit: a class inside has fewer nodes, so one less is enough for it. -/
theorem readClass_ends (limit : Nat) (hn : t.nodes.Holds n) :
    Ends n.size limit (c.readClass t limit n.id) (c.classDecl t n) := by
  induction limit generalizing n with
  | zero => exact .overLimit n.size_pos _
  | succ limit ih =>
    have hsize : ∀ {test : Classifier → String → Bool} {m : SyntaxNode}, m ∈ c.members n test →
        n.size ≤ limit + 1 → m.size ≤ limit := by
      intro test m hm hle
      have hlt := size_lt_of_mem_members hm
      omega
    have heach : ∀ {α : Type} (decl : SyntaxNode → α) (test : Classifier → String → Bool),
        Ends n.size (limit + 1) (readEach t decl ((c.members n test).map SyntaxNode.id))
          ((c.members n test).map decl) :=
      fun decl test => readEach_ends hg decl fun m hm => holds_of_mem_members hn hm
    rw [readClass, classDecl_eq]
    refine Ends.bind (.of_eq (hg.read_eq hn)) ((readMembers_ends limit hn).bind ?_)
    rw [filter_members hn, filter_members hn, filter_members hn, filter_members hn,
      filter_members hn]
    -- methods, properties and fields in one go each, then the classes inside, then the interfaces
    refine (heach _ _).bind ((heach _ _).bind ((heach _ _).bind ?_))
    refine (Ends.mapM _ fun m hm => (ih (holds_of_mem_members hn hm)).mono (hsize hm)).bind ?_
    exact (Ends.mapM _ fun m hm => (readInterface_ends hg (holds_of_mem_members hn hm)).mono
      fun hle => Nat.le_succ_of_le (hsize hm hle)).bind (.ok _)

/-- **A namespace is read to the end**, with what it owns among its siblings. The induction is on
the limit, and the size of the site is what the limit has to exceed. -/
theorem readNamespace_ends (limit : Nat) (hs : t.nodes.Stands (s.node :: s.following)) :
    Ends s.size limit (c.readNamespace t limit s.node.id) (c.namespaceDecl t s) := by
  -- the size of a site has the siblings after it, so that it gets smaller on the way to them too
  induction limit generalizing s with
  | zero =>
    refine .overLimit ?_ _
    have hpos := s.node.size_pos
    unfold Site.size
    omega
  | succ limit ih =>
    have hsize : ∀ {accept : Classifier → String → Bool} {m : Site}, m ∈ c.within accept s →
        s.size ≤ limit + 1 → m.size ≤ limit := by
      intro accept m hm hle
      have hlt := size_lt_of_mem_within hm
      omega
    have hclass : ∀ m ∈ c.within Classifier.isClass s,
        Ends s.size (limit + 1) (c.readClass t limit m.node.id) (c.classDecl t m.node) :=
      fun m hm =>
        (readClass_ends hg limit (stands_of_mem_within hs hm).holds.1).mono fun hle =>
          Nat.le_trans (size_node_le m) (hsize hm hle)
    have hinterface : ∀ m ∈ c.within Classifier.isInterface s,
        Ends s.size (limit + 1) (c.readInterface t limit m.node.id) (c.interface t m.node) :=
      fun m hm =>
        (readInterface_ends hg (stands_of_mem_within hs hm).holds.1).mono fun hle =>
          Nat.le_succ_of_le (Nat.le_trans (size_node_le m) (hsize hm hle))
    have hspace : ∀ m ∈ c.within Classifier.isNamespace s,
        Ends s.size (limit + 1) (c.readNamespace t limit m.node.id) (c.namespaceDecl t m) :=
      fun m hm =>
        (ih (stands_of_mem_within hs hm)).mono (hsize hm)
    rw [readNamespace, namespaceDecl_eq]
    refine Ends.bind (.of_eq (hg.read_eq hs.holds.1)) ?_
    refine (readWithin_ends hg _ limit hs).bind ((Ends.mapM _ hclass).bind ?_)
    refine (readWithin_ends hg _ limit hs).bind ((Ends.mapM _ hinterface).bind ?_)
    exact (readWithin_ends hg _ limit hs).bind ((Ends.mapM _ hspace).bind (.ok _))

end Tree

/-! ## Units -/

section Unit

variable (hroot : t.nodes.Holds t.root) {limit : Nat}

include hroot

theorem readUnclaimed_ends (claimed : List NodeId) (accept : Classifier → String → Bool) :
    Ends t.root.size limit (c.readUnclaimed t.nodes claimed accept limit t.root.id)
      (((c.search accept claimed).inList t.root.children).map (·.node.id)) := by
  rw [readUnclaimed, Forest.children_eq hroot]
  refine (collect_ends _ _ limit (Forest.holdsAll_children hroot)).mono fun hle => ?_
  have hsize := t.root.size_eq
  omega

theorem stands_of_mem_below {q : Search} (hs : s ∈ q.inList t.root.children) :
    t.nodes.Stands (s.node :: s.following) :=
  .of_mem_inList _ (Forest.stands_children hroot) hs

variable (hg : t.nodes.Sound)

include hg

theorem readClaimed_ends :
    Ends t.root.size limit (c.readClaimed t.nodes limit t.root.id) (c.claimed t.root) := by
  refine (readUnclaimed_ends hroot [] _).bind ((Ends.mapM _ fun m hm => ?_).bind (.ok _))
  exact .of_eq (readFollowers_eq hg (stands_of_mem_below hroot hm))

/-- **A unit is read to the end**, if the limit is not below the number of nodes of the tree. Every
site below the root is smaller than the tree, even with the siblings after it. -/
theorem readUnit_ends (limit : Nat) : Ends t.root.size limit (c.readUnit t limit) (c.unit t) := by
  -- everything that the unit finds is smaller than its root, so one limit is enough for all of it
  have hsize : ∀ {q : Search} {m : Site}, m ∈ q.inList t.root.children → t.root.size ≤ limit →
      m.size ≤ limit :=
    fun hm hle => Nat.le_trans (Nat.le_of_lt (Search.size_lt_of_mem_children _ _ _ hm)) hle
  have hclass : ∀ m ∈ c.unclaimed Classifier.isClass t.root,
      Ends t.root.size limit (c.readClass t limit m.node.id) (c.classDecl t m.node) := fun m hm =>
    (readClass_ends hg limit (stands_of_mem_below hroot hm).holds.1).mono fun hle =>
      Nat.le_trans (size_node_le m) (hsize hm hle)
  have hinterface : ∀ m ∈ c.unclaimed Classifier.isInterface t.root,
      Ends t.root.size limit (c.readInterface t limit m.node.id) (c.interface t m.node) :=
    fun m hm =>
      (readInterface_ends hg (stands_of_mem_below hroot hm).holds.1).mono fun hle =>
        Nat.le_succ_of_le (Nat.le_trans (size_node_le m) (hsize hm hle))
  have hspace : ∀ m ∈ c.unclaimed Classifier.isNamespace t.root,
      Ends t.root.size limit (c.readNamespace t limit m.node.id) (c.namespaceDecl t m) :=
    fun m hm =>
      (readNamespace_ends hg limit (stands_of_mem_below hroot hm)).mono (hsize hm)
  have heach : ∀ {α : Type} (decl : SyntaxNode → α) (q : Search),
      Ends t.root.size limit (readEach t decl ((q.inList t.root.children).map (·.node.id)))
        ((q.inList t.root.children).map fun m => decl m.node) := by
    intro α decl q
    exact readEach_ends hg decl fun m hm => (stands_of_mem_below hroot hm).holds.1
  unfold readUnit
  -- what is claimed is settled first; then the five listings are read, in their order
  refine (readClaimed_ends hroot hg).bind ?_
  refine (readUnclaimed_ends hroot [] _).bind ((heach _ _).bind ?_)
  refine (readUnclaimed_ends hroot _ _).bind ((Ends.mapM _ hspace).bind ?_)
  refine (readUnclaimed_ends hroot _ _).bind ((Ends.mapM _ hclass).bind ?_)
  refine (readUnclaimed_ends hroot _ _).bind ((Ends.mapM _ hinterface).bind ?_)
  exact (readUnclaimed_ends hroot _ _).bind ((heach _ _).bind (.ok _))

end Unit

end Converter

end SyntaxForest
