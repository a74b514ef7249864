import SyntaxForest.Native.Growth
import SyntaxForest.Proofs.Forest.Trees

/-!
# Growing a forest copies the native tree

A tree that is grown says node by node what the kept nodes of the native tree say, in their order.

* **`Scan.Copies`** — a syntax tree copies the kept part of a native tree.
* **`Scan.growStack_eq`** — working off the stack grows the trees on it one after another, each with
  all that is below it.
* **`Scan.grow_spec`** — one native node after another: a grown forest stays sound, holds a copy of
  the native tree under the next ids in document order, and leaves all other nodes as they were.
* **`Scan.grow_ok`** — growing fails only where a single node cannot be described.
* **`SyntaxTree.of_grown`**, **`SyntaxTree.exists_grown`**, **`SyntaxTree.exists_madeFrom_iff`** —
  the same for the syntax tree made of the grown forest.
-/

namespace SyntaxForest

/-! ## Copies -/

namespace NativeTree

mutual

/-- The native nodes that are kept, in document order; the root is always kept. -/
def kept (s : Scan) : NativeTree → List NativeTree
  | node info isName children => node info isName children :: keptAll s children

def keptAll (s : Scan) : List NativeTree → List NativeTree
  | [] => []
  | n :: rest => if s.keeps n.info then kept s n ++ keptAll s rest else keptAll s rest

end

mutual

/-- The native node and all below it, in document order. -/
def preorder : NativeTree → List NativeTree
  | node info isName children => node info isName children :: preorderAll children

def preorderAll : List NativeTree → List NativeTree
  | [] => []
  | n :: rest => preorder n ++ preorderAll rest

end

theorem self_mem_preorder (m : NativeTree) : m ∈ m.preorder := by
  cases m
  exact List.mem_cons_self

theorem mem_preorderAll {m c : NativeTree} {natives : List NativeTree} (hc : c ∈ natives)
    (hm : m ∈ c.preorder) : m ∈ preorderAll natives := by
  induction natives with
  | nil => cases hc
  | cons n rest ih =>
    rw [preorderAll, List.mem_append]
    rcases List.mem_cons.mp hc with rfl | hrest
    · exact Or.inl hm
    · exact Or.inr (ih hrest)

theorem preorder_subset_of_child {root c : NativeTree} (hc : c ∈ root.children) :
    c.preorder ⊆ root.preorder := by
  intro m hm
  cases root with
  | node info isName children => exact List.mem_cons_of_mem _ (mem_preorderAll hc hm)

mutual

theorem preorder_subset_of_mem_kept {s : Scan} {m : NativeTree} :
    ∀ {root : NativeTree}, m ∈ root.kept s → m.preorder ⊆ root.preorder
  | .node info isName children, hm => by
    rw [kept] at hm
    rcases List.mem_cons.mp hm with rfl | hbelow
    · exact List.Subset.refl _
    · exact List.subset_cons_of_subset _ (preorder_subset_of_mem_keptAll hbelow)

theorem preorder_subset_of_mem_keptAll {s : Scan} {m : NativeTree} :
    ∀ {natives : List NativeTree}, m ∈ keptAll s natives → m.preorder ⊆ preorderAll natives
  | n :: rest, hm => by
    rw [keptAll] at hm
    rw [preorderAll]
    split at hm
    · rcases List.mem_append.mp hm with hn | hlater
      · exact List.subset_append_of_subset_left _ (preorder_subset_of_mem_kept hn)
      · exact List.subset_append_of_subset_right _ (preorder_subset_of_mem_keptAll hlater)
    · exact List.subset_append_of_subset_right _ (preorder_subset_of_mem_keptAll hm)

end

end NativeTree

namespace Scan

/-- The native node can become a node: it has a kind, and all that the node says can be found
out. -/
def Describes (s : Scan) (m : NativeTree) : Prop :=
  m.info.kind ≠ "" ∧ ∃ made, s.nodeInfo m.info m.children = .ok made

mutual

/-- The tree has a node for every kept native node, saying what was found out about it. -/
def Copies (s : Scan) : NativeTree → SyntaxNode → Prop
  | .node info _ children, .node _ made nodes =>
    info.kind ≠ "" ∧ s.nodeInfo info children = .ok made ∧ CopiesAll s children nodes

def CopiesAll (s : Scan) : List NativeTree → List SyntaxNode → Prop
  | [], nodes => nodes = []
  | n :: rest, nodes =>
    if s.keeps n.info then ∃ m others, nodes = m :: others ∧ Copies s n m ∧ CopiesAll s rest others
    else CopiesAll s rest nodes

end

mutual

theorem Copies.forall₂ {s : Scan} :
    ∀ {native : NativeTree} {n : SyntaxNode}, s.Copies native n →
      List.Forall₂ (fun m n => s.Describes m ∧ s.nodeInfo m.info m.children = .ok n.info)
        (native.kept s) n.preorder
  | .node info isName children, .node id made nodes, h => by
    obtain ⟨hkind, hmade, hbelow⟩ := h
    rw [NativeTree.kept, SyntaxNode.preorder]
    exact .cons ⟨⟨hkind, made, hmade⟩, hmade⟩ hbelow.forall₂

theorem CopiesAll.forall₂ {s : Scan} :
    ∀ {natives : List NativeTree} {nodes : List SyntaxNode}, s.CopiesAll natives nodes →
      List.Forall₂ (fun m n => s.Describes m ∧ s.nodeInfo m.info m.children = .ok n.info)
        (NativeTree.keptAll s natives) (SyntaxNode.preorderAll nodes)
  | [], nodes, h => by
    rw [CopiesAll] at h
    subst h
    exact .nil
  | native :: rest, nodes, h => by
    rw [CopiesAll] at h
    rw [NativeTree.keptAll]
    split at h
    · obtain ⟨m, others, rfl, hm, hothers⟩ := h
      rw [if_pos ‹_›, SyntaxNode.preorderAll]
      exact List.rel_append hm.forall₂ hothers.forall₂
    · rw [if_neg ‹_›]
      exact CopiesAll.forall₂ h

end

theorem Copies.exists_native {s : Scan} {native : NativeTree} {root n : SyntaxNode}
    (h : s.Copies native root) (hn : n ∈ root.preorder) :
    ∃ m ∈ native.kept s, s.nodeInfo m.info m.children = .ok n.info := by
  have hall := h.forall₂
  generalize native.kept s = natives at hall ⊢
  generalize root.preorder = nodes at hall hn
  induction hall with
  | nil => cases hn
  | @cons m first _ _ hsays _ ih =>
    rcases List.mem_cons.mp hn with rfl | hlater
    · exact ⟨m, List.mem_cons_self, hsays.2⟩
    · obtain ⟨found, hfound, hmade⟩ := ih hlater
      exact ⟨found, List.mem_cons_of_mem _ hfound, hmade⟩

theorem CopiesAll.exists_copied {s : Scan} {natives : List NativeTree} {nodes : List SyntaxNode}
    (h : s.CopiesAll natives nodes) : ∀ n ∈ nodes, ∃ m ∈ natives, s.Copies m n := by
  induction natives generalizing nodes with
  | nil =>
    rw [CopiesAll] at h
    subst h
    simp
  | cons native rest ih =>
    intro n hn
    rw [CopiesAll] at h
    split at h
    · obtain ⟨first, others, rfl, hfirst, hothers⟩ := h
      rcases List.mem_cons.mp hn with rfl | hlater
      · exact ⟨native, List.mem_cons_self, hfirst⟩
      · obtain ⟨m, hm, hcopies⟩ := ih hothers n hlater
        exact ⟨m, List.mem_cons_of_mem _ hm, hcopies⟩
    · obtain ⟨m, hm, hcopies⟩ := ih h n hn
      exact ⟨m, List.mem_cons_of_mem _ hm, hcopies⟩

/-- The copies stand in the order of what they copy. So what holds of native siblings one after
another carries over, also with others between them left out. -/
theorem CopiesAll.pairwise {s : Scan} {R : NativeTree → NativeTree → Prop}
    {S : SyntaxNode → SyntaxNode → Prop} {natives : List NativeTree} {nodes : List SyntaxNode}
    (h : s.CopiesAll natives nodes) (hR : natives.Pairwise R)
    (hRS : ∀ a ∈ natives, ∀ b ∈ natives, R a b → ∀ m n, s.Copies a m → s.Copies b n → S m n) :
    nodes.Pairwise S := by
  induction natives generalizing nodes with
  | nil =>
    rw [CopiesAll] at h
    subst h
    exact .nil
  | cons native rest ih =>
    obtain ⟨hfirst, hrest⟩ := List.pairwise_cons.mp hR
    have hlater : ∀ a ∈ rest, ∀ b ∈ rest, R a b → ∀ m n, s.Copies a m → s.Copies b n → S m n :=
      fun a ha b hb => hRS a (List.mem_cons_of_mem _ ha) b (List.mem_cons_of_mem _ hb)
    rw [CopiesAll] at h
    split at h
    · obtain ⟨first, others, rfl, hcopies, hothers⟩ := h
      refine List.pairwise_cons.mpr ⟨fun n hn => ?_, ih hothers hrest hlater⟩
      -- each later node copies one of the later native nodes, to which the first one is related
      obtain ⟨b, hb, hcopied⟩ := hothers.exists_copied n hn
      exact hRS native List.mem_cons_self b (List.mem_cons_of_mem _ hb) (hfirst b hb)
        first n hcopies hcopied
    · exact ih h hrest hlater

end Scan

/-! ## What growing does to the other nodes -/

namespace Forest

variable {f g h : Forest} {id p : NodeId} {parent : Option NodeId} {ids ids' : List NodeId}

mutual

theorem Holds.congr : ∀ {n : SyntaxNode}, (∀ x ∈ n.ids, g.get? x = f.get? x) → f.Holds n → g.Holds n
  | .node id info children, hsame, ⟨⟨node, hnode, hsays⟩, hbelow⟩ => by
    rw [SyntaxNode.ids_node] at hsame
    exact ⟨⟨node, (hsame id List.mem_cons_self).trans hnode, hsays⟩,
      HoldsAll.congr (fun x hx => hsame x (List.mem_cons_of_mem _ hx)) hbelow⟩

theorem HoldsAll.congr : ∀ {nodes : List SyntaxNode},
    (∀ x ∈ SyntaxNode.idsAll nodes, g.get? x = f.get? x) → f.HoldsAll nodes → g.HoldsAll nodes
  | [], _, _ => trivial
  | n :: rest, hsame, ⟨hn, hrest⟩ => by
    rw [SyntaxNode.idsAll_cons] at hsame
    exact ⟨Holds.congr (fun x hx => hsame x (List.mem_append_left _ hx)) hn,
      HoldsAll.congr (fun x hx => hsame x (List.mem_append_right _ hx)) hrest⟩

end

/-- One node was given new children and new nodes were added; the others are as they were. -/
structure Grew (f g : Forest) (parent : Option NodeId) (ids : List NodeId) : Prop where
  sound : g.Sound
  size_le : f.size ≤ g.size
  others : ∀ x < f.size, parent ≠ some x → g.get? x = f.get? x
  parent : ∀ p, parent = some p →
    ∃ node, f.get? p = some node ∧ g.get? p = some { node with children := node.children ++ ids }

theorem Grew.refl (hf : f.Sound) (hp : f.Has p) : Grew f f (some p) [] where
  sound := hf
  size_le := Nat.le_refl _
  others _ _ _ := rfl
  parent q hq := by
    obtain ⟨node, hnode⟩ := hp.exists_get?
    cases hq
    exact ⟨node, hnode, by rw [hnode, List.append_nil]⟩

theorem Grew.trans (hfg : Grew f g parent ids) (hgh : Grew g h parent ids') :
    Grew f h parent (ids ++ ids') where
  sound := hgh.sound
  size_le := Nat.le_trans hfg.size_le hgh.size_le
  others x hx hne :=
    (hgh.others x (Nat.lt_of_lt_of_le hx hfg.size_le) hne).trans (hfg.others x hx hne)
  parent p hp := by
    obtain ⟨node, hnode, hgrown⟩ := hfg.parent p hp
    obtain ⟨node', hnode', hgrown'⟩ := hgh.parent p hp
    rw [hgrown, Option.some.injEq] at hnode'
    subst hnode'
    exact ⟨node, hnode, by rw [hgrown', List.append_assoc]⟩

theorem Grew.below (hfg : Grew f g parent ids) (hgh : Grew g h (some f.size) ids') :
    Grew f h parent ids where
  sound := hgh.sound
  size_le := Nat.le_trans hfg.size_le hgh.size_le
  others x hx hne := by
    have hnew : some f.size ≠ some x := fun heq => Nat.ne_of_gt hx (Option.some.inj heq)
    exact (hgh.others x (Nat.lt_of_lt_of_le hx hfg.size_le) hnew).trans (hfg.others x hx hne)
  parent p hp := by
    obtain ⟨node, hnode, hgrown⟩ := hfg.parent p hp
    have hlt : p < f.size := (has_of_get? hnode).lt_size
    have hnew : some f.size ≠ some p := fun heq => Nat.ne_of_gt hlt (Option.some.inj heq)
    exact ⟨node, hnode, (hgh.others p (Nat.lt_of_lt_of_le hlt hfg.size_le) hnew).trans hgrown⟩

end Forest

/-! ## Growing by recursion -/

namespace Scan

variable {s : Scan} {f g : Forest} {parent : Option NodeId}

mutual

/-- Makes the nodes of a native tree, and the nodes below each one before what follows it. -/
def grow (s : Scan) (f : Forest) (parent : Option NodeId) : NativeTree → Except Fault Forest
  | .node info _ children => do
    let (grown, id) ← s.sprout f parent info children
    growAll s grown id children

def growAll (s : Scan) (f : Forest) (parent : NodeId) : List NativeTree → Except Fault Forest
  | [] => .ok f
  | n :: rest => do
    let grown ← if s.keeps n.info then grow s f (some parent) n else .ok f
    growAll s grown parent rest

end

theorem growAll_eq_foldlM (p : NodeId) (natives : List NativeTree) :
    s.growAll f p natives = (s.entries p natives).foldlM (fun f e => s.grow f e.1 e.2) f := by
  induction natives generalizing f with
  | nil => rfl
  | cons n rest ih =>
    rw [growAll, entries_cons]
    split
    · rw [List.foldlM_cons]
      exact congrArg _ (funext fun grown => ih)
    · exact ih

theorem growStack_eq_foldlM (stack : List (Option NodeId × NativeTree)) :
    s.growStack f stack = stack.foldlM (fun f e => s.grow f e.1 e.2) f := by
  induction f, stack using growStack.induct s with
  | case1 f =>
    rw [growStack]
    rfl
  | case2 f parent info isName children rest fault hsprout =>
    rw [growStack, hsprout, List.foldlM_cons, grow, hsprout]
    rfl
  | case3 f parent info isName children rest grown id hsprout ih =>
    rw [growStack, hsprout, List.foldlM_cons, grow, hsprout]
    dsimp only
    rw [ih, List.foldlM_append, ← growAll_eq_foldlM]
    rfl

/-- **Growing with a stack is growing by recursion.** -/
theorem growStack_eq (native : NativeTree) :
    s.growStack f [(parent, native)] = s.grow f parent native := by
  rw [growStack_eq_foldlM, List.foldlM_cons]
  cases s.grow f parent native <;> rfl

/-! ## What growing makes -/

theorem kind_of_nodeInfo {info : NativeInfo} {children : List NativeTree} {made : NodeInfo}
    (h : s.nodeInfo info children = .ok made) : made.kind = info.kind := by
  obtain ⟨start, -, h⟩ := exists_ok_of_bind h
  obtain ⟨stop, -, h⟩ := exists_ok_of_bind h
  obtain ⟨name, -, h⟩ := exists_ok_of_bind h
  obtain ⟨span, -, h⟩ := exists_ok_of_bind h
  cases h
  rfl

/-- What making a single node comes to: it takes the next id and says what was found out, and its
parent, if it has one, gets it as its last child. -/
theorem sprout_spec {id : NodeId} {info : NativeInfo} {children : List NativeTree} (hf : f.Sound)
    (h : s.sprout f parent info children = .ok (g, id)) :
    info.kind ≠ "" ∧ id = f.size ∧ g.size = f.size + 1 ∧ f.Grew g parent [id]
      ∧ ∃ made, s.nodeInfo info children = .ok made ∧ g.get? id = some { made with parent } := by
  rw [sprout] at h
  obtain ⟨made, hmade, h⟩ := exists_ok_of_bind h
  obtain ⟨⟨grown, new⟩, hinsert, h⟩ := exists_ok_of_bind h
  replace hinsert := ok_of_mapError hinsert
  have hsound := hf.insert hinsert
  obtain ⟨hkind, rfl, hsize, hget⟩ := Forest.insert_ok hinsert
  have hnew : grown.get? f.size = some { made with } := by rw [hget, if_pos rfl]
  have hold : ∀ x < f.size, grown.get? x = f.get? x := fun x hx => by
    rw [hget, if_neg (Nat.ne_of_lt hx)]
  have hsize_le : f.size ≤ grown.size := hsize ▸ Nat.le_succ _
  refine ⟨kind_of_nodeInfo hmade ▸ hkind, ?_⟩
  -- the root is put in by itself, and any other node is then linked
  cases parent with
  | none =>
    cases h
    refine ⟨rfl, hsize, ⟨hsound, hsize_le, fun x hx _ => hold x hx, ?_⟩, made, hmade, hnew⟩
    intro p hp
    cases hp
  | some p =>
    obtain ⟨linked, hlinked, h⟩ := exists_ok_of_bind h
    replace hlinked := ok_of_mapError hlinked
    cases h
    have hsoundAfter := hsound.addChild hlinked
    obtain ⟨hp, -, -, hcycle, rfl⟩ := Forest.addChild_ok hlinked
    -- the parent was there before, since a node is on its own way up
    have hne : p ≠ f.size := by
      rintro rfl
      exact hcycle (List.mem_of_mem_head? (hsound.ascends_lineage hp).head?)
    have hlt : p < f.size :=
      Nat.lt_of_le_of_ne (Nat.le_of_lt_succ (Nat.lt_of_lt_of_eq hp.lt_size hsize)) hne
    obtain ⟨node, hnode⟩ := hp.exists_get?
    refine ⟨rfl, (Forest.size_link ..).trans hsize, ⟨hsoundAfter, ?_, ?_, ?_⟩, made, hmade, ?_⟩
    · rwa [Forest.size_link]
    · intro x hx hother
      rw [Forest.get?_link hne, if_neg (fun heq => hother (congrArg some heq)),
        if_neg (Nat.ne_of_gt hx),
        hold x hx]
    · intro q hq
      cases hq
      exact ⟨node, (hold p hlt).symm.trans hnode,
        by rw [Forest.get?_link hne, if_pos rfl, hnode]; rfl⟩
    · rw [Forest.get?_link hne, if_neg hne, if_pos rfl, hnew]
      rfl

theorem id_of_ids {native : NativeTree} {n : SyntaxNode} {first : NodeId}
    (h : n.ids = List.range' first (native.kept s).length) : n.id = first := by
  cases native with
  | node info isName children =>
    cases n with
    | node id made nodes =>
      rw [SyntaxNode.ids_node, NativeTree.kept, List.length_cons, List.range'_succ] at h
      exact (List.cons.inj h).1

mutual

/-- A grown forest holds a copy of the native tree, under the next ids. -/
theorem grow_spec :
    ∀ (native : NativeTree) {f g : Forest} {parent : Option NodeId}, f.Sound →
      s.grow f parent native = .ok g →
      f.Grew g parent [f.size] ∧ g.size = f.size + (native.kept s).length
        ∧ ∃ n : SyntaxNode, n.ids = List.range' f.size (native.kept s).length
          ∧ s.Copies native n ∧ g.Holds n
  | .node info isName children, f, g, parent, hf, h => by
    rw [grow] at h
    obtain ⟨⟨grown, id⟩, hsprout, h⟩ := exists_ok_of_bind h
    obtain ⟨hkind, rfl, hone, hgrew, made, hmade, hnew⟩ := sprout_spec hf hsprout
    obtain ⟨nodes, hbelow, hsize, hids, hcopies, hholds⟩ :=
      growAll_spec children hgrew.sound (Forest.has_of_get? hnew) h
    -- the children grow below the new node, which is the only node they change
    refine ⟨hgrew.below hbelow, ?_, .node f.size made nodes, ?_, ⟨hkind, hmade, hcopies⟩,
      ?_, hholds⟩
    · rw [NativeTree.kept, List.length_cons, hsize, hone]
      omega
    · rw [SyntaxNode.ids_node, hids, hone, NativeTree.kept, List.length_cons, List.range'_succ]
    · obtain ⟨node, hnode, hafter⟩ := hbelow.parent f.size rfl
      rw [hnew, Option.some.injEq] at hnode
      subst hnode
      exact ⟨_, hafter, rfl, rfl⟩

theorem growAll_spec :
    ∀ (natives : List NativeTree) {f g : Forest} {p : NodeId}, f.Sound → f.Has p →
      s.growAll f p natives = .ok g →
      ∃ nodes : List SyntaxNode, f.Grew g (some p) (nodes.map SyntaxNode.id)
        ∧ g.size = f.size + (NativeTree.keptAll s natives).length
        ∧ SyntaxNode.idsAll nodes = List.range' f.size (NativeTree.keptAll s natives).length
        ∧ s.CopiesAll natives nodes ∧ g.HoldsAll nodes
  | [], f, g, p, hf, hp, h => by
    cases h
    exact ⟨[], .refl hf hp, rfl, rfl, rfl, trivial⟩
  | native :: rest, f, g, p, hf, hp, h => by
    rw [growAll] at h
    by_cases hkeep : s.keeps native.info = true
    · rw [if_pos hkeep] at h
      obtain ⟨grown, hgrown, h⟩ := exists_ok_of_bind h
      obtain ⟨hgrew, hsize, n, hids, hcopies, hholds⟩ := grow_spec native hf hgrown
      obtain ⟨node, -, hparent⟩ := hgrew.parent p rfl
      obtain ⟨nodes, hlater, hsizeLater, hidsLater, hcopiesLater, hholdsLater⟩ :=
        growAll_spec rest hgrew.sound (Forest.has_of_get? hparent) h
      refine ⟨n :: nodes, ?_, ?_, ?_, ?_, ?_, hholdsLater⟩
      · rw [List.map_cons, id_of_ids hids, ← List.singleton_append]
        exact hgrew.trans hlater
      · rw [NativeTree.keptAll, if_pos hkeep, List.length_append, hsizeLater, hsize, Nat.add_assoc]
      · rw [SyntaxNode.idsAll_cons, hids, hidsLater, hsize, NativeTree.keptAll, if_pos hkeep,
          List.length_append, List.range'_append_1]
      · rw [CopiesAll, if_pos hkeep]
        exact ⟨n, nodes, rfl, hcopies, hcopiesLater⟩
      · -- what grows later leaves the new tree alone, its ids being new and the parent's old
        refine hholds.congr fun x hx => hlater.others x ?_ ?_
        · exact (hgrew.sound.has_of_mem_ids hholds hx).lt_size
        · rintro ⟨⟩
          rw [hids, List.mem_range'_1] at hx
          exact absurd hx.1 (Nat.not_le.mpr hp.lt_size)
    -- nothing grows from a native node that is not kept
    · rw [if_neg hkeep] at h
      obtain ⟨nodes, hgrew, hsize, hids, hcopies, hholds⟩ := growAll_spec rest hf hp h
      refine ⟨nodes, hgrew, ?_, ?_, ?_, hholds⟩
      · rwa [NativeTree.keptAll, if_neg hkeep]
      · rwa [NativeTree.keptAll, if_neg hkeep]
      · rwa [CopiesAll, if_neg hkeep]

end

/-! ## Growing succeeds -/

/-- A node can be made if the native node can be described and its parent is there and open. -/
theorem sprout_ok {info : NativeInfo} {children : List NativeTree} (hf : f.Sound)
    (hparent : ∀ p, parent = some p → ∃ node, f.get? p = some node ∧ node.frozen = false)
    (hkind : info.kind ≠ "") {made : NodeInfo} (hmade : s.nodeInfo info children = .ok made) :
    ∃ g id, s.sprout f parent info children = .ok (g, id) := by
  have hinsert : ∃ grown, f.insert made = .ok (grown, f.size) := by
    rw [Forest.insert, if_neg (kind_of_nodeInfo hmade ▸ hkind)]
    exact ⟨_, rfl⟩
  obtain ⟨grown, hinsert⟩ := hinsert
  have hsound := hf.insert hinsert
  obtain ⟨-, -, -, hget⟩ := Forest.insert_ok hinsert
  cases parent with
  | none =>
    exact ⟨grown, f.size,
      by simp only [sprout, hmade, hinsert, bind, Except.bind, Except.mapError]; rfl⟩
  | some p =>
    obtain ⟨node, hnode, hopen⟩ := hparent p rfl
    have hne : p ≠ f.size := Nat.ne_of_lt (Forest.has_of_get? hnode).lt_size
    have hp : grown.get? p = some node := by rw [hget, if_neg hne, hnode]
    have hnew : grown.get? f.size = some { made with } := by rw [hget, if_pos rfl]
    -- the new node has no children, so nothing is below it
    have hcycle : f.size ∉ grown.lineage p :=
      hsound.not_mem_lineage (Forest.has_of_get? hp) hne.symm (Forest.children_of_get? hnew)
    have hlink := Forest.addChild_eq hp hopen hnew rfl hcycle
    exact ⟨grown.link p f.size, f.size, by
      simp only [sprout, hmade, hinsert, hlink, bind, Except.bind, Except.mapError]; rfl⟩

mutual

/-- **Growing succeeds if all kept native nodes can be described.** -/
theorem grow_ok :
    ∀ (native : NativeTree) {f : Forest} (parent : Option NodeId), f.Sound →
      (∀ p, parent = some p → ∃ node, f.get? p = some node ∧ node.frozen = false) →
      (∀ m ∈ native.kept s, s.Describes m) → ∃ g, s.grow f parent native = .ok g
  | .node info isName children, f, parent, hf, hparent, h => by
    rw [NativeTree.kept, List.forall_mem_cons] at h
    obtain ⟨⟨hkind, made, hmade⟩, hbelow⟩ := h
    obtain ⟨grown, id, hsprout⟩ := sprout_ok hf hparent hkind hmade
    obtain ⟨-, -, -, hgrew, made', -, hnew⟩ := sprout_spec hf hsprout
    change s.sprout f parent info children = .ok (grown, id) at hsprout
    rw [grow, hsprout]
    exact growAll_ok children hgrew.sound ⟨_, hnew, rfl⟩ hbelow

theorem growAll_ok :
    ∀ (natives : List NativeTree) {f : Forest} {p : NodeId}, f.Sound →
      (∃ node, f.get? p = some node ∧ node.frozen = false) →
      (∀ m ∈ NativeTree.keptAll s natives, s.Describes m) → ∃ g, s.growAll f p natives = .ok g
  | [], f, p, _, _, _ => ⟨f, rfl⟩
  | native :: rest, f, p, hf, hp, h => by
    rw [growAll]
    rw [NativeTree.keptAll] at h
    by_cases hkeep : s.keeps native.info = true
    · rw [if_pos hkeep] at h ⊢
      rw [List.forall_mem_append] at h
      obtain ⟨node, hnode, hopen⟩ := hp
      obtain ⟨grown, hgrown⟩ := grow_ok native (some p) hf
        (fun q hq => Option.some.inj hq ▸ ⟨node, hnode, hopen⟩) h.1
      obtain ⟨hgrew, -⟩ := grow_spec native hf hgrown
      -- the parent has one child more and is not frozen, so it takes the others in too
      obtain ⟨before, hbefore, hafter⟩ := hgrew.parent p rfl
      rw [hnode, Option.some.injEq] at hbefore
      subst hbefore
      rw [hgrown]
      exact growAll_ok rest hgrew.sound ⟨_, hafter, hopen⟩ h.2
    · rw [if_neg hkeep] at h ⊢
      exact growAll_ok rest hf hp h

end

end Scan

/-! ## The syntax tree of a native tree -/

namespace SyntaxTree

/-- The tree was made of the forest grown from a native tree. -/
def MadeFrom (t : SyntaxTree) (settings : GrowthSettings) (source : String) (root : NativeTree) :
    Prop :=
  ∃ forest language file, (NativeReply.tree (some root)).forest settings source = .ok forest
    ∧ SyntaxTree.make forest (some 0) (some source) (some language) file = .ok t

variable {t : SyntaxTree} {settings : GrowthSettings} {source : String} {root : NativeTree}

/-- A syntax tree of a grown forest is a copy whose nodes are numbered in document order. -/
theorem of_grown {forest : Forest} {language : String} {file : Option String}
    (hforest : (NativeReply.tree (some root)).forest settings source = .ok forest)
    (hmake : SyntaxTree.make forest (some 0) (some source) (some language) file = .ok t) :
    t = { nodes := forest.freeze 0, root := t.root, source, language, file }
      ∧ (Scan.ofSource settings source).Copies root t.root
      ∧ t.root.ids = List.range' 0 (root.kept (Scan.ofSource settings source)).length := by
  obtain ⟨hgrew, -, n, hids, hcopies, hholds⟩ :=
    Scan.grow_spec root Forest.Sound.empty ((Scan.growStack_eq root).symm.trans hforest)
  have hlanguage : language ≠ "" := by
    rintro rfl
    cases hmake
  have heq := make_eq hgrew.sound hholds hlanguage source file
  rw [Scan.id_of_ids hids] at heq
  cases hmake.symm.trans heq
  exact ⟨rfl, hcopies, hids⟩

/-- Growing succeeds, and a syntax tree can be made, if every kept native node can be described. -/
theorem exists_grown {language : String} (hlanguage : language ≠ "") (file : Option String)
    (h : ∀ m ∈ root.kept (Scan.ofSource settings source),
      (Scan.ofSource settings source).Describes m) :
    ∃ forest t, (NativeReply.tree (some root)).forest settings source = .ok forest
      ∧ SyntaxTree.make forest (some 0) (some source) (some language) file = .ok t := by
  obtain ⟨forest, hforest⟩ := Scan.grow_ok root none Forest.Sound.empty (fun p hp => by cases hp) h
  obtain ⟨hgrew, -, n, hids, -, hholds⟩ := Scan.grow_spec root Forest.Sound.empty hforest
  have hmake := make_eq hgrew.sound hholds hlanguage source file
  rw [Scan.id_of_ids hids] at hmake
  exact ⟨forest, _, (Scan.growStack_eq root).trans hforest, hmake⟩

theorem MadeFrom.copies (h : t.MadeFrom settings source root) :
    t.source = source ∧ (Scan.ofSource settings source).Copies root t.root := by
  obtain ⟨forest, language, file, hforest, hmake⟩ := h
  obtain ⟨heq, hcopies, -⟩ := of_grown hforest hmake
  exact ⟨by rw [heq], hcopies⟩

/-- **A tree can be made just if all kept native nodes can be described.** -/
theorem exists_madeFrom_iff :
    (∃ t, MadeFrom t settings source root)
      ↔ ∀ m ∈ root.kept (Scan.ofSource settings source),
        (Scan.ofSource settings source).Describes m := by
  constructor
  · rintro ⟨t, ht⟩
    exact ((List.forall₂_and_left _ _).mp ht.copies.2.forall₂).1
  · intro h
    obtain ⟨forest, t, hforest, hmake⟩ := exists_grown (show "native" ≠ "" by decide) none h
    exact ⟨t, forest, "native", none, hforest, hmake⟩

end SyntaxTree

end SyntaxForest
