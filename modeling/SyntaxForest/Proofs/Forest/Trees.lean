import SyntaxForest.Proofs.Declaration.Search
import SyntaxForest.Proofs.Forest.Links
import SyntaxForest.Tree.SyntaxTree

/-!
# The trees of a forest

A sound forest is made of trees: below every node hangs a finite tree, no node is in it twice, and
the walks with a bound on their steps go through all of it.

* **`Forest.Holds`** — a syntax tree that the forest holds, by recursion over the tree.
* **`Sound.exists_holds`** — below every node hangs a tree; the recursion goes down, and the walk up
  grows with every level.
* **`Sound.mem_ids_iff`**, **`Sound.nodup_ids`** — the tree has the nodes below its root, each once.
* **`Sound.descendants_eq`**, **`Sound.view?_eq`** — going through the descendants and viewing a
  tree reach the whole tree.
* **`SyntaxTree.make_eq`**, **`SyntaxTree.make_ok`**, **`SyntaxTree.nodup_ids_of_make`** — the
  syntax tree made of such a tree, and that its ids tell its nodes apart.
-/

namespace SyntaxForest

namespace SyntaxNode

mutual

theorem length_ids : ∀ n : SyntaxNode, n.ids.length = n.size
  | .node id info children => by
    rw [ids_node, size, List.length_cons, length_idsAll children]

theorem length_idsAll : ∀ nodes : List SyntaxNode, (idsAll nodes).length = sizeAll nodes
  | [] => rfl
  | n :: rest => by
    rw [idsAll_cons, sizeAll, List.length_append, length_ids n, length_idsAll rest]

end

end SyntaxNode

/-- The node as it was before it was frozen. -/
def Node.thawed (node : Node) : Node := { node with frozen := false }

namespace Forest

variable {f g : Forest} {a c d p x : NodeId}

/-! ## Below a node -/

/-- The first node is the second one, or below it. -/
def Under (f : Forest) (x a : NodeId) : Prop := ∃ l, f.Ascends x l ∧ a ∈ l

theorem Sound.under_self (hf : f.Sound) (x : NodeId) : f.Under x x := by
  obtain ⟨l, hl⟩ := hf.ascends x
  exact ⟨l, hl, List.mem_of_mem_head? hl.head?⟩

theorem Under.of_parent (hp : f.parent? x = some p) (h : f.Under p a) : f.Under x a := by
  obtain ⟨l, hl, ha⟩ := h
  exact ⟨_, .up hp hl, List.mem_cons_of_mem _ ha⟩

theorem Under.parent (hp : f.parent? c = some p) (h : f.Under x c) : f.Under x p := by
  obtain ⟨l, hl, hc⟩ := h
  obtain ⟨l', hl', hsuffix⟩ := hl.of_mem hc
  refine ⟨l, hl, hsuffix.subset ?_⟩
  cases hl' with
  | root hnone => simp [hp] at hnone
  | up hsome htail =>
    rw [hp, Option.some.injEq] at hsome
    exact List.mem_cons_of_mem _ (hsome ▸ List.mem_of_mem_head? htail.head?)

theorem Under.cases (h : f.Under x a) : x = a ∨ ∃ p, f.parent? x = some p ∧ f.Under p a := by
  obtain ⟨l, hl, ha⟩ := h
  cases hl with
  | root => exact Or.inl (List.mem_singleton.mp ha).symm
  | up hsome htail =>
    rcases List.mem_cons.mp ha with rfl | hrest
    · exact Or.inl rfl
    · exact Or.inr ⟨_, hsome, _, htail, hrest⟩

theorem not_under_child (hp : f.parent? c = some p) : ¬f.Under p c := by
  rintro ⟨l, hl, hc⟩
  exact (List.nodup_cons.mp (Ascends.up hp hl).nodup).1 hc

/-- A node is below one child of a node only: two walks of one length that end alike are the
same. -/
theorem eq_of_under_siblings (hc : f.parent? c = some p) (hd : f.parent? d = some p)
    (hxc : f.Under x c) (hxd : f.Under x d) : c = d := by
  obtain ⟨l, hl, hcl⟩ := hxc
  obtain ⟨l', hl', hdl⟩ := hxd
  -- there is one way up from the node, and both siblings are on it
  obtain rfl := hl.unique hl'
  obtain ⟨lc, hlc, hsuffixc⟩ := hl.of_mem hcl
  obtain ⟨ld, hld, hsuffixd⟩ := hl.of_mem hdl
  cases hlc with
  | root hnone => simp [hc] at hnone
  | @up _ q lp hsome htail =>
    cases hld with
    | root hnone => simp [hd] at hnone
    | @up _ q' lp' hsome' htail' =>
      rw [hc, Option.some.injEq] at hsome
      rw [hd, Option.some.injEq] at hsome'
      subst hsome hsome'
      -- after either of them it goes on with the way up from their parent
      obtain rfl := htail.unique htail'
      have hsuffix := List.suffix_of_suffix_length_le hsuffixc hsuffixd (Nat.le_refl _)
      exact (List.cons.inj (hsuffix.eq_of_length rfl)).1

/-! ## Trees that the forest holds -/

mutual

/-- The forest holds this tree: its nodes say the same and have the same children in the same
order. -/
def Holds (f : Forest) : SyntaxNode → Prop
  | .node id info children =>
    (∃ node, f.get? id = some node ∧ node.toNodeInfo = info
      ∧ node.children = children.map SyntaxNode.id) ∧ HoldsAll f children

def HoldsAll (f : Forest) : List SyntaxNode → Prop
  | [] => True
  | n :: rest => Holds f n ∧ HoldsAll f rest

end

theorem children_of_holds {id : NodeId} {info : NodeInfo} {children : List SyntaxNode}
    (h : f.Holds (.node id info children)) : f.children id = children.map SyntaxNode.id := by
  obtain ⟨⟨node, hnode, -, hchildren⟩, -⟩ := h
  exact (children_of_get? hnode).trans hchildren

theorem Holds.has {n : SyntaxNode} (h : f.Holds n) : f.Has n.id := by
  cases n with
  | node id info children =>
    obtain ⟨⟨node, hnode, -⟩, -⟩ := h
    exact has_of_get? hnode

mutual

theorem holds_of_mem_preorder {m : SyntaxNode} :
    ∀ n : SyntaxNode, f.Holds n → m ∈ n.preorder → f.Holds m
  | .node id info children, hn, hm => by
    rcases List.mem_cons.mp hm with rfl | hbelow
    · exact hn
    · exact holds_of_mem_preorderAll children hn.2 hbelow

theorem holds_of_mem_preorderAll {m : SyntaxNode} :
    ∀ nodes : List SyntaxNode, f.HoldsAll nodes → m ∈ SyntaxNode.preorderAll nodes → f.Holds m
  | [], _, hm => by cases hm
  | n :: rest, hn, hm => by
    rcases List.mem_append.mp hm with hfirst | hrest
    · exact holds_of_mem_preorder n hn.1 hfirst
    · exact holds_of_mem_preorderAll rest hn.2 hrest

end

/-! ### Every node has a tree -/

theorem exists_holdsAll {ids : List NodeId} (h : ∀ c ∈ ids, ∃ n, n.id = c ∧ f.Holds n) :
    ∃ nodes : List SyntaxNode, nodes.map SyntaxNode.id = ids ∧ f.HoldsAll nodes := by
  induction ids with
  | nil => exact ⟨[], rfl, trivial⟩
  | cons c rest ih =>
    obtain ⟨n, hid, hn⟩ := h c (by simp)
    obtain ⟨nodes, hids, hnodes⟩ := ih fun d hd => h d (by simp [hd])
    exact ⟨n :: nodes, by rw [List.map_cons, hid, hids], hn, hnodes⟩

/-- **Below every node hangs a tree.** -/
theorem Sound.exists_holds (hf : f.Sound) {id : NodeId} (hid : f.Has id) :
    ∃ n, n.id = id ∧ f.Holds n := by
  -- by induction on how much longer the walk up from the node could get
  induction hroom : f.size - (f.lineage id).length using Nat.strong_induction_on
    generalizing id with
  | _ room ih =>
    obtain ⟨node, hnode⟩ := hid.exists_get?
    have hchildren : ∀ c ∈ f.children id, ∃ n, n.id = c ∧ f.Holds n := by
      intro c hc
      have hhas := hf.has_child hc
      have hascent : f.Ascends c (c :: f.lineage id) :=
        .up ((hf.linked id c).mp hc) (hf.ascends_lineage hid)
      have hlonger : (f.lineage c).length = (f.lineage id).length + 1 :=
        congrArg List.length ((hf.ascends_lineage hhas).unique hascent)
      have hlength := hf.length_ascent_le hhas hascent
      rw [List.length_cons] at hlength
      exact ih (f.size - (f.lineage c).length) (by omega) hhas rfl
    -- the trees of the children make up the tree of the node
    obtain ⟨nodes, hids, hnodes⟩ := exists_holdsAll hchildren
    rw [children_of_get? hnode] at hids
    exact ⟨.node id node.toNodeInfo nodes, rfl, ⟨node, hnode, rfl, hids.symm⟩, hnodes⟩

/-! ### The nodes of a tree -/

mutual

theorem mem_ids_of_parent (hf : f.Sound) (hx : f.parent? x = some p) :
    ∀ n : SyntaxNode, f.Holds n → p ∈ n.ids → x ∈ n.ids
  | .node id info children, h, hp => by
    rw [SyntaxNode.ids_node, List.mem_cons] at hp ⊢
    rcases hp with rfl | hbelow
    · have hchild := (hf.linked p x).mpr hx
      rw [children_of_holds h] at hchild
      obtain ⟨m, hm, rfl⟩ := List.mem_map.mp hchild
      exact Or.inr (SyntaxNode.id_mem_idsAll hm)
    · exact Or.inr (mem_idsAll_of_parent hf hx children h.2 hbelow)

theorem mem_idsAll_of_parent (hf : f.Sound) (hx : f.parent? x = some p) :
    ∀ nodes : List SyntaxNode, f.HoldsAll nodes → p ∈ SyntaxNode.idsAll nodes →
      x ∈ SyntaxNode.idsAll nodes
  | [], _, hp => by simp at hp
  | n :: rest, h, hp => by
    rw [SyntaxNode.idsAll_cons, List.mem_append] at hp ⊢
    rcases hp with hn | hrest
    · exact Or.inl (mem_ids_of_parent hf hx n h.1 hn)
    · exact Or.inr (mem_idsAll_of_parent hf hx rest h.2 hrest)

end

mutual

theorem under_of_mem_ids (hf : f.Sound) :
    ∀ n : SyntaxNode, f.Holds n → x ∈ n.ids → f.Under x n.id
  | .node id info children, h, hx => by
    rw [SyntaxNode.ids_node, List.mem_cons] at hx
    rcases hx with rfl | hbelow
    · exact hf.under_self x
    · obtain ⟨m, hm, hunder⟩ := under_of_mem_idsAll hf children h.2 hbelow
      have hchild : m.id ∈ f.children id := by
        rw [children_of_holds h]
        exact List.mem_map.mpr ⟨m, hm, rfl⟩
      exact hunder.parent ((hf.linked id m.id).mp hchild)

theorem under_of_mem_idsAll (hf : f.Sound) :
    ∀ nodes : List SyntaxNode, f.HoldsAll nodes → x ∈ SyntaxNode.idsAll nodes →
      ∃ m ∈ nodes, f.Under x m.id
  | [], _, hx => by simp at hx
  | n :: rest, h, hx => by
    rw [SyntaxNode.idsAll_cons, List.mem_append] at hx
    rcases hx with hn | hrest
    · exact ⟨n, by simp, under_of_mem_ids hf n h.1 hn⟩
    · obtain ⟨m, hm, hunder⟩ := under_of_mem_idsAll hf rest h.2 hrest
      exact ⟨m, by simp [hm], hunder⟩

end

/-- A tree has just the nodes that are its root or below it. -/
theorem Sound.mem_ids_iff (hf : f.Sound) {n : SyntaxNode} (h : f.Holds n) :
    x ∈ n.ids ↔ f.Under x n.id := by
  refine ⟨under_of_mem_ids hf n h, ?_⟩
  rintro ⟨l, hl, hn⟩
  induction hl with
  | root =>
    rw [← List.mem_singleton.mp hn]
    exact n.id_mem_ids
  | up hsome _ ih =>
    rcases List.mem_cons.mp hn with heq | hrest
    · rw [← heq]
      exact n.id_mem_ids
    · exact mem_ids_of_parent hf hsome n h (ih hrest)

mutual

/-- No node is in a tree twice. -/
theorem Sound.nodup_ids (hf : f.Sound) : ∀ n : SyntaxNode, f.Holds n → n.ids.Nodup
  | .node id info children, h => by
    have hchildren := children_of_holds h
    have hparent : ∀ m ∈ children, f.parent? m.id = some id := fun m hm =>
      (hf.linked id m.id).mp (hchildren ▸ List.mem_map.mpr ⟨m, hm, rfl⟩)
    rw [SyntaxNode.ids_node, List.nodup_cons]
    refine ⟨fun hmem => ?_, nodup_idsAll hf id children h.2 hparent (hchildren ▸ hf.nodup id)⟩
    obtain ⟨m, hm, hunder⟩ := under_of_mem_idsAll hf children h.2 hmem
    exact not_under_child (hparent m hm) hunder

theorem Sound.nodup_idsAll (hf : f.Sound) (p : NodeId) :
    ∀ nodes : List SyntaxNode, f.HoldsAll nodes → (∀ m ∈ nodes, f.parent? m.id = some p) →
      (nodes.map SyntaxNode.id).Nodup → (SyntaxNode.idsAll nodes).Nodup
  | [], _, _, _ => List.nodup_nil
  | n :: rest, h, hparent, hids => by
    rw [List.map_cons, List.nodup_cons] at hids
    rw [SyntaxNode.idsAll_cons, List.nodup_append]
    refine ⟨nodup_ids hf n h.1,
      nodup_idsAll hf p rest h.2 (fun m hm => hparent m (by simp [hm])) hids.2, ?_⟩
    -- a node in two of the trees would be below two children of one node
    rintro x hn y hrest rfl
    obtain ⟨m, hm, hunder⟩ := under_of_mem_idsAll hf rest h.2 hrest
    have heq := eq_of_under_siblings (hparent n (by simp)) (hparent m (by simp [hm]))
      (under_of_mem_ids hf n h.1 hn) hunder
    exact hids.1 (heq ▸ List.mem_map.mpr ⟨m, hm, rfl⟩)

end

theorem Sound.has_of_mem_ids (hf : f.Sound) {n : SyntaxNode} (h : f.Holds n) (hx : x ∈ n.ids) :
    f.Has x := by
  rcases ((hf.mem_ids_iff h).mp hx).cases with rfl | ⟨p, hp, -⟩
  · exact h.has
  · exact has_of_parent? hp

theorem Sound.size_le (hf : f.Sound) {n : SyntaxNode} (h : f.Holds n) : n.size ≤ f.size := by
  rw [← n.length_ids]
  exact length_le_size (hf.nodup_ids n h) fun x => hf.has_of_mem_ids h

/-! ## Walks through a tree -/

mutual

theorem visit_of_holds (steps : Nat) (rest : List NodeId) :
    ∀ n : SyntaxNode, f.Holds n → f.visit (n.size + steps) (n.id :: rest)
      = n.ids ++ f.visit steps rest
  | .node id info children, h => by
    have hsteps : (SyntaxNode.node id info children).size + steps
        = SyntaxNode.sizeAll children + steps + 1 := by
      rw [SyntaxNode.size]
      omega
    rw [hsteps, visit, SyntaxNode.id, children_of_holds h,
      visit_of_holdsAll steps rest children h.2,
      SyntaxNode.ids_node, List.cons_append]

theorem visit_of_holdsAll (steps : Nat) (rest : List NodeId) :
    ∀ nodes : List SyntaxNode, f.HoldsAll nodes →
      f.visit (SyntaxNode.sizeAll nodes + steps) (nodes.map SyntaxNode.id ++ rest)
        = SyntaxNode.idsAll nodes ++ f.visit steps rest
  | [], _ => by simp [SyntaxNode.sizeAll]
  | n :: others, h => by
    rw [SyntaxNode.sizeAll, Nat.add_assoc, List.map_cons, List.cons_append,
      visit_of_holds _ _ n h.1, visit_of_holdsAll steps rest others h.2, SyntaxNode.idsAll_cons,
      List.append_assoc]

end

/-- **The descendants of a node are the rest of its tree**, in document order. -/
theorem Sound.descendants_eq (hf : f.Sound) {id : NodeId} {info : NodeInfo}
    {children : List SyntaxNode} (h : f.Holds (.node id info children)) :
    f.descendants id = SyntaxNode.idsAll children := by
  have hsize := hf.size_le h
  rw [SyntaxNode.size] at hsize
  -- more steps than there are nodes do no harm
  obtain ⟨steps, hsteps⟩ := Nat.exists_eq_add_of_le (Nat.le_of_succ_le hsize)
  have hvisit := visit_of_holdsAll steps [] children h.2
  have hend : f.visit steps [] = [] := by cases steps <;> rfl
  rw [hend, List.append_nil, List.append_nil] at hvisit
  rw [descendants, children_of_holds h, hsteps, hvisit]

theorem Sound.ids_eq (hf : f.Sound) {n : SyntaxNode} (h : f.Holds n) :
    n.ids = n.id :: f.descendants n.id := by
  cases n with
  | node id info children => rw [SyntaxNode.ids_node, SyntaxNode.id, hf.descendants_eq h]

theorem Sound.mem_descendants_iff (hf : f.Sound) (ha : f.Has a) :
    x ∈ a :: f.descendants a ↔ f.Under x a := by
  obtain ⟨n, rfl, hn⟩ := hf.exists_holds ha
  rw [← hf.mem_ids_iff hn, hf.ids_eq hn]

mutual

theorem viewFrom_of_holds :
    ∀ (n : SyntaxNode) (fuel : Nat), f.Holds n → 2 * n.size ≤ fuel + 1 →
      f.viewFrom fuel n.id = some n
  | .node id info children, fuel, h, hfuel => by
    -- one step for the node and one for each place in a list of children
    rw [SyntaxNode.size] at hfuel
    obtain ⟨⟨node, hnode, rfl, hchildren⟩, hbelow⟩ := h
    cases fuel with
    | zero => omega
    | succ fuel =>
      have hview := viewAll_of_holdsAll children fuel hbelow (by omega)
      simp only [viewFrom, SyntaxNode.id, hnode, hchildren, hview]

theorem viewAll_of_holdsAll :
    ∀ (nodes : List SyntaxNode) (fuel : Nat), f.HoldsAll nodes →
      2 * SyntaxNode.sizeAll nodes ≤ fuel → f.viewAll fuel (nodes.map SyntaxNode.id) = nodes
  | [], fuel, _, _ => by cases fuel <;> rfl
  | n :: rest, fuel, h, hfuel => by
    rw [SyntaxNode.sizeAll] at hfuel
    have hpos := n.size_pos
    cases fuel with
    | zero => omega
    | succ fuel =>
      rw [List.map_cons, viewAll, viewFrom_of_holds n fuel h.1 (by omega)]
      exact congrArg _ (viewAll_of_holdsAll rest fuel h.2 (by omega))

end

/-- **Viewing a node gives its tree.** -/
theorem Sound.view?_eq (hf : f.Sound) {n : SyntaxNode} (h : f.Holds n) : f.view? n.id = some n := by
  have hsize := hf.size_le h
  exact viewFrom_of_holds n _ h (by omega)

theorem exists_view? {id : NodeId} (h : f.Has id) : ∃ n, f.view? id = some n := by
  obtain ⟨node, hnode⟩ := h.exists_get?
  rw [view?, viewFrom, hnode]
  exact ⟨_, rfl⟩

theorem has_of_view? {id : NodeId} {n : SyntaxNode} (h : f.view? id = some n) : f.Has id := by
  rw [view?, viewFrom] at h
  split at h
  · rename_i node hnode
    exact has_of_get? hnode
  · cases h

/-! ## Freezing -/

/-- The same nodes, of which some may be frozen in one forest and not in the other. -/
def SameNodes (f g : Forest) : Prop :=
  ∀ id, (g.get? id).map Node.thawed = (f.get? id).map Node.thawed

namespace SameNodes

theorem sameLinks (h : SameNodes f g) : SameLinks f g := by
  intro id
  have heq : ∀ e : Forest, (e.get? id).map Node.links = ((e.get? id).map Node.thawed).map
      Node.links :=
    fun e => by
      rw [Option.map_map]
      rfl
  rw [heq, heq, h id]

theorem get? (h : SameNodes f g) {id : NodeId} {node : Node} (hnode : f.get? id = some node) :
    ∃ other, g.get? id = some other ∧ other.toNodeInfo = node.toNodeInfo
      ∧ other.children = node.children := by
  have hid := h id
  rw [hnode, Option.map_some, Option.map_eq_some_iff] at hid
  obtain ⟨other, hother, heq⟩ := hid
  have hsays : other.thawed.toNodeInfo = node.thawed.toNodeInfo := by rw [heq]
  have hchildren : other.thawed.children = node.thawed.children := by rw [heq]
  exact ⟨other, hother, hsays, hchildren⟩

mutual

theorem holds (h : SameNodes f g) : ∀ n : SyntaxNode, f.Holds n → g.Holds n
  | .node id info children, hn => by
    obtain ⟨⟨node, hnode, hinfo, hchildren⟩, hbelow⟩ := hn
    obtain ⟨other, hother, hsays, hhas⟩ := h.get? hnode
    exact ⟨⟨other, hother, hsays.trans hinfo, hhas.trans hchildren⟩, holdsAll h children hbelow⟩

theorem holdsAll (h : SameNodes f g) :
    ∀ nodes : List SyntaxNode, f.HoldsAll nodes → g.HoldsAll nodes
  | [], _ => trivial
  | n :: rest, hn => ⟨holds h n hn.1, holdsAll h rest hn.2⟩

end

end SameNodes

theorem sameNodes_freeze (f : Forest) (id : NodeId) : SameNodes f (f.freeze id) := by
  have hfold : ∀ (ids : List NodeId) (e : Forest), SameNodes f e →
      SameNodes f (ids.foldl (fun e n => e.modify n fun node => { node with frozen := true })
        e) := by
    intro ids
    induction ids with
    | nil => exact fun e he => he
    | cons n rest ih =>
      refine fun e he => ih _ fun x => ?_
      rw [get?_modify]
      split
      · rw [Option.map_map]
        exact he x
      · exact he x
  exact hfold _ f fun _ => rfl

end Forest

/-- A tree that a sound forest holds becomes the root of its syntax tree. -/
theorem SyntaxTree.make_eq {f : Forest} (hf : f.Sound) {n : SyntaxNode} (h : f.Holds n)
    {language : String} (hlanguage : language ≠ "") (source : String) (file : Option String) :
    SyntaxTree.make f (some n.id) (some source) (some language) file
      = .ok { nodes := f.freeze n.id, root := n, source, language, file } := by
  have hsame := f.sameNodes_freeze n.id
  have hview := (hf.sameLinks hsame.sameLinks).view?_eq (hsame.holds n h)
  rw [make]
  simp only [if_neg hlanguage, hview]

/-- Every syntax tree is made of a tree that its forest holds. -/
theorem SyntaxTree.make_ok {f : Forest} (hf : f.Sound) {root : Option NodeId}
    {source language file : Option String} {t : SyntaxTree}
    (h : SyntaxTree.make f root source language file = .ok t) :
    root = some t.root.id ∧ f.Holds t.root ∧ t.nodes = f.freeze t.root.id := by
  cases root with
  | none => cases h
  | some id =>
    cases source with
    | none => cases h
    | some source =>
      cases language with
      | none => cases h
      | some language =>
        have hlanguage : language ≠ "" := by
          rintro rfl
          cases h
        -- only a node that is there can be viewed
        have hid : f.Has id := by
          rw [make] at h
          simp only [if_neg hlanguage] at h
          split at h
          · rename_i view hview
            exact (f.sameNodes_freeze id).sameLinks.has_iff.mp (Forest.has_of_view? hview)
          · cases h
        obtain ⟨n, rfl, hn⟩ := hf.exists_holds hid
        cases h.symm.trans (make_eq hf hn hlanguage source file)
        exact ⟨rfl, hn, rfl⟩

/-- The nodes of a syntax tree have ids of their own. -/
theorem SyntaxTree.nodup_ids_of_make {f : Forest} (hf : f.Sound) {root : Option NodeId}
    {source language file : Option String} {t : SyntaxTree}
    (h : SyntaxTree.make f root source language file = .ok t) : t.root.ids.Nodup :=
  hf.nodup_ids _ (make_ok hf h).2.1

end SyntaxForest
