import SyntaxForest.Proofs.Tree.Frozen

/-!
# Where the nodes of a syntax tree stand

The nodes of a syntax tree are frozen, so none of them takes in a child or lets one go. But a frozen
node can still be added to another one, since only the new parent is asked whether it may change.
The nodes of the tree below the root have parents already, and are refused. So the tree moves as a
whole, and it moves when its root is added.

* **`Forest.parent?_eq_of_holds`**, **`Forest.ascends_of_holds`** — two forests that hold one tree
  agree on its links, and a walk up to its root goes on from there as each forest has it.
* **`Edit.parent?_eq_none`**, **`parent?_eq_none_of_spared`** — a node without a parent gets one by
  being added, and by nothing else, in one edit and in a run.
* **`SyntaxTree.Rigid`**, **`SyntaxTree.InPlace`** — the tree may have moved as a whole, or not at
  all.
* **`SyntaxTree.in_place_iff_spared`** — for every run of edits, whatever nodes they are asked of.
-/

namespace SyntaxForest

namespace Forest

/-! ## One tree in two forests -/

section Both

variable {f g : Forest} (hf : f.Sound) (hg : g.Sound) {n : SyntaxNode} (hn : f.Holds n)
  (hn' : g.Holds n) {x : NodeId} (hx : x ∈ n.ids)

include hn hn' hx in
theorem children_eq_of_holds : g.children x = f.children x := by
  obtain ⟨m, hm, rfl⟩ := List.mem_map.mp hx
  have hleft := holds_of_mem_preorder n hn hm
  have hright := holds_of_mem_preorder n hn' hm
  cases m with
  | node id info children => exact (children_of_holds hright).trans (children_of_holds hleft).symm

include hf hn hx in
theorem parent?_mem_ids (hne : x ≠ n.id) : ∃ p ∈ n.ids, f.parent? x = some p := by
  rcases ((hf.mem_ids_iff hn).mp hx).cases with heq | ⟨p, hp, hunder⟩
  · exact absurd heq hne
  · exact ⟨p, (hf.mem_ids_iff hn).mpr hunder, hp⟩

include hf hg hn hn' hx in
theorem parent?_eq_of_holds (hne : x ≠ n.id) : g.parent? x = f.parent? x := by
  obtain ⟨p, hmem, hp⟩ := parent?_mem_ids hf hn hx hne
  rw [hp, ← hg.linked, children_eq_of_holds hn hn' hmem, hf.linked]
  exact hp

include hf hg hn hn' hx in
/-- A walk up that ends at the root of the tree in one forest goes on, in the other, as the walk
from the root does. -/
theorem ascends_of_holds (hroot : f.parent? n.id = none) {l above : List NodeId}
    (hl : f.Ascends x l) (habove : g.Ascends n.id above) : g.Ascends x (l.dropLast ++ above) := by
  induction hl with
  | @root x hnone =>
    -- of the nodes of the tree only its root has no parent
    by_cases heq : x = n.id
    · exact heq ▸ habove
    · obtain ⟨p, -, hp⟩ := parent?_mem_ids hf hn hx heq
      rw [hnone] at hp
      cases hp
  | @up x q l hsome htail ih =>
    have hne : x ≠ n.id := by
      rintro rfl
      rw [hroot] at hsome
      cases hsome
    -- the parent is in the tree too, and the other forest has the same one
    obtain ⟨p, hmem, hp⟩ := parent?_mem_ids hf hn hx hne
    obtain rfl : p = q := Option.some.inj (hp.symm.trans hsome)
    have hparent : g.parent? x = some p := (parent?_eq_of_holds hf hg hn hn' hx hne).trans hsome
    have hne : l ≠ [] := by
      rintro rfl
      cases htail
    rw [List.dropLast_cons_of_ne_nil hne, List.cons_append]
    exact .up hparent (ih hmem)

include hf hg hn hn' hx in
theorem lineage_eq_of_holds (hroot : f.parent? n.id = none) :
    g.lineage x = (f.lineage x).dropLast ++ g.lineage n.id :=
  (hg.ascends_lineage (hg.has_of_mem_ids hn' hx)).unique
    (ascends_of_holds hf hg hn hn' hx hroot (hf.ascends_lineage (hf.has_of_mem_ids hn hx))
      (hg.ascends_lineage hn'.has))

end Both

/-! ## Getting a parent -/

variable {f g : Forest} {id : NodeId}

/-- **A node without a parent gets one by being added**, and by nothing else. Each kind of edit is
looked at for the links upwards that it makes: all but adding a child make none. -/
theorem Edit.parent?_eq_none (hf : f.Sound) (h : Edit f g) (hnone : f.parent? id = none)
    (hspared : ∀ p, f.addChild p id ≠ .ok g) : g.parent? id = none := by
  cases h with
  | insert h =>
    obtain ⟨-, rfl, -, hget⟩ := insert_ok h
    rw [parent?, hget]
    split
    · rfl
    · exact hnone
  | update h hlinks hfrozen => exact ((SameLinks.update h hlinks).parent? id).trans hnone
  | @addChild _ p c h =>
    have hne : c ≠ id := by
      rintro rfl
      exact hspared p h
    obtain ⟨-, hc, -, -, rfl⟩ := addChild_ok h
    rw [parent?_link hc, if_neg hne]
    exact hnone
  | removeChild h =>
    rcases removeChild_ok h with rfl | ⟨-, rfl⟩
    · exact hnone
    · rw [parent?_unlink]
      split
      · rfl
      · exact hnone
  | freeze h => exact ((f.sameNodes_freeze _).sameLinks.parent? id).trans hnone
  | sweep h =>
    -- forgetting cuts links and makes none
    refine Option.eq_none_iff_forall_ne_some.mpr fun p hp => ?_
    rw [hf.parent?_sweep h, hnone] at hp
    cases hp.1

theorem parent?_of_addChild_ok {p : NodeId} (h : f.addChild p id = .ok g) :
    g.parent? id = some p := by
  obtain ⟨-, hid, -, -, rfl⟩ := addChild_ok h
  rw [parent?_link hid, if_pos rfl]

/-- In a run of edits none of which adds the node, it has no parent at any time. -/
theorem parent?_eq_none_of_spared {run : List Forest} (hf : f.Sound) (hnone : f.parent? id = none)
    (hrun : (f :: run).IsChain Edit)
    (hspared : (f :: run).IsChain fun g g' => ∀ p, g.addChild p id ≠ .ok g') :
    ∀ g ∈ run, g.parent? id = none := by
  induction run generalizing f with
  | nil => exact fun g hg => by cases hg
  | cons next rest ih =>
    obtain ⟨hedit, hrun⟩ := List.isChain_cons_cons.mp hrun
    obtain ⟨hspare, hspared⟩ := List.isChain_cons_cons.mp hspared
    have hnext := hedit.parent?_eq_none hf hnone hspare
    exact List.forall_mem_cons.mpr ⟨hnext, ih (hf.edit hedit) hnext hrun hspared⟩

end Forest

/-! ## Standing in a later forest -/

namespace SyntaxTree

/-- In the forest the nodes of the tree stand to each other as they did when it was made: the paths
that began at the root go on from where the root is now. -/
structure Rigid (t : SyntaxTree) (g : Forest) : Prop where
  parent : ∀ n ∈ t.allNodes, n.id ≠ t.root.id → g.parent? n.id = t.nodes.parent? n.id
  path : ∀ n ∈ t.allNodes, g.path n.id = g.path t.root.id ++ (t.nodes.path n.id).tail
  depth : ∀ n ∈ t.allNodes, g.depth n.id = g.depth t.root.id + t.nodes.depth n.id

/-- In the forest the nodes of the tree stand just where they did when it was made. -/
structure InPlace (t : SyntaxTree) (g : Forest) : Prop where
  parent : ∀ n ∈ t.allNodes, g.parent? n.id = t.nodes.parent? n.id
  path : ∀ n ∈ t.allNodes, g.path n.id = t.nodes.path n.id
  depth : ∀ n ∈ t.allNodes, g.depth n.id = t.nodes.depth n.id

/-- The tree was made of a node without a parent. -/
structure Rooted (t : SyntaxTree) : Prop where
  sound : t.nodes.Sound
  holds : t.nodes.Holds t.root
  frozen : ∀ x ∈ t.root.ids, t.nodes.isFrozen x = true
  root : t.nodes.parent? t.root.id = none

theorem rooted_of_make {f : Forest} (hf : f.Sound) {id : NodeId}
    {source language file : Option String} {t : SyntaxTree}
    (hmake : make f (some id) source language file = .ok t) (hroot : f.parent? id = none) :
    t.root.id = id ∧ t.Rooted := by
  obtain ⟨hid, hholds, hnodes⟩ := make_ok hf hmake
  cases hid
  have hsame := f.sameNodes_freeze t.root.id
  refine ⟨rfl, ?_, ?_, ?_, ?_⟩
  · exact hnodes ▸ hf.sameLinks hsame.sameLinks
  · exact hnodes ▸ hsame.holds t.root hholds
  · intro x hx
    rw [hnodes, hf.isFrozen_freeze hholds.has]
    exact Or.inr ((hf.mem_ids_iff hholds).mp hx)
  · rw [hnodes, hsame.sameLinks.parent?]
    exact hroot

namespace Rooted

variable {t : SyntaxTree} {g : Forest} (h : t.Rooted)

include h

theorem head?_path {n : SyntaxNode} (hn : n ∈ t.allNodes) :
    (t.nodes.path n.id).head? = some t.root.id := by
  have hlineage := Forest.lineage_eq_of_holds h.sound h.sound h.holds h.holds
    (List.mem_map_of_mem hn) h.root
  have hroot := (h.sound.ascends_lineage h.holds.has).unique (.root h.root)
  rw [Forest.path, List.head?_reverse, hlineage, hroot, List.getLast?_concat]

theorem rigid (hedits : Forest.Edits t.nodes g) (hid : g.Has t.root.id) : t.Rigid g := by
  have hg := hedits.sound h.sound
  have hholds := hedits.preserves.holds hg t.root h.holds h.frozen hid
  have hlineage : ∀ n ∈ t.allNodes,
      g.lineage n.id = (t.nodes.lineage n.id).dropLast ++ g.lineage t.root.id := fun n hn =>
    Forest.lineage_eq_of_holds h.sound hg h.holds hholds (List.mem_map_of_mem hn) h.root
  refine ⟨fun n hn hne => ?_, fun n hn => ?_, fun n hn => ?_⟩
  · exact Forest.parent?_eq_of_holds h.sound hg h.holds hholds (List.mem_map_of_mem hn) hne
  · rw [Forest.path, Forest.path, Forest.path, hlineage n hn, List.reverse_append,
      List.tail_reverse]
  · have hnow := hg.depth_lineage (hg.has_of_mem_ids hholds (List.mem_map_of_mem hn))
    have hthen := h.sound.depth_lineage (h.sound.has_of_mem_ids h.holds (List.mem_map_of_mem hn))
    have habove := hg.depth_lineage hid
    rw [hlineage n hn, List.length_append, List.length_dropLast] at hnow
    omega

/-- The tree is in place just as long as its root has no parent. The paths below the root are rigid,
so that only the way above it can change. -/
theorem inPlace_iff (hedits : Forest.Edits t.nodes g) (hid : g.Has t.root.id) :
    t.InPlace g ↔ g.parent? t.root.id = none := by
  have hrigid := h.rigid hedits hid
  constructor
  · exact fun hplace => (hplace.parent t.root t.root.self_mem_preorder).trans h.root
  · intro hnone
    have hpath : g.path t.root.id = [t.root.id] := by
      rw [Forest.path, ((hedits.sound h.sound).ascends_lineage hid).unique (.root hnone)]
      rfl
    have hdepth : g.depth t.root.id = 0 := by
      have hlength := (hedits.sound h.sound).depth_lineage hid
      rw [((hedits.sound h.sound).ascends_lineage hid).unique (.root hnone)] at hlength
      exact Nat.succ.inj hlength
    refine ⟨fun n hn => ?_, fun n hn => ?_, fun n hn => ?_⟩
    · by_cases heq : n.id = t.root.id
      · rw [heq, hnone, h.root]
      · exact hrigid.parent n hn heq
    · have hhead := h.head?_path hn
      rw [hrigid.path n hn, hpath]
      exact List.cons_head?_tail hhead
    · rw [hrigid.depth n hn, hdepth, Nat.zero_add]

end Rooted

/-- **The nodes of a syntax tree stay where they are until its root is added to another node.** Take
a tree that was made of a node without a parent, and any run of edits after that, asked of whatever
nodes, in which the root is not forgotten. When the tree was made, the paths of its nodes began at
its root. At any time of the run its nodes stand to each other as they did then. And they stand
where they did, with the same parents, paths and depths, all through the run just if no edit of it
adds the root to a node. -/
theorem in_place_iff_spared {f : Forest} (hf : f.Sound) {id : NodeId}
    {source language file : Option String} {t : SyntaxTree}
    (hmake : make f (some id) source language file = .ok t) (hroot : f.parent? id = none)
    {run : List Forest} (hrun : (t.nodes :: run).IsChain Forest.Edit)
    (hkept : ∀ g ∈ run, g.Has id) :
    (∀ n ∈ t.allNodes, (t.nodes.path n.id).head? = some id)
      ∧ (∀ g ∈ run, t.Rigid g)
      ∧ ((∀ g ∈ run, t.InPlace g)
          ↔ (t.nodes :: run).IsChain fun g g' => ∀ p, g.addChild p id ≠ .ok g') := by
  obtain ⟨rfl, h⟩ := rooted_of_make hf hmake hroot
  have hedits : ∀ g ∈ run, Forest.Edits t.nodes g :=
    List.IsChain.cons_induction (Forest.Edits t.nodes) run hrun
      (fun _ _ hedit hbefore => hbefore.tail hedit) .refl
  refine ⟨fun n hn => h.head?_path hn, fun g hg => h.rigid (hedits g hg) (hkept g hg), ?_, ?_⟩
  · intro hplace
    -- an edit that adds the root gives it a parent, and the tree is not in place then
    refine hrun.imp_of_mem_tail_imp fun g g' _ hg' _ p hadd => ?_
    have hnone := (h.inPlace_iff (hedits g' hg') (hkept g' hg')).mp (hplace g' hg')
    rw [Forest.parent?_of_addChild_ok hadd] at hnone
    cases hnone
  -- and without such an edit it has no parent at any time
  · intro hspared g hg
    refine (h.inPlace_iff (hedits g hg) (hkept g hg)).mpr ?_
    exact Forest.parent?_eq_none_of_spared h.sound h.root hrun hspared g hg

/-- A node with one below it, and a third one by itself. -/
def pairAndOther : Forest :=
  (Session.after [.create "whole" { kind := "module" }, .create "part" { kind := "name" },
    .create "other" { kind := "module" }, .addChild "whole" (some "part")]).forest

/-- The syntax tree of the two nodes. -/
def pairTree : SyntaxTree where
  nodes := pairAndOther.freeze 0
  root := .node 0 { kind := "module" } [.node 1 { kind := "name" } []]
  source := "x"
  language := "text"

theorem sound_pairAndOther : pairAndOther.Sound := (Session.tidy_after _).sound

theorem make_pairAndOther :
    make pairAndOther (some 0) (some "x") (some "text") none = .ok pairTree :=
  make_eq sound_pairAndOther (n := pairTree.root) ⟨⟨_, rfl, rfl, rfl⟩,
    ⟨⟨_, rfl, rfl, rfl⟩, trivial⟩, trivial⟩
    (by decide) "x" none

/-- The third node takes in a new one, and the tree stays in place. -/
theorem other_grows_in_place :
    ∃ g g', pairTree.nodes.insert { kind := "late" } = .ok (g, 3) ∧ g.addChild 2 3 = .ok g'
      ∧ pairTree.InPlace g' ∧ g'.path 1 = [0, 1] := by
  let g : Forest := { nodes := pairTree.nodes.nodes.push (some { kind := "late" }) }
  have hinsert : pairTree.nodes.insert { kind := "late" } = .ok (g, 3) := rfl
  have hadd : g.addChild 2 3 = .ok (g.link 2 3) := rfl
  have hrun : (pairTree.nodes :: [g, g.link 2 3]).IsChain Forest.Edit :=
    .cons_cons (.insert hinsert) (.cons_cons (.addChild hadd) (.singleton _))
  have hkept : ∀ e ∈ [g, g.link 2 3], e.Has 0 := by
    unfold Forest.Has
    decide
  -- a root that has no parent after an edit was not added by it
  have hspared : ∀ {e e' : Forest}, e'.parent? 0 = none → ∀ p, e.addChild p 0 ≠ .ok e' := by
    intro e e' hnone p hadopt
    rw [Forest.parent?_of_addChild_ok hadopt] at hnone
    cases hnone
  have hplace := (in_place_iff_spared sound_pairAndOther make_pairAndOther (by decide)
    hrun hkept).2.2.mpr
    (.cons_cons (hspared (by decide)) (.cons_cons (hspared (by decide)) (.singleton _)))
  exact ⟨g, g.link 2 3, hinsert, hadd, hplace _ (by simp), by decide⟩

/-- The third node takes in the root of the tree, and the paths of the tree begin there. -/
theorem moved_by_adoption :
    pairAndOther.Sound ∧ make pairAndOther (some 0) (some "x") (some "text") none = .ok pairTree
      ∧ pairAndOther.parent? 0 = none
      ∧ ∃ g, pairTree.nodes.addChild 2 0 = .ok g ∧ g.Has 0 ∧ pairTree.nodes.path 1 = [0, 1]
      ∧ g.path 1 = [2, 0, 1]
        ∧ pairTree.nodes.depth 1 = 1 ∧ g.depth 1 = 2 ∧ ¬pairTree.InPlace g := by
  have hthen : pairTree.nodes.path 1 = [0, 1] := by decide
  have hnow : (pairTree.nodes.link 2 0).path 1 = [2, 0, 1] := by decide
  refine ⟨sound_pairAndOther, make_pairAndOther,
    by decide, pairTree.nodes.link 2 0, rfl, ?_, hthen, hnow, by decide,
    by decide, fun hplace => ?_⟩
  · rw [Forest.Has]
    decide
  · have hpart : .node 1 { kind := "name" } [] ∈ pairTree.allNodes := .tail _ (.head _)
    have hsame := hplace.path _ hpart
    rw [SyntaxNode.id, hthen, hnow] at hsame
    cases hsame

end SyntaxTree

end SyntaxForest
