import SyntaxForest.Proofs.Declaration.Reading

/-!
# Reading goes on in document order

A namespace reads what is declared below it and after it, so what it reads next need not be a part
of it, and need not be smaller. But it comes later in the tree.

* **`Converter.Calls`**, **`Converter.Reaches`** — which declarations are read for another one, and
  which for the unit.
* **`Converter.later_of_calls`** — what is read for a declaration comes after it in document order.
* **`SyntaxTree.reading_ends`** — every syntax tree is read to the end, whatever the rules, and no
  namespace fails to find itself among the children of its parent.
-/

namespace SyntaxForest

/-! ## Document order -/

namespace SyntaxNode

theorem preorderAll_append (nodes more : List SyntaxNode) :
    preorderAll (nodes ++ more) = preorderAll nodes ++ preorderAll more := by
  induction nodes with
  | nil => rfl
  | cons n rest ih => rw [List.cons_append, preorderAll, preorderAll, ih, List.append_assoc]

mutual

theorem exists_parent {n : SyntaxNode} :
    ∀ root : SyntaxNode, n.Below root → ∃ p ∈ root.preorder, n ∈ p.children
  | .node id info children, hn => by
    rcases mem_or_exists_parent children hn with hchild | ⟨p, hp, hmem⟩
    · exact ⟨_, List.mem_cons_self, hchild⟩
    · exact ⟨p, List.mem_cons_of_mem _ hp, hmem⟩

theorem mem_or_exists_parent {n : SyntaxNode} :
    ∀ nodes : List SyntaxNode, n ∈ preorderAll nodes → n ∈ nodes ∨ ∃ p ∈ preorderAll nodes,
      n ∈ p.children
  | first :: rest, hn => by
    rw [preorderAll, List.mem_append] at hn
    rcases hn with hfirst | hrest
    · rcases mem_preorder_iff.mp hfirst with rfl | hbelow
      · exact Or.inl List.mem_cons_self
      · obtain ⟨p, hp, hmem⟩ := exists_parent first hbelow
        exact Or.inr ⟨p, List.mem_append_left _ hp, hmem⟩
    · rcases mem_or_exists_parent rest hrest with hsibling | ⟨p, hp, hmem⟩
      · exact Or.inl (List.mem_cons_of_mem _ hsibling)
      · exact Or.inr ⟨p, List.mem_append_right _ hp, hmem⟩

end

theorem preorderAll_children_sublist {p root : SyntaxNode} (hp : p ∈ root.preorder) :
    (preorderAll p.children).Sublist (preorderAll root.children) := by
  rcases mem_preorder_iff.mp hp with rfl | hbelow
  · exact List.Sublist.refl _
  · refine List.Sublist.trans ?_ (preorderAll_sublist_of_mem root.children hbelow)
    cases p with
    | node id info children => exact List.sublist_cons_self _ _

theorem pair_sublist {n m : SyntaxNode} {following : List SyntaxNode}
    (hm : m ∈ preorderAll n.children ++ preorderAll following) :
    [n, m].Sublist (preorderAll (n :: following)) := by
  cases n with
  | node id info children =>
    rw [preorderAll, preorder, List.cons_append]
    exact (List.singleton_sublist.mpr hm).cons_cons _

end SyntaxNode

theorem Forest.exists_stands {g : Forest} {root n : SyntaxNode} (hroot : g.Holds root)
    (hn : n.Below root) :
    ∃ following, g.Stands (n :: following)
      ∧ (SyntaxNode.preorderAll (n :: following)).Sublist
        (SyntaxNode.preorderAll root.children) := by
  obtain ⟨p, hp, hchild⟩ := SyntaxNode.exists_parent root hn
  obtain ⟨before, following, hsplit⟩ := List.append_of_mem hchild
  have hholds := holds_of_mem_preorder root hroot hp
  refine ⟨following, ⟨?_, p.id, before.map SyntaxNode.id, ?_⟩, ?_⟩
  · have hall := holdsAll_iff.mp (holdsAll_children hholds)
    rw [hsplit, List.forall_mem_append] at hall
    exact holdsAll_iff.mpr hall.2
  · rw [children_eq hholds, hsplit, List.map_append]
  · refine List.Sublist.trans ?_ (SyntaxNode.preorderAll_children_sublist hp)
    rw [hsplit, SyntaxNode.preorderAll_append]
    exact List.sublist_append_right _ _

namespace Converter

variable {c : Converter} {t : SyntaxTree} {n : SyntaxNode} {x : NodeId}

/-! ## What is read next -/

/-- Reading the declaration at the first node comes to reading one at the second. -/
inductive Calls (c : Converter) (f : Forest) : NodeId → NodeId → Prop where
  | namespaceWithin {limit : Nat} {id x : NodeId} {ids : List NodeId}
      (h : c.readWithin f Classifier.isNamespace limit id = .ok ids) (hx : x ∈ ids) : Calls c f id x
  | classWithin {limit : Nat} {id x : NodeId} {ids : List NodeId}
      (h : c.readWithin f Classifier.isClass limit id = .ok ids) (hx : x ∈ ids) : Calls c f id x
  | classMember {limit : Nat} {id x : NodeId} {ids : List NodeId}
      (h : c.readMembers f limit id = .ok ids) (hx : x ∈ ids.filter (f.isOf c.classifier.isClass)) :
      Calls c f id x

/-- Reading the unit comes to reading a namespace or a class at the node. The first two ways in are
those of the unit itself; from there one reading calls the next. -/
inductive Reaches (c : Converter) (t : SyntaxTree) : NodeId → Prop where
  | namespaceTop {limit : Nat} {x : NodeId} {claimed ids : List NodeId}
      (hclaimed : c.readClaimed t.nodes limit t.root.id = .ok claimed)
      (h : c.readUnclaimed t.nodes claimed Classifier.isNamespace limit t.root.id = .ok ids)
      (hx : x ∈ ids) :
      Reaches c t x
  | classTop {limit : Nat} {x : NodeId} {claimed ids : List NodeId}
      (hclaimed : c.readClaimed t.nodes limit t.root.id = .ok claimed)
      (h : c.readUnclaimed t.nodes claimed Classifier.isClass limit t.root.id = .ok ids)
      (hx : x ∈ ids) :
      Reaches c t x
  | next {id x : NodeId} (hid : Reaches c t id) (h : c.Calls t.nodes id x) : Reaches c t x

theorem mem_of_mem_within {accept : Classifier → String → Bool} {s m : Site}
    (hm : m ∈ c.within accept s) :
    m.node ∈ SyntaxNode.preorderAll s.node.children ++ SyntaxNode.preorderAll s.following := by
  rw [List.mem_append]
  rcases List.mem_append.mp hm with hbelow | hafter
  · exact Or.inl (Search.node_mem_preorderAll hbelow)
  · rw [followers] at hafter
    split at hafter
    · exact Or.inr (Search.node_mem_preorderAll hafter)
    · cases hafter

theorem exists_mem_of_calls {g : Forest} {following : List SyntaxNode} (hg : g.Sound)
    (hn : g.Stands (n :: following)) (h : c.Calls g n.id x) :
    ∃ m ∈ SyntaxNode.preorderAll n.children ++ SyntaxNode.preorderAll following, m.id = x := by
  have hwithin : ∀ {accept : Classifier → String → Bool} {limit : Nat} {ids : List NodeId},
      c.readWithin g accept limit n.id = .ok ids → x ∈ ids →
        ∃ m ∈ SyntaxNode.preorderAll n.children ++ SyntaxNode.preorderAll following, m.id = x := by
    intro accept limit ids h hx
    rw [(readWithin_ends hg accept limit (s := ⟨n, following⟩) hn).eq_of_ok h] at hx
    obtain ⟨m, hm, rfl⟩ := List.mem_map.mp hx
    exact ⟨m.node, mem_of_mem_within hm, rfl⟩
  cases h with
  | namespaceWithin h hx => exact hwithin h hx
  | classWithin h hx => exact hwithin h hx
  | @classMember limit _ _ ids h hx =>
    rw [(readMembers_ends limit hn.holds.1).eq_of_ok h] at hx
    obtain ⟨m, hm, rfl⟩ := List.mem_map.mp (List.mem_filter.mp hx).1
    exact ⟨m, List.mem_append_left _ ((c.ownNodes_sublist n).subset hm), rfl⟩

section Order

variable (hroot : t.nodes.Holds t.root)

include hroot

theorem exists_below_of_unclaimed {accept : Classifier → String → Bool} {limit : Nat}
    {claimed ids : List NodeId}
    (h : c.readUnclaimed t.nodes claimed accept limit t.root.id = .ok ids) (hx : x ∈ ids) :
    ∃ m : SyntaxNode, m.Below t.root ∧ m.id = x := by
  rw [(readUnclaimed_ends hroot claimed accept).eq_of_ok h] at hx
  obtain ⟨s, hs, rfl⟩ := List.mem_map.mp hx
  exact ⟨s.node, Search.node_mem_preorderAll hs, rfl⟩

variable (hg : t.nodes.Sound)

include hg

/-- **What is read for a declaration comes later**, below it or after it. -/
theorem later_of_calls (hn : n.Below t.root) (h : c.Calls t.nodes n.id x) :
    ∃ m : SyntaxNode, m.Below t.root ∧ m.id = x ∧ [n.id, x].Sublist t.root.ids := by
  obtain ⟨following, hstands, hsub⟩ := Forest.exists_stands hroot hn
  obtain ⟨m, hm, rfl⟩ := exists_mem_of_calls hg hstands h
  have hpair := (SyntaxNode.pair_sublist hm).trans hsub
  have hnodes : (SyntaxNode.preorderAll t.root.children).Sublist t.root.preorder := by
    cases t.root with
    | node id info children => exact List.sublist_cons_self _ _
  exact ⟨m, hpair.subset (by simp), rfl, (hpair.trans hnodes).map SyntaxNode.id⟩

theorem exists_below_of_reaches {id : NodeId} (h : c.Reaches t id) :
    ∃ n : SyntaxNode, n.Below t.root ∧ n.id = id := by
  induction h with
  | namespaceTop _ h hx => exact exists_below_of_unclaimed hroot h hx
  | classTop _ h hx => exact exists_below_of_unclaimed hroot h hx
  | next _ hcall ih =>
    obtain ⟨n, hn, rfl⟩ := ih
    obtain ⟨m, hm, hid, -⟩ := later_of_calls hroot hg hn hcall
    exact ⟨m, hm, hid⟩

end Order

end Converter

namespace SyntaxTree

/-- **Every syntax tree is read to the end.** Take any syntax tree, any forest that came of its own
by edits and still has its root, and any rules. Reading the unit from the links of the forest ends
with what the tree declares, if the limit is not below the number of its nodes, as the size of the
forest never is; and with any smaller limit it fails by the limit or not at all. No node of the
forest fails to be found among the children of its parent. And whatever is read for the unit, all
that is read for it in turn comes later in document order, in which no node is there twice. -/
theorem reading_ends (c : Converter) {f g : Forest} (hf : f.Sound) {root : Option NodeId}
    {source language file : Option String} {t : SyntaxTree}
    (hmake : make f root source language file = .ok t) (hedits : Forest.Edits t.nodes g)
    (hroot : g.Has t.root.id) :
    c.readUnit { t with nodes := g } g.size = .ok (c.unit t)
      ∧ (∀ limit, Reading.Ends t.root.size limit (c.readUnit { t with nodes := g } limit)
        (c.unit t))
      ∧ (∀ id, ∃ after, c.readFollowers g id = .ok after
          ∧ ∀ p, g.parent? id = some p → g.isOf c.classifier.isFileScoped id = true →
              ∃ before, g.children p = before ++ id :: after)
      ∧ t.root.ids.Nodup
      ∧ ∀ id, c.Reaches { t with nodes := g } id → ∀ x, c.Calls g id x →
        [id, x].Sublist t.root.ids := by
  -- edits that keep the root leave the tree below it as it is, for it is frozen
  obtain ⟨hg, hholds⟩ := holds_of_edits hf hmake hedits hroot
  have hends : ∀ limit, Reading.Ends t.root.size limit (c.readUnit { t with nodes := g } limit)
      (c.unit t) := by
    intro limit
    rw [← c.unit_withNodes t g]
    exact Converter.readUnit_ends (t := { t with nodes := g }) hholds hg limit
  refine ⟨(hends g.size).answers (hg.size_le hholds), hends, c.exists_readFollowers hg,
    nodup_ids_of_make hf hmake, ?_⟩
  intro id hid x hx
  obtain ⟨n, hn, rfl⟩ :=
    Converter.exists_below_of_reaches (t := { t with nodes := g }) hholds hg hid
  obtain ⟨-, -, -, hlater⟩ := Converter.later_of_calls (t := { t with nodes := g }) hholds hg hn hx
  exact hlater

/-- Two namespaces without bodies and a class after them; and a fifth node by itself. -/
def spaced : Forest :=
  (Session.after [.create "unit" { kind := "compilation_unit" },
    .create "first" { kind := "file_scoped_namespace_declaration" },
    .create "second" { kind := "file_scoped_namespace_declaration" },
    .create "class" { kind := "class_declaration" },
    .create "other" { kind := "module" }, .addChild "unit" (some "first"),
    .addChild "unit" (some "second"),
    .addChild "unit" (some "class")]).forest

/-- The syntax tree of the unit. -/
def spacedTree : SyntaxTree where
  nodes := spaced.freeze 0
  root := .node 0 { kind := "compilation_unit" }
    [.node 1 { kind := "file_scoped_namespace_declaration" } [],
    .node 2 { kind := "file_scoped_namespace_declaration" } [],
    .node 3 { kind := "class_declaration" } []]
  source := "x"
  language := "csharp"

theorem make_spaced : make spaced (some 0) (some "x") (some "csharp") none = .ok spacedTree :=
  make_eq (Session.tidy_after _).sound (n := spacedTree.root)
    ⟨⟨_, rfl, rfl, rfl⟩, ⟨⟨_, rfl, rfl, rfl⟩, trivial⟩, ⟨⟨_, rfl, rfl, rfl⟩, trivial⟩,
      ⟨⟨_, rfl, rfl, rfl⟩, trivial⟩, trivial⟩
    (by decide) "x" none

/-- The first namespace reads the second one, which is not below it but after it. -/
theorem later_namespace_read :
    spaced.Sound ∧ make spaced (some 0) (some "x") (some "csharp") none = .ok spacedTree
      ∧ ∃ g, spacedTree.nodes.addChild 4 0 = .ok g ∧ g.Has 0
        ∧ Converter.csharpConverter.readUnit { spacedTree with nodes := g } 4
          = .ok (Converter.csharpConverter.unit spacedTree)
        ∧ Converter.csharpConverter.readFollowers g 1 = .ok [2, 3]
        ∧ Converter.csharpConverter.Reaches { spacedTree with nodes := g } 1
        ∧ Converter.csharpConverter.Calls g 1 2 ∧ [1, 2].Sublist spacedTree.root.ids := by
  have hsound : spaced.Sound := (Session.tidy_after _).sound
  have hadd : spacedTree.nodes.addChild 4 0 = .ok (spacedTree.nodes.link 4 0) := rfl
  have hroot : (spacedTree.nodes.link 4 0).Has 0 := by
    unfold Forest.Has
    decide
  obtain ⟨-, hends, -, -, hlater⟩ :=
    reading_ends Converter.csharpConverter hsound make_spaced (.single (.addChild hadd)) hroot
  have hclaimed : Converter.csharpConverter.readClaimed (spacedTree.nodes.link 4 0) 4 0
      = .ok [2, 3, 3] := by
    decide +kernel
  have htop : Converter.csharpConverter.readUnclaimed (spacedTree.nodes.link 4 0)
      [2, 3, 3] Classifier.isNamespace 4 0
      = .ok [1] := by decide +kernel
  have hwithin : Converter.csharpConverter.readWithin (spacedTree.nodes.link 4 0)
      Classifier.isNamespace 4 1
      = .ok [2] := by decide +kernel
  have hreaches : Converter.csharpConverter.Reaches
      { spacedTree with nodes := spacedTree.nodes.link 4 0 } 1 :=
    .namespaceTop hclaimed htop (.head _)
  have hcalls : Converter.csharpConverter.Calls (spacedTree.nodes.link 4 0) 1 2 :=
    .namespaceWithin hwithin (.head _)
  exact ⟨hsound, make_spaced, _, hadd, hroot, (hends 4).answers (by decide),
    by decide +kernel, hreaches, hcalls,
    hlater 1 hreaches 2 hcalls⟩

end SyntaxTree

end SyntaxForest
