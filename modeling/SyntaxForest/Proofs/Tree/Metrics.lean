import SyntaxForest.Proofs.Tree.Census
import SyntaxForest.Proofs.Tree.Frozen

/-!
# Metrics agree with the nodes

The metrics of a syntax tree come from a walk of their own, with depths that it counts itself and
counters that it finds through a table of spellings. The nodes can be asked for in other ways: all
of them, those of a kind, the depth of one.

* **`Forest.Sound.depth_of_mem_levels`** — the depth that the walk counts is the distance up to the
  root in the forest.
* **`SyntaxTree.Measures`** — metrics that say of the nodes of a tree what the nodes say themselves.
* **`SyntaxTree.measures_metricsBy`** — the metrics of every syntax tree do, in every forest that
  still has its root and whichever kinds count as one.
-/

namespace SyntaxForest

/-! ## Depths -/

namespace Forest

variable {f : Forest}

theorem Sound.depth_of_parent? (hf : f.Sound) {p c : NodeId} (hp : f.parent? c = some p) :
    f.depth c = f.depth p + 1 := by
  have hlower := hf.depth_lineage (has_of_parent? hp)
  have hupper := hf.depth_lineage (hf.has_parent hp)
  have hwalk := (hf.ascends_lineage (has_of_parent? hp)).unique
    (.up hp (hf.ascends_lineage (hf.has_parent hp)))
  rw [hwalk, List.length_cons] at hlower
  omega

mutual

/-- Going down a tree, the count of levels goes with the depth in the forest. -/
theorem Sound.depth_of_mem_levels (hf : f.Sound) :
    ∀ (n : SyntaxNode) (level : Nat), f.Holds n → ∀ e ∈ n.levels level,
      f.depth e.2.id + level = f.depth n.id + e.1
  | .node id info children, level, hn, e, he => by
    rw [SyntaxNode.levels, List.mem_cons] at he
    rcases he with rfl | hbelow
    · rfl
    · have hchildren : ∀ m ∈ children, f.depth m.id = f.depth id + 1 := by
        intro m hm
        refine hf.depth_of_parent? ((hf.linked id m.id).mp ?_)
        rw [children_of_holds hn]
        exact List.mem_map_of_mem hm
      have hdepth := Sound.depth_of_mem_levelsAll hf children (level + 1) hn.2 hchildren e hbelow
      show f.depth e.2.id + level = f.depth id + e.1
      omega

theorem Sound.depth_of_mem_levelsAll (hf : f.Sound) {depth : Nat} :
    ∀ (nodes : List SyntaxNode) (level : Nat), f.HoldsAll nodes →
      (∀ m ∈ nodes, f.depth m.id = depth) →
      ∀ e ∈ SyntaxNode.levelsAll level nodes, f.depth e.2.id + level = depth + e.1
  | [], _, _, _, _, he => by cases he
  | n :: rest, level, hnodes, hdepth, e, he => by
    rw [List.forall_mem_cons] at hdepth
    rw [SyntaxNode.levelsAll, List.mem_append] at he
    rcases he with hfirst | hlater
    · rw [← hdepth.1]
      exact Sound.depth_of_mem_levels hf n level hnodes.1 e hfirst
    · exact Sound.depth_of_mem_levelsAll hf rest level hnodes.2 hdepth.2 e hlater

end

end Forest

/-! ## Metrics -/

namespace SyntaxTree

/-- The metrics agree with the nodes of the tree. The forest says how deep a node is, and `fold`
which kinds count as one. -/
structure Measures (fold : String → String) (t : SyntaxTree) (g : Forest) (m : TreeMetrics) :
    Prop where
  total : m.totalNodes = t.allNodes.length
  /-- Every node is counted under one kind. -/
  sum : (Assoc.values m.kindCounts).foldr (· + ·) 0 = m.totalNodes
  countFor : ∀ kind, m.countFor fold kind = (t.nodesOfKindBy fold kind).length
  /-- No two counters are for kinds that count as one. -/
  apart : ((Assoc.keys m.kindCounts).map fold).Nodup
  /-- A counter stands under the kind of the first node that it counts. -/
  first : ∀ key ∈ Assoc.keys m.kindCounts, (t.nodesOfKindBy fold key).head?.map SyntaxNode.kind
    = some key
  /-- The counters come as the first nodes that they count. -/
  order : (Assoc.keys m.kindCounts).Pairwise fun key later =>
    t.allNodes.findIdx (fun n => fold n.kind = fold key) < t.allNodes.findIdx
      (fun n => fold n.kind = fold later)
  /-- No node is further below the root than the deepest. -/
  depth_le : ∀ n ∈ t.allNodes, (g.depth n.id : Int) - g.depth t.root.id ≤ m.maxDepth
  deepest : ∃ n ∈ t.allNodes, (g.depth n.id : Int) - g.depth t.root.id = m.maxDepth
  errors : m.errorCount = (t.allNodes.filter (·.info.isError)).length

section Census

variable (fold : String → String) (t : SyntaxTree)

theorem kindCounts_metricsBy : (t.metricsBy fold).kindCounts = (Census.told fold t.met).counts := by
  rw [metricsBy, census_eq]

theorem keys_kindCounts :
    Assoc.keys (t.metricsBy fold).kindCounts = firstSpellings fold
      (t.allNodes.map SyntaxNode.kind) := by
  rw [kindCounts_metricsBy, Census.keys_counts, kinds_met]

theorem countFor_metricsBy (kind : String) :
    (t.metricsBy fold).countFor fold kind = (t.nodesOfKindBy fold kind).length := by
  rw [TreeMetrics.countFor, kindCounts_metricsBy, Census.find?_counts, kinds_met, List.countP_map,
    List.countP_eq_length_filter]
  rfl

theorem head?_nodesOfKindBy {key : String} (hkey : key ∈ Assoc.keys (t.metricsBy fold).kindCounts) :
    (t.nodesOfKindBy fold key).head?.map SyntaxNode.kind = some key := by
  rw [keys_kindCounts, mem_firstSpellings_iff, List.find?_map] at hkey
  rw [nodesOfKindBy, List.head?_filter]
  exact hkey

theorem pairwise_kindCounts :
    (Assoc.keys (t.metricsBy fold).kindCounts).Pairwise fun key later =>
      t.allNodes.findIdx (fun n => fold n.kind = fold key)
        < t.allNodes.findIdx (fun n => fold n.kind = fold later) := by
  have horder := pairwise_firstSpellings fold (t.allNodes.map SyntaxNode.kind)
  simp only [List.findIdx_map] at horder
  rw [keys_kindCounts]
  exact horder

theorem maxDepth_metricsBy :
    (∀ e ∈ t.root.levels 0, (e.1 : Int) ≤ (t.metricsBy fold).maxDepth)
      ∧ ∃ e ∈ t.root.levels 0, (e.1 : Int) = (t.metricsBy fold).maxDepth := by
  obtain ⟨hmem, hle⟩ := List.max?_eq_some_iff.mp (t.max?_met fold)
  rw [metricsBy, census_eq]
  constructor
  · intro e he
    have hlevel : e.1 ≤ (Census.told fold t.met).deepest :=
      hle e.1 (List.mem_map_of_mem (List.mem_map_of_mem he))
    exact Int.ofNat_le.mpr hlevel
  · rw [met, List.map_map] at hmem
    obtain ⟨e, he, heq⟩ := List.mem_map.mp hmem
    exact ⟨e, he, congrArg Int.ofNat heq⟩

end Census

/-- **Metrics agree with the nodes.** Take any syntax tree, and any forest that came of its own by
edits and still has its root; and say in any way which kinds count as one. The metrics count as many
nodes as there are, and every node under one kind. The counter of a kind counts the nodes that are
found under the kind. No two counters are for one kind, each stands under the spelling that its
first node has, and they come in the order of these nodes. The greatest depth is the greatest
distance of a node from the root, as the forest has it. -/
theorem measures_metricsBy (fold : String → String) {f g : Forest} (hf : f.Sound)
    {root : Option NodeId} {source language file : Option String} {t : SyntaxTree}
    (hmake : make f root source language file = .ok t) (hedits : Forest.Edits t.nodes g)
    (hroot : g.Has t.root.id) : t.Measures fold g (t.metricsBy fold) := by
  obtain ⟨hg, hholds⟩ := holds_of_edits hf hmake hedits hroot
  obtain ⟨hdeepest, deepest, hmem, heq⟩ := t.maxDepth_metricsBy fold
  -- levels are distances from the root, as the forest has them
  have hdepth : ∀ e ∈ t.root.levels 0, (g.depth e.2.id : Int) - g.depth t.root.id = e.1 := by
    intro e he
    have hlevel := hg.depth_of_mem_levels t.root 0 hholds e he
    omega
  have hnodes : ∀ n, n ∈ t.allNodes ↔ ∃ e ∈ t.root.levels 0, e.2 = n := by
    intro n
    rw [allNodes, ← SyntaxNode.map_levels 0 t.root, List.mem_map]
  refine ⟨t.totalNodes_metricsBy fold, ?_, t.countFor_metricsBy fold, ?_,
    fun key => t.head?_nodesOfKindBy fold,
    t.pairwise_kindCounts fold, ?_, ?_, ?_⟩
  · rw [totalNodes_metricsBy, kindCounts_metricsBy, Census.sum_counts, length_met]
  -- no two counters are for one kind
  · rw [keys_kindCounts]
    exact nodup_firstSpellings fold _
  · intro n hn
    obtain ⟨e, he, rfl⟩ := (hnodes n).mp hn
    rw [hdepth e he]
    exact hdeepest e he
  · exact ⟨deepest.2, (hnodes _).mpr ⟨deepest, hmem, rfl⟩, (hdepth deepest hmem).trans heq⟩
  · exact congrArg Int.ofNat (List.length_map _)

/-- A module with names in it, in two spellings each; there is a node above it, and a sixth one by
itself. -/
def spelled : Forest :=
  (Session.after [.create "over" { kind := "outer" }, .create "whole" { kind := "Module" },
    .create "first" { kind := "name" }, .create "second" { kind := "NAME", isError := true },
    .create "inner" { kind := "module" }, .create "other" { kind := "outer" },
    .addChild "over" (some "whole"),
    .addChild "whole" (some "first"), .addChild "whole" (some "second"),
    .addChild "first" (some "inner")]).forest

/-- The syntax tree of the module. -/
def spelledTree : SyntaxTree where
  nodes := spelled.freeze 1
  root := .node 1 { kind := "Module" }
    [.node 2 { kind := "name" } [.node 4 { kind := "module" } []],
    .node 3 { kind := "NAME", isError := true } []]
  source := "x"
  language := "text"

theorem make_spelled : make spelled (some 1) (some "x") (some "text") none = .ok spelledTree :=
  make_eq (Session.tidy_after _).sound (n := spelledTree.root)
    ⟨⟨_, rfl, rfl, rfl⟩, ⟨⟨_, rfl, rfl, rfl⟩, ⟨⟨_, rfl, rfl, rfl⟩, trivial⟩, trivial⟩,
      ⟨⟨_, rfl, rfl, rfl⟩, trivial⟩, trivial⟩
    (by decide) "x" none

/-- The sixth node takes in the one above the module. Two kinds are counted, and two levels below
the root. -/
theorem spellings_measured_below_others :
    spelled.Sound ∧ make spelled (some 1) (some "x") (some "text") none = .ok spelledTree
      ∧ ∃ g, spelledTree.nodes.addChild 5 0 = .ok g ∧ g.Has 1 ∧ g.depth 1 = 2 ∧ g.depth 4 = 4
        ∧ spelledTree.Measures Text.caseFold g (spelledTree.metricsBy Text.caseFold)
        ∧ (spelledTree.metricsBy Text.caseFold).kindCounts = [("Module", 2), ("name", 2)]
        ∧ (spelledTree.metricsBy Text.caseFold).maxDepth = 2
        ∧ (spelledTree.metricsBy Text.caseFold).errorCount = 1 := by
  have hsound : spelled.Sound := (Session.tidy_after _).sound
  have hadd : spelledTree.nodes.addChild 5 0 = .ok (spelledTree.nodes.link 5 0) := rfl
  have hroot : (spelledTree.nodes.link 5 0).Has 1 := by
    unfold Forest.Has
    decide
  have hmeasures := measures_metricsBy Text.caseFold hsound make_spelled
    (.single (.addChild hadd)) hroot
  exact ⟨hsound, make_spelled, _, hadd, hroot,
    by decide, by decide, hmeasures, by decide +kernel, by decide +kernel,
    by decide +kernel⟩

end SyntaxTree

end SyntaxForest
