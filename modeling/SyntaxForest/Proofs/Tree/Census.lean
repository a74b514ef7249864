import Mathlib.Data.List.Induction
import Mathlib.Data.List.Nodup
import SyntaxForest.Proofs.Data.Assoc
import SyntaxForest.Tree.SyntaxTree

/-!
# What a census tells

A census walks through a tree with a stack and keeps two tables. Both are told here by what it has
seen: the walk by the recursion through the levels of the tree, the tables by the kinds of the nodes
in document order.

* **`Census.walk_eq`** — the nodes are counted in document order, each with its level.
* **`firstSpellings`** — of the kinds that count as one, the first; in the order in which they come.
* **`Census.told`**, **`Census.count_told`** — the census of a list of kinds, and that counting one
  more kind is the census of the longer list. So the two tables never disagree.
-/

namespace SyntaxForest

/-! ## The walk -/

namespace SyntaxNode

mutual

/-- The nodes in document order, each with its distance from `depth` levels above the root. -/
def levels (depth : Nat) : SyntaxNode → List (Nat × SyntaxNode)
  | node id info children => (depth, node id info children) :: levelsAll (depth + 1) children

def levelsAll (depth : Nat) : List SyntaxNode → List (Nat × SyntaxNode)
  | [] => []
  | n :: rest => levels depth n ++ levelsAll depth rest

end

mutual

theorem map_levels (depth : Nat) : ∀ n : SyntaxNode, (n.levels depth).map Prod.snd = n.preorder
  | .node id info children => by
    rw [levels, preorder, List.map_cons, map_levelsAll (depth + 1) children]

theorem map_levelsAll (depth : Nat) :
    ∀ nodes : List SyntaxNode, (levelsAll depth nodes).map Prod.snd = preorderAll nodes
  | [] => rfl
  | n :: rest => by
    rw [levelsAll, preorderAll, List.map_append, map_levels depth n, map_levelsAll depth rest]

end

end SyntaxNode

namespace Census

variable {fold : String → String}

theorem flatMap_atDepth (depth : Nat) (nodes : List SyntaxNode) :
    (atDepth depth nodes).flatMap (fun e => e.2.levels e.1) = SyntaxNode.levelsAll depth nodes := by
  induction nodes with
  | nil => rfl
  | cons n rest ih =>
    rw [SyntaxNode.levelsAll, ← ih, atDepth, List.map_cons, List.flatMap_cons, ← atDepth]

/-- **The stack goes through the levels of the trees on it.** -/
theorem walk_eq (c : Census) (stack : List (Nat × SyntaxNode)) :
    walk fold c stack
      = (stack.flatMap fun e => e.2.levels e.1).foldl (fun c e => c.count fold e.1 e.2.kind) c := by
  induction c, stack using walk.induct fold with
  | case1 c => rw [walk, List.flatMap_nil, List.foldl_nil]
  | case2 c depth id info children rest ih =>
    rw [walk, ih, List.flatMap_append, flatMap_atDepth, List.flatMap_cons, SyntaxNode.levels,
      List.cons_append, List.foldl_cons]
    rfl

end Census

/-! ## First spellings -/

/-- Of the kinds with one folded form the first, in the order in which these come. -/
def firstSpellings (fold : String → String) : List String → List String
  | [] => []
  | kind :: rest => kind :: (firstSpellings fold rest).filter fun other => fold other ≠ fold kind

section FirstSpellings

variable {fold : String → String} {kinds : List String}

theorem mem_firstSpellings_iff {kind : String} :
    kind ∈ firstSpellings fold kinds ↔ kinds.find? (fun other => fold other = fold kind)
      = some kind := by
  induction kinds with
  | nil => simp [firstSpellings]
  | cons first rest ih =>
    rw [firstSpellings, List.mem_cons, List.mem_filter, ih, List.find?_cons]
    -- the first kind of all stands for all that count as one with it
    by_cases hfold : fold first = fold kind
    · simp [hfold, eq_comm]
    · have hne : kind ≠ first := fun heq => hfold (heq ▸ rfl)
      simp [hfold, hne, Ne.symm hfold]

theorem exists_firstSpelling (fold : String → String) {kind : String} (h : kind ∈ kinds) :
    ∃ first ∈ firstSpellings fold kinds, fold first = fold kind := by
  obtain ⟨first, hfirst⟩ : ∃ first, kinds.find? (fun other => fold other = fold kind)
      = some first :=
    Option.isSome_iff_exists.mp (List.find?_isSome.mpr ⟨kind, h, decide_eq_true rfl⟩)
  have hfold : fold first = fold kind := by simpa using List.find?_some hfirst
  exact ⟨first, mem_firstSpellings_iff.mpr (hfold ▸ hfirst), hfold⟩

theorem mem_of_mem_firstSpellings {kind : String} (h : kind ∈ firstSpellings fold kinds) :
    kind ∈ kinds :=
  List.mem_of_find?_eq_some (mem_firstSpellings_iff.mp h)

theorem nodup_firstSpellings (fold : String → String) (kinds : List String) :
    ((firstSpellings fold kinds).map fold).Nodup := by
  induction kinds with
  | nil => exact List.nodup_nil
  | cons first rest ih =>
    rw [firstSpellings, List.map_cons, List.nodup_cons]
    refine ⟨fun hmem => ?_, (List.filter_sublist.map fold).nodup ih⟩
    obtain ⟨other, hother, hfold⟩ := List.mem_map.mp hmem
    exact absurd hfold (by simpa using (List.mem_filter.mp hother).2)

/-- They come in the order in which their folded forms first occur. This is the order of the
counters. -/
theorem pairwise_firstSpellings (fold : String → String) (kinds : List String) :
    (firstSpellings fold kinds).Pairwise fun kind later =>
      kinds.findIdx (fun other => fold other = fold kind) < kinds.findIdx
        (fun other => fold other = fold later) := by
  induction kinds with
  | nil => exact List.Pairwise.nil
  | cons first rest ih =>
    -- what is not folded like the first kind is found one place later
    have hlater : ∀ kind, kind ∈ (firstSpellings fold rest).filter
        (fun other => fold other ≠ fold first) →
        (first :: rest).findIdx (fun other => fold other = fold kind)
          = rest.findIdx (fun other => fold other = fold kind) + 1 := by
      intro kind hkind
      have hne : fold kind ≠ fold first := by simpa using (List.mem_filter.mp hkind).2
      rw [List.findIdx_cons]
      simp [Ne.symm hne]
    rw [firstSpellings, List.pairwise_cons]
    constructor
    · intro kind hkind
      rw [hlater kind hkind, List.findIdx_cons]
      simp
    · refine (ih.sublist List.filter_sublist).imp_of_mem fun hkind hkind' hlt => ?_
      rw [hlater _ hkind, hlater _ hkind']
      exact Nat.succ_lt_succ hlt

theorem firstSpellings_concat (kind : String) :
    firstSpellings fold (kinds ++ [kind])
      = if fold kind ∈ kinds.map fold then firstSpellings fold kinds else firstSpellings
        fold kinds ++ [kind] := by
  induction kinds with
  | nil => simp [firstSpellings]
  | cons first rest ih =>
    rw [List.cons_append, firstSpellings, ih, firstSpellings, List.map_cons]
    by_cases hfirst : fold kind = fold first
    · rw [if_pos (List.mem_cons.mpr (Or.inl hfirst))]
      split
      · rfl
      · simp [hfirst]
    · have hmem : fold kind ∈ fold first :: rest.map fold ↔ fold kind ∈ rest.map fold := by
        simp [hfirst]
      simp only [hmem]
      split
      · rfl
      · simp [hfirst]

end FirstSpellings

/-! ## The tables -/

namespace Census

variable (fold : String → String)

/-- The census of some nodes, given by their depths and kinds. -/
def told (seen : List (Nat × String)) : Census where
  total := seen.length
  deepest := (seen.map (·.1)).foldl max 0
  spellings := (firstSpellings fold (seen.map (·.2))).map fun kind => (fold kind, kind)
  counts := (firstSpellings fold (seen.map (·.2))).map fun kind =>
    (kind, ((seen.map (·.2)).countP fun other => fold other = fold kind : Nat))

variable {fold} {seen : List (Nat × String)}

theorem keys_spellings :
    Assoc.keys (told fold seen).spellings = (firstSpellings fold (seen.map (·.2))).map fold := by
  rw [told, Assoc.keys, List.map_map]
  rfl

theorem keys_counts :
    Assoc.keys (told fold seen).counts = firstSpellings fold (seen.map (·.2)) := by
  rw [told, Assoc.keys, List.map_map]
  exact List.map_id _

theorem countP_concat (kinds : List String) (kind other : String) :
    ((kinds ++ [kind]).countP fun k => fold k = fold other)
      = (kinds.countP fun k => fold k = fold other) + if fold kind = fold other then 1 else 0 := by
  rw [List.countP_append, List.countP_singleton]
  simp

theorem counts_of_seen {kind first : String} (hfirst : first ∈ firstSpellings fold (seen.map (·.2)))
    (hfold : fold first = fold kind) :
    Assoc.alter (told fold seen).counts first (fun earlier => earlier.getD 0 + 1)
      = (firstSpellings fold (seen.map (·.2))).map fun other =>
          (other, ((seen.map (·.2) ++ [kind]).countP fun k => fold k = fold other : Int)) := by
  have hfolds := nodup_firstSpellings fold (seen.map (·.2))
  have hnodup := List.Nodup.of_map fold hfolds
  have hcount : Assoc.get? (told fold seen).counts first
      = some ((seen.map (·.2)).countP fun other => fold other = fold first : Int) :=
    Assoc.get?_of_mem (keys_counts ▸ hnodup) (List.mem_map.mpr ⟨first, hfirst, rfl⟩)
  rw [Assoc.alter, hcount, Option.getD_some, told, Assoc.set_map hnodup hfirst]
  refine List.map_congr_left fun other hother => ?_
  rw [countP_concat]
  by_cases heq : other = first
  · rw [if_pos heq, if_pos (by rw [heq, hfold]), heq, Int.natCast_add]
    rfl
  · -- no other counter has this folded form
    have hne : fold kind ≠ fold other := fun hsame =>
      heq (List.inj_on_of_nodup_map hfolds hother hfirst (hsame.symm.trans hfold.symm))
    rw [if_neg heq, if_neg hne, Nat.add_zero]

theorem counts_of_new {kind : String} (hnew : fold kind ∉ (seen.map (·.2)).map fold) :
    Assoc.alter (told fold seen).counts kind (fun earlier => earlier.getD 0 + 1)
      = (firstSpellings fold (seen.map (·.2)) ++ [kind]).map fun other =>
          (other, ((seen.map (·.2) ++ [kind]).countP fun k => fold k = fold other : Int)) := by
  have hnone : ∀ other ∈ seen.map (·.2), fold other ≠ fold kind := fun other hother heq =>
    hnew (heq ▸ List.mem_map_of_mem hother)
  have hkey : kind ∉ Assoc.keys (told fold seen).counts := by
    rw [keys_counts]
    exact fun hmem => hnone kind (mem_of_mem_firstSpellings hmem) rfl
  rw [Assoc.alter, Assoc.get?_eq_none hkey, Assoc.set_of_not_mem_keys hkey, List.map_append, told]
  -- the old counters, none of which counts the new kind, and the new one
  congr 1
  · refine List.map_congr_left fun other hother => ?_
    have hne := hnone other (mem_of_mem_firstSpellings hother)
    rw [countP_concat, if_neg (Ne.symm hne), Nat.add_zero]
  · have hzero : ((seen.map (·.2)).countP fun k => fold k = fold kind) = 0 :=
      List.countP_eq_zero.mpr fun other hother => by simpa using hnone other hother
    rw [List.map_singleton, countP_concat, hzero, if_pos rfl]
    rfl

theorem told_concat (seen : List (Nat × String)) (depth : Nat) (kind : String) :
    told fold (seen ++ [(depth, kind)])
      = { total := (told fold seen).total + 1
          deepest := max (told fold seen).deepest depth
          spellings := (firstSpellings fold (seen.map (·.2) ++ [kind])).map fun other =>
            (fold other, other)
          counts := (firstSpellings fold (seen.map (·.2) ++ [kind])).map fun other =>
            (other, ((seen.map (·.2) ++ [kind]).countP fun k => fold k = fold other : Int)) } := by
  rw [told, List.map_append, List.map_append, List.foldl_append, List.length_append]
  rfl

/-- **One more kind.** The table of spellings leads a kind that counts as an earlier one to the
counter of the first, and any other kind to a counter of its own. -/
theorem count_told (seen : List (Nat × String)) (depth : Nat) (kind : String) :
    (told fold seen).count fold depth kind = told fold (seen ++ [(depth, kind)]) := by
  rw [count, told_concat, firstSpellings_concat]
  -- has a kind that counts as this one been met?
  by_cases hseen : fold kind ∈ (seen.map (·.2)).map fold
  · obtain ⟨earlier, hearlier, hfolded⟩ := List.mem_map.mp hseen
    obtain ⟨first, hfirst, hfold⟩ := exists_firstSpelling fold hearlier
    rw [hfolded] at hfold
    have hspelling : Assoc.get? (told fold seen).spellings (fold kind) = some first :=
      Assoc.get?_of_mem (keys_spellings ▸ nodup_firstSpellings fold _)
        (List.mem_map.mpr ⟨first, hfirst, by rw [hfold]⟩)
    rw [hspelling, Option.getD_some, Assoc.set_of_get? hspelling, counts_of_seen hfirst hfold,
      if_pos hseen]
    rfl
  · have hkey : fold kind ∉ Assoc.keys (told fold seen).spellings := by
      rw [keys_spellings]
      intro hmem
      obtain ⟨first, hfirst, hfold⟩ := List.mem_map.mp hmem
      exact hseen (hfold ▸ List.mem_map_of_mem (mem_of_mem_firstSpellings hfirst))
    have hspellings : (firstSpellings fold (seen.map (·.2)) ++ [kind]).map
        (fun other => (fold other, other))
        = (told fold seen).spellings ++ [(fold kind, kind)] :=
      List.map_append
    rw [Assoc.get?_eq_none hkey, Option.getD_none, Assoc.set_of_not_mem_keys hkey,
      counts_of_new hseen,
      if_neg hseen, hspellings]

/-- **The whole walk** comes to the census of the nodes in document order. -/
theorem walk_told (fold : String → String) (seen : List (Nat × String))
    (stack : List (Nat × SyntaxNode)) :
    walk fold (told fold seen) stack
      = told fold (seen ++ (stack.flatMap fun e => e.2.levels e.1).map fun e =>
        (e.1, e.2.kind)) := by
  rw [walk_eq]
  generalize stack.flatMap (fun e => e.2.levels e.1) = nodes
  induction nodes generalizing seen with
  | nil => rw [List.foldl_nil, List.map_nil, List.append_nil]
  | cons e rest ih =>
    rw [List.foldl_cons, count_told, ih, List.map_cons, List.append_assoc, List.singleton_append]

/-! ## Reading the tables -/

theorem find?_counts (kind : String) :
    (((told fold seen).counts.find? fun entry => fold entry.1 = fold kind).map (·.2)).getD 0
      = ((seen.map (·.2)).countP fun other => fold other = fold kind : Int) := by
  rw [told, List.find?_map, Option.map_map]
  cases hfind : (firstSpellings fold (seen.map (·.2))).find?
      ((fun entry : String × Int => decide (fold entry.1 = fold kind)) ∘ fun other =>
        (other, ((seen.map (·.2)).countP fun k => fold k = fold other : Int))) with
  | some first =>
    have hfold : fold first = fold kind := by simpa using List.find?_some hfind
    simp [hfold]
  | none =>
    -- a kind without a counter was not met
    have hzero : ((seen.map (·.2)).countP fun other => fold other = fold kind) = 0 := by
      refine List.countP_eq_zero.mpr fun other hother => ?_
      obtain ⟨first, hfirst, hfold⟩ := exists_firstSpelling fold hother
      have hnone := List.find?_eq_none.mp hfind first hfirst
      simpa [hfold] using hnone
    rw [hzero]
    rfl

theorem sum_alter (table : Assoc String Int) (key : String) :
    (Assoc.values (Assoc.alter table key fun earlier => earlier.getD 0 + 1)).foldr (· + ·) (0 : Int)
      = (Assoc.values table).foldr (· + ·) 0 + 1 := by
  rw [Assoc.alter]
  induction table with
  | nil => rfl
  | cons entry rest ih =>
    rw [Assoc.get?_cons, Assoc.set]
    split
    · simp only [Assoc.values, List.map_cons, List.foldr_cons, Option.getD_some]
      omega
    · simp only [Assoc.values, List.map_cons, List.foldr_cons] at ih ⊢
      rw [ih, Int.add_assoc]

theorem sum_counts (seen : List (Nat × String)) :
    (Assoc.values (told fold seen).counts).foldr (· + ·) (0 : Int) = seen.length := by
  induction seen using List.reverseRec with
  | nil => rfl
  | append_singleton seen e ih =>
    rw [← count_told, List.length_append, List.length_singleton, Int.natCast_add, ← ih]
    exact sum_alter _ _

end Census

/-! ## The census of a tree -/

namespace SyntaxTree

variable (t : SyntaxTree)

/-- The nodes as the census meets them: how far below the root, and of what kind. -/
def met : List (Nat × String) := (t.root.levels 0).map fun e => (e.1, e.2.kind)

theorem kinds_met : t.met.map (·.2) = t.allNodes.map SyntaxNode.kind := by
  rw [met, allNodes, ← SyntaxNode.map_levels 0 t.root, List.map_map, List.map_map]
  rfl

theorem length_met : t.met.length = t.allNodes.length := by
  rw [← List.length_map (·.2), kinds_met, List.length_map]

/-- **The census of a tree is told by its nodes**, in document order and with their levels, however
the walk goes about it. -/
theorem census_eq (fold : String → String) :
    Census.walk fold {} [(0, t.root)] = Census.told fold t.met := by
  have hwalk := Census.walk_told fold [] [(0, t.root)]
  rwa [List.nil_append, List.flatMap_singleton] at hwalk

theorem max?_met (fold : String → String) :
    (t.met.map (·.1)).max? = some (Census.told fold t.met).deepest := by
  have hmet : ∃ kind below, t.met = (0, kind) :: below := by
    rw [met]
    cases t.root with
    | node id info children => exact ⟨info.kind, _, rfl⟩
  obtain ⟨kind, below, hmet⟩ := hmet
  rw [hmet, List.map_cons, List.max?_cons']
  rfl

theorem totalNodes_metricsBy (fold : String → String) :
    (t.metricsBy fold).totalNodes = t.allNodes.length := by
  rw [metricsBy, census_eq]
  exact congrArg Int.ofNat t.length_met

theorem totalNodes_metrics : t.metrics.totalNodes = t.allNodes.length :=
  t.totalNodes_metricsBy Text.caseFold

end SyntaxTree

end SyntaxForest
