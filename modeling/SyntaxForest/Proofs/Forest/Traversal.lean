import SyntaxForest.Proofs.Forest.Sessions

/-!
# Going through a tree

Every walk keeps the nodes that it has still to visit on a stack. Here the walks are set against the
recursion that they take apart, and against the links upwards.

* **`Forest.Preorder`** — going through some nodes by recursion, each before what is below it.
* **`Sound.preorder_iff`** — the descendants of a node are what the recursion gives for its
  children.
* **`Sound.count_descendants`** — they are the nodes on whose path the node is, itself left out,
  each once.
* **`Cursor.Pending`**, **`Pending.advance`**, **`Pending.collect`** — what a stepwise walk has
  still to visit, what one step finds there, and what a whole walk finds.
* **`Forest.map_id_filter`** — the questions that a syntax tree answers about its nodes, asked of
  the forest.
* **`traversals_agree`** — all of it, for every forest.
-/

namespace SyntaxForest

namespace Forest

variable {f : Forest} {a x : NodeId} {xs ys l l' : List NodeId}

/-! ## The recursion -/

/-- Going through some nodes one after another, each before what is below it. -/
inductive Preorder (f : Forest) : List NodeId → List NodeId → Prop
  | nil : Preorder f [] []
  | cons {id : NodeId} {rest below after : List NodeId} (hbelow : Preorder f (f.children id) below)
      (hafter : Preorder f rest after) : Preorder f (id :: rest) (id :: (below ++ after))

namespace Preorder

theorem unique (h : f.Preorder xs l) (h' : f.Preorder xs l') : l = l' := by
  induction h generalizing l' with
  | nil =>
    cases h'
    rfl
  | cons _ _ ihbelow ihafter =>
    cases h' with
    | cons hbelow hafter => rw [ihbelow hbelow, ihafter hafter]

theorem append (h : f.Preorder xs l) (h' : f.Preorder ys l') : f.Preorder (xs ++ ys) (l ++ l') := by
  induction h with
  | nil => exact h'
  | cons hbelow _ _ ih =>
    rw [List.cons_append, List.cons_append, List.append_assoc]
    exact .cons hbelow ih

end Preorder

mutual

theorem preorder_of_holds :
    ∀ n : SyntaxNode, f.Holds n → ∀ {rest after}, f.Preorder rest after →
      f.Preorder (n.id :: rest) (n.ids ++ after)
  | .node id info children, hn, rest, after, hafter => by
    have hbelow := preorder_of_holdsAll children hn.2
    rw [← children_of_holds hn] at hbelow
    rw [SyntaxNode.ids_node, List.cons_append]
    exact .cons hbelow hafter

theorem preorder_of_holdsAll :
    ∀ nodes : List SyntaxNode, f.HoldsAll nodes →
      f.Preorder (nodes.map SyntaxNode.id) (SyntaxNode.idsAll nodes)
  | [], _ => .nil
  | n :: rest, hn => by
    rw [SyntaxNode.idsAll_cons]
    exact preorder_of_holds n hn.1 (preorder_of_holdsAll rest hn.2)

end

/-- The stack gives what the recursion gives. -/
theorem Sound.preorder_iff (hf : f.Sound) (ha : f.Has a) :
    f.Preorder (f.children a) l ↔ l = f.descendants a := by
  obtain ⟨⟨id, info, children⟩, rfl, hn⟩ := hf.exists_holds ha
  have hpreorder := preorder_of_holdsAll children hn.2
  rw [← children_of_holds hn, ← hf.descendants_eq hn] at hpreorder
  exact ⟨fun h => h.unique hpreorder, fun h => h ▸ hpreorder⟩

/-! ## The links upwards -/

theorem Sound.mem_path_iff (hf : f.Sound) (ha : f.Has a) : a ∈ f.path x ↔ f.Under x a := by
  have hascent : f.Ascends x (f.lineage x) := by
    by_cases hx : f.Has x
    · exact hf.ascends_lineage hx
    · -- a node that is not there has no parent
      have hroot : f.Ascends x [x] := by
        refine .root (Option.eq_none_iff_forall_ne_some.mpr fun p hp => ?_)
        exact hx (has_of_parent? hp)
      have hsize : [x].length ≤ f.size := Nat.lt_of_le_of_lt (Nat.zero_le a) ha.lt_size
      rwa [lineage, hroot.lineageFrom_eq hsize]
  rw [path, List.mem_reverse]
  constructor
  · exact fun hmem => ⟨_, hascent, hmem⟩
  · rintro ⟨l, hl, hmem⟩
    exact hl.unique hascent ▸ hmem

theorem Sound.nodup_descendants (hf : f.Sound) (ha : f.Has a) : (a :: f.descendants a).Nodup := by
  obtain ⟨n, rfl, hn⟩ := hf.exists_holds ha
  exact hf.ids_eq hn ▸ hf.nodup_ids n hn

theorem Sound.count_descendants (hf : f.Sound) (ha : f.Has a) (x : NodeId) :
    (f.descendants a).count x = if a ∈ f.path x ∧ a ≠ x then 1 else 0 := by
  obtain ⟨hself, hnodup⟩ := List.nodup_cons.mp (hf.nodup_descendants ha)
  -- both say that the node is below, with or without the node itself
  have hmem : x ∈ f.descendants a ↔ a ∈ f.path x ∧ a ≠ x := by
    rw [hf.mem_path_iff ha, ← hf.mem_descendants_iff ha, List.mem_cons]
    constructor
    · refine fun hx => ⟨Or.inr hx, ?_⟩
      rintro rfl
      exact hself hx
    · rintro ⟨rfl | hx, hne⟩
      · exact absurd rfl hne
      · exact hx
  by_cases hx : x ∈ f.descendants a
  · rw [if_pos (hmem.mp hx), List.count_eq_one_of_mem hnodup hx]
  · rw [if_neg (fun h => hx (hmem.mpr h)), List.count_eq_zero.mpr hx]

theorem Sound.length_descendants_lt (hf : f.Sound) (ha : f.Has a) :
    (f.descendants a).length < f.size := by
  obtain ⟨n, rfl, hn⟩ := hf.exists_holds ha
  have hsize := hf.size_le hn
  rwa [← n.length_ids, hf.ids_eq hn] at hsize

theorem Preorder.length_le (hf : f.Sound) (h : f.Preorder xs l) (hxs : ∀ x ∈ xs, f.Has x) :
    l.length ≤ xs.length * f.size := by
  induction h with
  | nil => exact Nat.zero_le _
  | @cons id rest below after hbelow _ _ ih =>
    rw [List.forall_mem_cons] at hxs
    have hfirst := hf.length_descendants_lt hxs.1
    rw [← (hf.preorder_iff hxs.1).mp hbelow] at hfirst
    have hothers := ih hxs.2
    rw [List.length_cons, List.length_append, List.length_cons, Nat.succ_mul]
    omega

end Forest

/-! ## Stepwise walks -/

namespace Cursor

variable {f : Forest} {cursor : Cursor} {stack l : List NodeId} (accepts : NodeId → Bool)

/-- The nodes that a walk has still to visit, in their order. -/
def Pending (f : Forest) : Cursor → List NodeId → Prop
  | fresh start, l => f.Preorder (f.children start) l
  | paused _ current stack, l => f.Preorder (f.children current ++ stack) l
  | finished, l => l = []

/-- What a step comes to when these nodes are pending: the first of them that is accepted and a walk
that has still to visit what comes after it, or the end. -/
inductive Finds (f : Forest) (l : List NodeId) : Option NodeId × Cursor → Prop
  | found {id : NodeId} {next : Cursor} {later : List NodeId}
      (hfirst : l.filter accepts = id :: later.filter accepts) (hlater : next.Pending f later) :
      Finds f l (some id, next)
  | ended (hnone : l.filter accepts = []) : Finds f l (none, finished)

/-- **The search with a stack finds the first node that is accepted**, and leaves on the stack what
comes after it. The induction is on the steps, for all stacks. -/
theorem finds_seek (start : NodeId) (h : f.Preorder stack l) {fuel : Nat}
    (hfuel : l.length < fuel) :
    Finds accepts f l (seek f accepts start fuel stack) := by
  induction fuel generalizing stack l with
  | zero => exact absurd hfuel (Nat.not_lt_zero _)
  | succ fuel ih =>
    cases h with
    | nil => exact .ended rfl
    | @cons id rest below after hbelow hafter =>
      -- what is below the node goes on top of the stack, so it comes before the rest
      have hnext := hbelow.append hafter
      rw [seek]
      by_cases haccepts : accepts id = true
      · rw [if_pos haccepts]
        exact .found (List.filter_cons_of_pos haccepts) hnext
      · rw [if_neg haccepts]
        have hfound := ih hnext (Nat.lt_of_succ_lt_succ hfuel)
        -- the node is passed over, so what is found is what is found after it
        generalize seek f accepts start fuel (f.children id ++ rest) = outcome at hfound
        cases hfound with
        | found hfirst hlater =>
          exact .found ((List.filter_cons_of_neg haccepts).trans hfirst) hlater
        | ended hnone => exact .ended ((List.filter_cons_of_neg haccepts).trans hnone)

theorem length_lt_bound (hf : f.Sound) (h : f.Preorder stack l) (hstack : ∀ x ∈ stack, f.Has x) :
    l.length < bound f stack := by
  have hlength := h.length_le hf hstack
  have hbound : stack.length * f.size ≤ stack.length * (f.size + 1) :=
    Nat.mul_le_mul_left _ (Nat.le_succ _)
  rw [bound]
  omega

/-- **One step** of a walk finds the first accepted node that is pending, and the walk ends when
there is none. -/
theorem Pending.advance (hf : f.Sound) (h : cursor.Pending f l)
    (hheld : ∀ x ∈ cursor.held, f.Has x) :
    Finds accepts f l (cursor.advance f accepts) := by
  cases cursor with
  | fresh start =>
    exact finds_seek accepts start h (length_lt_bound hf h fun x hx => hf.has_child hx)
  | paused start current stack =>
    refine finds_seek accepts start h (length_lt_bound hf h fun x hx => ?_)
    rcases List.mem_append.mp hx with hchild | hrest
    · exact hf.has_child hchild
    · exact hheld x (by simp [held, hrest])
  | finished =>
    obtain rfl : l = [] := h
    exact .ended rfl

/-- **A whole walk** finds the accepted nodes that are pending, as many as it is asked for, and it
ends when it is asked for more than there are. -/
theorem Pending.collect (hf : f.Sound) (h : cursor.Pending f l) (hheld : ∀ x ∈ cursor.held, f.Has x)
    (count : Nat) :
    (cursor.collect f accepts count).1 = (l.filter accepts).take count
      ∧ (cursor.collect f accepts count).2.1 = decide ((l.filter accepts).length < count) := by
  induction count generalizing cursor l with
  | zero => exact ⟨rfl, rfl⟩
  | succ count ih =>
    have hstep := h.advance accepts hf hheld
    have hnext := held_advance accepts hf hheld
    rw [Cursor.collect]
    generalize cursor.advance f accepts = outcome at hstep hnext ⊢
    -- either one node was found and the walk goes on, or the walk has come to its end
    cases hstep with
    | found hfirst hlater =>
      obtain ⟨hfound, hended⟩ := ih hlater hnext
      rw [hfirst]
      refine ⟨congrArg (_ :: ·) hfound, hended.trans (decide_eq_decide.mpr ?_)⟩
      rw [List.length_cons, Nat.add_lt_add_iff_right]
    | ended hnone =>
      rw [hnone]
      exact ⟨rfl, (decide_eq_true (Nat.succ_pos count)).symm⟩

end Cursor

/-! ## Questions about the nodes of a tree -/

namespace Forest

variable {f : Forest} {a : NodeId}

theorem Holds.get?_map {α : Type} (say : NodeInfo → α) {n : SyntaxNode} (h : f.Holds n) :
    (f.get? n.id).map (fun node => say node.toNodeInfo) = some (say n.info) := by
  cases n with
  | node id info children =>
    obtain ⟨⟨node, hnode, hinfo, -⟩, -⟩ := h
    rw [SyntaxNode.id, SyntaxNode.info, hnode, Option.map_some, hinfo]

section Nodes

variable {nodes : List SyntaxNode} (h : ∀ n ∈ nodes, f.Holds n)

include h

theorem map_id_filter (test : NodeInfo → Bool) :
    (nodes.filter fun n => test n.info).map SyntaxNode.id
      = (nodes.map SyntaxNode.id).filter fun x => (f.get? x).any fun node =>
        test node.toNodeInfo := by
  rw [List.filter_map]
  refine congrArg (List.map SyntaxNode.id) (List.filter_congr fun n hn => ?_)
  have hsays := (h n hn).get?_map test
  obtain ⟨node, hnode, htest⟩ := Option.map_eq_some_iff.mp hsays
  rw [Function.comp_apply, hnode, Option.any_some, htest]

theorem map_info_eq {α : Type} (say : NodeInfo → α) :
    nodes.map (fun n => say n.info)
      = (nodes.map SyntaxNode.id).filterMap fun x => (f.get? x).map fun node =>
        say node.toNodeInfo := by
  rw [List.filterMap_map, ← List.filterMap_eq_map]
  exact List.filterMap_congr fun n hn => ((h n hn).get?_map say).symm

theorem Sound.filterMap_view? (hf : f.Sound) :
    (nodes.map SyntaxNode.id).filterMap f.view? = nodes := by
  rw [List.filterMap_map]
  calc nodes.filterMap (f.view? ∘ SyntaxNode.id)
      = nodes.filterMap some := List.filterMap_congr fun n hn => hf.view?_eq (h n hn)
    _ = nodes := List.filterMap_some

end Nodes

/-- **The walks through a tree agree with each other and with the paths.** Take any forest whose
links form trees, and any node of it. Its descendants are what the recursion through its children
gives, each before what is below it. They are the nodes on whose path the node is, except itself,
and each is there once; the depth of a node is one less than the length of its path. A search finds
those of them that it accepts, whether all are asked for, the first one, or one after the other. A
syntax tree made of the node has it and them as its nodes, and looks among them for those of a kind
and for the errors that it reports. -/
theorem traversals_agree (hf : f.Sound) (ha : f.Has a) :
    (∀ l, f.Preorder (f.children a) l ↔ l = f.descendants a)
      ∧ (∀ x, f.Has x → (f.descendants a).count x = if a ∈ f.path x ∧ a ≠ x then 1 else 0)
      ∧ f.depth a + 1 = (f.path a).length
      ∧ (∀ accepts : NodeId → Bool,
          f.descendantsWhere a accepts = (f.descendants a).filter accepts
          ∧ f.findDescendant? a accepts = ((f.descendants a).filter accepts).head?
          ∧ ∀ count, ((Cursor.fresh a).collect f accepts count).1
            = ((f.descendants a).filter accepts).take count
            ∧ ((Cursor.fresh a).collect f accepts count).2.1
              = decide (((f.descendants a).filter accepts).length < count))
      ∧ ∀ source language file t, SyntaxTree.make f (some a) source language file = .ok t →
          t.allNodes.map SyntaxNode.id = a :: f.descendants a
          ∧ t.allNodes = (a :: f.descendants a).filterMap f.view?
          ∧ (∀ kind, (t.nodesOfKind kind).map SyntaxNode.id = (a :: f.descendants a).filter fun x =>
              (f.get? x).any fun node => Text.caseFold node.kind = Text.caseFold kind)
          ∧ t.errors = ((a :: f.descendants a).filter fun x => (f.get? x).any (·.isError)).filterMap
            fun x => (f.get? x).map fun node =>
              { message := "Syntax error", code := some node.kind, span := node.span,
                file := t.file } := by
  have hpending : (Cursor.fresh a).Pending f (f.descendants a) := (hf.preorder_iff ha).mpr rfl
  refine ⟨fun l => hf.preorder_iff ha, fun x _ => hf.count_descendants ha x, ?_,
    fun accepts => ⟨rfl, ?_, ?_⟩, ?_⟩
  · rw [path, List.length_reverse]
    exact hf.depth_lineage ha
  · rw [findDescendant?, List.head?_filter]
  · refine hpending.collect accepts hf fun x hx => ?_
    rw [List.mem_singleton.mp hx]
    exact ha
  · intro source language file t hmake
    obtain ⟨hroot, hholds, -⟩ := SyntaxTree.make_ok hf hmake
    cases hroot
    -- the tree is held by the forest that it was made of, so each of its nodes says what the forest
    -- says
    have hnodes : ∀ n ∈ t.allNodes, f.Holds n := fun n hn => holds_of_mem_preorder t.root hholds hn
    have hids : t.allNodes.map SyntaxNode.id = t.root.id :: f.descendants t.root.id :=
      hf.ids_eq hholds
    refine ⟨hids, ?_, fun kind => ?_, ?_⟩
    · rw [← hids, hf.filterMap_view? hnodes]
    · rw [← hids]
      exact map_id_filter hnodes fun info => Text.caseFold info.kind = Text.caseFold kind
    · have hfailed : ∀ n ∈ t.allNodes.filter (·.info.isError), f.Holds n := fun n hn =>
        hnodes n (List.mem_of_mem_filter hn)
      rw [← hids, ← map_id_filter hnodes (·.isError)]
      exact map_info_eq hfailed fun info =>
        ({ message := "Syntax error", code := some info.kind, span := info.span, file := t.file } :
          Diagnostic)

end Forest

namespace Session

/-- A node with two below it, the first of which has one of its own. -/
def branching : List Action :=
  [.create "whole" { kind := "module" }, .create "left" { kind := "block" },
    .create "inner" { kind := "name" },
    .create "right" { kind := "name" }, .addChild "whole" (some "left"),
    .addChild "left" (some "inner"),
    .addChild "whole" (some "right")]

/-- A stepwise walk that passes over the first child still visits the one below it. -/
theorem branching_traversed :
    (after branching).forest.Preorder [1, 3] [1, 2, 3]
      ∧ ((after branching).forest.descendants 0).count 2 = 1
      ∧ ((Cursor.fresh 0).collect (after branching).forest (· != 1) 5).1 = [2, 3] := by
  have hroot : (after branching).forest.Has 0 := by
    rw [Forest.Has]
    decide
  have hinner : (after branching).forest.Has 2 := by
    rw [Forest.Has]
    decide
  have hchildren : (after branching).forest.children 0 = [1, 3] := by decide
  have hbelow : (after branching).forest.descendants 0 = [1, 2, 3] := by decide
  have hpath : (after branching).forest.path 2 = [0, 1, 2] := by decide
  obtain ⟨hpreorder, hcount, -, hsearch, -⟩ :=
    Forest.traversals_agree (tidy_after branching).sound hroot
  refine ⟨?_, ?_, ?_⟩
  · rw [← hchildren, hpreorder, hbelow]
  · rw [hcount 2 hinner, hpath]
    decide
  · rw [((hsearch (· != 1)).2.2 5).1, hbelow]
    decide

end Session

end SyntaxForest
