import SyntaxForest.Proofs.Declaration.Entries
import SyntaxForest.Proofs.Forest.Freezing

/-!
# Syntax trees over frozen nodes

A syntax tree keeps only its root; whatever it is asked, it reads the nodes below. They were frozen
when it was made, so what it reads is what was there then.

* **`Forest.Preserves.holds`** — a tree of frozen nodes is held by every later forest that still has
  its root.
* **`SyntaxTree.reread`**, **`SyntaxTree.SameAnswers`** — the syntax tree as it is read in a later
  forest, and trees that answer all questions alike.
* **`Session.frozen_for_good`** — both, for every session and whatever happens to it.
-/

namespace SyntaxForest

/-! ## Trees of frozen nodes -/

namespace Forest

variable {f g : Forest}

mutual

theorem Preserves.holds (h : Preserves f g) (hg : g.Sound) :
    ∀ n : SyntaxNode, f.Holds n → (∀ x ∈ n.ids, f.isFrozen x = true) → g.Has n.id → g.Holds n
  | .node id info children, hn, hfrozen, hid => by
    rw [SyntaxNode.ids_node, List.forall_mem_cons] at hfrozen
    obtain ⟨⟨node, hnode, hinfo, hchildren⟩, hbelow⟩ := hn
    obtain ⟨later, hlater⟩ : ∃ later, g.get? id = some later := hid.exists_get?
    obtain ⟨before, hbefore, hsays, hhas⟩ := (h id (sealed_of_isFrozen hfrozen.1)).2 later hlater
    rw [hnode, Option.some.injEq] at hbefore
    subst hbefore
    have hlinks : later.children = children.map SyntaxNode.id := hhas.symm.trans hchildren
    -- the children are still children, and so they are still there
    refine ⟨⟨later, hlater, hsays.symm.trans hinfo, hlinks⟩,
      Preserves.holdsAll h hg children hbelow hfrozen.2 fun m hm => hg.has_child (p := id) ?_⟩
    rw [children_of_get? hlater, hlinks]
    exact List.mem_map.mpr ⟨m, hm, rfl⟩

theorem Preserves.holdsAll (h : Preserves f g) (hg : g.Sound) :
    ∀ nodes : List SyntaxNode, f.HoldsAll nodes →
      (∀ x ∈ SyntaxNode.idsAll nodes, f.isFrozen x = true) →
      (∀ m ∈ nodes, g.Has m.id) → g.HoldsAll nodes
  | [], _, _, _ => trivial
  | n :: rest, hn, hfrozen, hids => by
    rw [SyntaxNode.idsAll_cons, List.forall_mem_append] at hfrozen
    rw [List.forall_mem_cons] at hids
    exact ⟨Preserves.holds h hg n hn.1 hfrozen.1 hids.1,
      Preserves.holdsAll h hg rest hn.2 hfrozen.2 hids.2⟩

end

end Forest

/-- **A syntax tree is held by every later forest that still has its root.** -/
theorem SyntaxTree.holds_of_edits {f g : Forest} (hf : f.Sound) {root : Option NodeId}
    {source language file : Option String} {t : SyntaxTree}
    (hmake : make f root source language file = .ok t) (hedits : Forest.Edits t.nodes g)
    (hroot : g.Has t.root.id) : g.Sound ∧ g.Holds t.root := by
  obtain ⟨-, hholds, hnodes⟩ := make_ok hf hmake
  have hsame := f.sameNodes_freeze t.root.id
  -- edits keep forests sound, and making the tree changed no links
  have hg : g.Sound := hedits.sound (hnodes ▸ hf.sameLinks hsame.sameLinks)
  -- making the tree froze all of it
  have hfrozen : ∀ x ∈ t.root.ids, t.nodes.isFrozen x = true := by
    intro x hx
    rw [hnodes, hf.isFrozen_freeze hholds.has]
    exact Or.inr ((hf.mem_ids_iff hholds).mp hx)
  exact ⟨hg, hedits.preserves.holds hg t.root (hnodes ▸ hsame.holds t.root hholds) hfrozen hroot⟩

/-! ## Questions -/

namespace Converter

variable (c : Converter) (t : SyntaxTree) (f : Forest)

theorem classDecl_withNodes (n : SyntaxNode) :
    c.classDecl { t with nodes := f } n = c.classDecl t n := by
  induction n using classDecl.induct c with
  | case1 n ih =>
    have hclasses : (c.members n Classifier.isClass).map (c.classDecl { t with nodes := f })
        = (c.members n Classifier.isClass).map (c.classDecl t) :=
      List.map_congr_left fun m hm => ih ⟨m, hm⟩
    rw [classDecl_eq, classDecl_eq, hclasses]
    rfl

theorem namespaceDecl_withNodes (s : Site) :
    c.namespaceDecl { t with nodes := f } s = c.namespaceDecl t s := by
  induction s using namespaceDecl.induct c with
  | case1 s ih =>
    have hnamespaces : (c.within Classifier.isNamespace s).map
        (c.namespaceDecl { t with nodes := f })
        = (c.within Classifier.isNamespace s).map (c.namespaceDecl t) :=
      List.map_congr_left fun m hm => ih ⟨m, hm⟩
    rw [namespaceDecl_eq, namespaceDecl_eq, hnamespaces]
    simp only [classDecl_withNodes]
    rfl

theorem unit_withNodes : c.unit { t with nodes := f } = c.unit t := by
  have hnamespaces : c.namespaceDecl { t with nodes := f } = c.namespaceDecl t :=
    funext fun s => c.namespaceDecl_withNodes t f s
  rw [unit, unit, hnamespaces]
  simp only [classDecl_withNodes]
  rfl

end Converter

namespace SyntaxTree

/-- The tree as it is read in another forest, from its root down. -/
def reread (t : SyntaxTree) (f : Forest) : Option SyntaxTree :=
  (f.view? t.root.id).map fun root => { t with nodes := f, root }

/-- The trees answer all questions alike: about nodes, places, texts and metrics, and whatever
converter is asked for declarations. -/
structure SameAnswers (t t' : SyntaxTree) : Prop where
  errors : t'.errors = t.errors
  allNodes : t'.allNodes = t.allNodes
  nodesOfKind : ∀ kind, t'.nodesOfKind kind = t.nodesOfKind kind
  nodesIn : ∀ category, t'.nodesIn category = t.nodesIn category
  nodeAt : ∀ position, t'.nodeAtGiven position = t.nodeAtGiven position
  nodeAtLine : ∀ line column, t'.nodeAtLineGiven line column = t.nodeAtLineGiven line column
  nodeText : ∀ node, t'.nodeText node = t.nodeText node
  metrics : t'.metrics = t.metrics
  declarations : t'.declarations = t.declarations
  /-- Whatever converter is asked. -/
  unit : ∀ c : Converter, c.convert (some t') = c.convert (some t)

theorem sameAnswers_withNodes (t : SyntaxTree) (f : Forest) :
    t.SameAnswers { t with nodes := f } where
  errors := rfl
  allNodes := rfl
  nodesOfKind _ := rfl
  nodesIn _ := rfl
  nodeAt _ := rfl
  nodeAtLine _ _ := rfl
  nodeText _ := rfl
  metrics := rfl
  declarations := by
    unfold declarations
    simp only [Converter.unit_withNodes]
  unit c := congrArg Except.ok (c.unit_withNodes t f)

end SyntaxTree

/-! ## Sessions -/

namespace Session

variable {s s' : Session}

theorem markOf_congr {x : NodeId} {node node' : Node} {mark : Mark}
    (hmarks : s'.marks.get? (x, mark) = s.marks.get? (x, mark))
    (hinfo : node'.toNodeInfo = node.toNodeInfo) :
    s'.markOf x node' mark = s.markOf x node mark := by
  unfold markOf
  rw [hmarks, hinfo]

/-- A syntax tree reads the same nodes at any later time, as long as its root is there. -/
theorem Leads.reread {id : NodeId} {source language file : Option String} {t : SyntaxTree}
    (hs : s.Tidy) (hmake : SyntaxTree.make s.forest (some id) source language file = .ok t)
    (h : Leads { s with forest := t.nodes } s') (hid : s'.forest.Has id) :
    t.reread s'.forest = some { t with nodes := s'.forest } := by
  obtain ⟨hroot, -, hnodes⟩ := SyntaxTree.make_ok hs.sound hmake
  cases hroot
  have htidy : Session.Tidy { s with forest := t.nodes } := hnodes ▸ hs.make t.root.id
  obtain ⟨hsound, hholds⟩ := SyntaxTree.holds_of_edits hs.sound hmake (h.edits htidy) hid
  rw [SyntaxTree.reread, hsound.view?_eq hholds]
  rfl

/-- **Frozen nodes are frozen for good.** Whatever steps were taken and whatever syntax trees were
made: all that is below a frozen node is frozen; at any later time a frozen node that is still there
is frozen, says what it said and has the same children in the same order; and a syntax tree answers
at any later time as it did when it was made. -/
theorem frozen_for_good (hs : Leads {} s) :
    (∀ x, ∀ y ∈ s.forest.descendants x, s.forest.isFrozen x = true → s.forest.isFrozen y = true)
      ∧ (∀ s', Leads s s' → ∀ x node node', s.forest.get? x = some node →
        s'.forest.get? x = some node' →
          node.frozen = true → node'.frozen = true ∧ node'.toNodeInfo = node.toNodeInfo
            ∧ node'.children = node.children ∧ ∀ mark, s'.markOf x node' mark
              = s.markOf x node mark)
      ∧ ∀ id source language file t, SyntaxTree.make s.forest (some id) source language file
        = .ok t →
          ∀ s', Leads { s with forest := t.nodes } s' → s'.forest.Has id →
            ∃ t', t.reread s'.forest = some t' ∧ t.SameAnswers t' := by
  have htidy := hs.tidy .empty
  have hclosed : s.forest.Closed := hs.closed .empty fun p c hp => by cases hp
  refine ⟨fun x y hy hx => ?_, fun s' h x node node' hnode hnode' hfrozen => ?_, ?_⟩
  · exact hclosed.isFrozen_of_mem_descendants htidy.sound hx hy
  -- a frozen node is sealed, and what is sealed is preserved
  · have hx : s.forest.Sealed x :=
      Forest.sealed_of_isFrozen ((Forest.isFrozen_of_get? hnode).trans hfrozen)
    obtain ⟨hsealed, hsame⟩ := h.preserves htidy x hx
    obtain ⟨before, hbefore, hinfo, hchildren⟩ := hsame node' hnode'
    rw [hnode, Option.some.injEq] at hbefore
    subst hbefore
    refine ⟨hsealed.2 node' hnode', hinfo.symm, hchildren.symm, fun mark => ?_⟩
    exact markOf_congr (h.marks htidy hx mark) hinfo.symm
  -- the tree is read again from its root, which gives the same tree in another forest
  · intro id source language file t hmake s' h hid
    exact ⟨_, h.reread htidy hmake hid, t.sameAnswers_withNodes s'.forest⟩

/-- A node with one below it is frozen. -/
def frozenPair : List Action :=
  [.create "whole" { kind := "module" }, .create "part" { kind := "name", text := some "x" },
    .addChild "whole" (some "part"), .freeze "whole"]

/-- The one below is asked to change in all ways, and then let go of. -/
def attempts : List Action :=
  [.setText "part" (.text "y"), .setMetadata "part" (some "key") (.bool true),
    .create "late" { kind := "late" },
    .addChild "part" (some "late"), .removeChild "whole" (some "part"), .release "part"]

/-- The session after the attempts. -/
def afterAttempts (s : Session) : Session := attempts.foldl (fun s a => (s.step a).1) s

/-- The frozen node says what it said, and the tree answers as it did. -/
theorem frozen_pair_for_good :
    (after frozenPair).forest.descendants 0 = [1] ∧ (after frozenPair).forest.isFrozen 1 = true
      ∧ (∃ node, (afterAttempts (after frozenPair)).forest.get? 1 = some node ∧ node.frozen = true
        ∧ node.text = some "x" ∧ node.metadata.isEmpty = true ∧ node.children = [])
      ∧ ∃ t t', SyntaxTree.make (after frozenPair).forest (some 0) (some "x") (some "text")
        none = .ok t
        ∧ t.reread (afterAttempts { after frozenPair with forest := t.nodes }).forest = some t'
        ∧ t.SameAnswers t' := by
  have hs : Leads {} (after frozenPair) := leads_foldl {} frozenPair
  obtain ⟨hbelow, hsame, htrees⟩ := frozen_for_good hs
  have hdescendants : (after frozenPair).forest.descendants 0 = [1] := by decide
  refine ⟨hdescendants, hbelow 0 1 (by rw [hdescendants]; exact List.mem_cons_self)
    (by decide), ?_, ?_⟩
  · have hfirst : ((after frozenPair).forest.get? 1).map
        (fun node => (node.frozen, node.text, node.metadata.isEmpty, node.children))
        = some (true, some "x", true, []) := by decide
    obtain ⟨node, hnode, hsays⟩ := Option.map_eq_some_iff.mp hfirst
    obtain ⟨later, hlater⟩ : ∃ later, (afterAttempts (after frozenPair)).forest.get? 1
        = some later :=
      Option.isSome_iff_exists.mp (by decide)
    obtain ⟨hfrozen, htext, hmetadata, hchildren⟩ : node.frozen = true ∧ node.text = some "x"
        ∧ node.metadata.isEmpty = true ∧ node.children = [] := by simpa using hsays
    obtain ⟨hstill, hinfo, hlinks, -⟩ :=
      hsame _ (leads_foldl _ attempts) 1 node later hnode hlater hfrozen
    exact ⟨later, hlater, hstill,
      by rw [hinfo, htext], by rw [hinfo, hmetadata], by rw [hlinks, hchildren]⟩
  · obtain ⟨t, hmake⟩ : ∃ t,
        SyntaxTree.make (after frozenPair).forest (some 0) (some "x") (some "text") none
          = .ok t := by
      cases hmade : SyntaxTree.make (after frozenPair).forest (some 0) (some "x")
        (some "text") none with
      | ok t => exact ⟨t, rfl⟩
      | error e =>
        have hok : (SyntaxTree.make (after frozenPair).forest (some 0) (some "x")
            (some "text") none).isOk
            = true := by decide
        rw [hmade] at hok
        cases hok
    obtain ⟨hroot, -, hnodes⟩ := SyntaxTree.make_ok (hs.tidy .empty).sound hmake
    have hstill : (afterAttempts { after frozenPair with forest := t.nodes }).forest.Has 0 := by
      rw [hnodes, ← Option.some.inj hroot, Forest.Has]
      decide
    obtain ⟨t', hread, hanswers⟩ :=
      htrees 0 (some "x") (some "text") none t hmake _ (leads_foldl _ attempts) hstill
    exact ⟨t, t', hmake, hread, hanswers⟩

end Session

end SyntaxForest
