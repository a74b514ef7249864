import SyntaxForest.Proofs.Tree.Positions

/-!
# The tree grown is the recursive copy

The stack from which nodes are made leaves no trace: the syntax tree of a native tree is the copy
that a recursion over the native tree describes, down to the numbers of its nodes.

* **`NativeTree.description`**, **`NativeTree.copy`** — what the node of a native node is to say,
  and the recursive copy.
* **`Scan.Copies.eq_copy`** — a copy whose nodes are numbered one after another is the recursive
  one.
* **`SyntaxTree.built_as_copied`** — growing succeeds on native trees that are well formed, and
  gives that copy, its nodes and its diagnostics.
-/

namespace SyntaxForest

/-! ## The recursive copy -/

namespace NativeTree

/-- The native node has a kind and covers bytes of a text, which are counted from zero. -/
structure WellFormed (m : NativeTree) : Prop where
  kind : m.info.kind ≠ ""
  start_nonneg : 0 ≤ m.info.startByte
  start_le_stop : m.info.startByte ≤ m.info.stopByte

instance (m : NativeTree) : Decidable m.WellFormed :=
  decidable_of_iff (m.info.kind ≠ "" ∧ 0 ≤ m.info.startByte ∧ m.info.startByte ≤ m.info.stopByte)
    ⟨fun h => ⟨h.1, h.2.1, h.2.2⟩, fun h => ⟨h.kind, h.start_nonneg, h.start_le_stop⟩⟩

/-- The characters that a native node covers, with lines and columns. -/
def charSpan? (source : String) (info : NativeInfo) : Option Span :=
  if h : Scan.charOffset source info.startByte ≤ Scan.charOffset source info.stopByte then
    some (Scan.spanOf source _ _ h)
  else none

/-- What the node of a native node is to say. -/
def description (settings : GrowthSettings) (source : String) (m : NativeTree) : NodeInfo where
  kind := m.info.kind
  name := Scan.nameText source m.children
  span := charSpan? source m.info
  text := some ((Scan.ofSource settings source).capture (Scan.charOffset source m.info.startByte)
    (Scan.charOffset source m.info.stopByte))
  isError := m.info.isError
  isMissing := m.info.isMissing
  metadata := [("is_named", .bool m.info.isNamed), ("has_error", .bool m.info.hasError)]

mutual

/-- The copy of a native tree with its nodes numbered in document order. A child is copied, with
what is below it, if it is named, failed or made up, or if anonymous nodes are wanted. -/
def copy (settings : GrowthSettings) (source : String) (id : NodeId) : NativeTree → SyntaxNode
  | node info isName children =>
    .node id ((node info isName children).description settings source)
      (copyAll settings source (id + 1) children)

def copyAll (settings : GrowthSettings) (source : String) (id : NodeId) :
    List NativeTree → List SyntaxNode
  | [] => []
  | n :: rest =>
    if n.info.isNamed ∨ n.info.isError ∨ n.info.isMissing ∨ settings.keepAnonymous then
      let copied := copy settings source id n
      copied :: copyAll settings source (id + copied.ids.length) rest
    else copyAll settings source id rest

end

end NativeTree

namespace Scan

variable {settings : GrowthSettings} {source : String}

theorem keeps_iff {info : NativeInfo} :
    (ofSource settings source).keeps info = true
      ↔ info.isNamed ∨ info.isError ∨ info.isMissing ∨ settings.keepAnonymous := by
  show (_ || _ || _ || settings.keepAnonymous) = true ↔ _
  rw [Bool.or_eq_true, Bool.or_eq_true, Bool.or_eq_true, or_assoc, or_assoc]

/-- All native nodes from here on are well formed, so each can be described. -/
theorem nodeInfo_eq {m : NativeTree} (h : ∀ x ∈ m.preorder, x.WellFormed) :
    (ofSource settings source).nodeInfo m.info m.children
      = .ok (m.description settings source) := by
  obtain ⟨-, hstart, hle⟩ := h m m.self_mem_preorder
  have hname : (ofSource settings source).nameOf m.children = .ok (nameText source m.children) := by
    refine nameOf_eq fun name hname => ?_
    -- the name is one of the children, whether or not it is kept
    have hchild : name ∈ m.children := List.mem_of_find?_eq_some hname
    obtain ⟨-, hstart, hle⟩ :=
      h name (NativeTree.preorder_subset_of_child hchild name.self_mem_preorder)
    exact ⟨hstart, Int.le_trans hstart hle⟩
  have hmono := charOffset_mono source hle
  rw [nodeInfo, toChar_eq hstart, toChar_eq (Int.le_trans hstart hle), hname]
  simp only [bind, Except.bind]
  rw [span_eq hmono, NativeTree.description, NativeTree.charSpan?, dif_pos hmono]
  rfl

theorem describes_of_wellFormed {native : NativeTree} (h : ∀ m ∈ native.preorder, m.WellFormed) :
    ∀ m ∈ native.kept (ofSource settings source), (ofSource settings source).Describes m := by
  intro m hm
  have hbelow : ∀ x ∈ m.preorder, x.WellFormed :=
    fun x hx => h x (NativeTree.preorder_subset_of_mem_kept hm hx)
  exact ⟨(hbelow m m.self_mem_preorder).kind, _, nodeInfo_eq hbelow⟩

theorem Copies.length_ids {s : Scan} {m : NativeTree} {n : SyntaxNode} (h : s.Copies m n) :
    n.ids.length = (m.kept s).length := by
  rw [SyntaxNode.ids, List.length_map, h.forall₂.length_eq]

mutual

/-- A copy that is numbered in document order is the recursive one. -/
theorem Copies.eq_copy :
    ∀ {m : NativeTree} {n : SyntaxNode} {id : NodeId}, (ofSource settings source).Copies m n →
      n.ids = List.range' id (m.kept (ofSource settings source)).length →
      (∀ x ∈ m.preorder, x.WellFormed) → n = m.copy settings source id
  | .node info isName children, .node first made nodes, id, h, hids, hwell => by
    obtain ⟨-, hmade, hbelow⟩ := h
    rw [SyntaxNode.ids_node, NativeTree.kept, List.length_cons, List.range'_succ,
      List.cons.injEq] at hids
    obtain ⟨rfl, hids⟩ := hids
    have hinfo := (nodeInfo_eq hwell).symm.trans hmade
    rw [Except.ok.injEq] at hinfo
    subst hinfo
    rw [NativeTree.copy, hbelow.eq_copyAll hids fun x hx => hwell x (List.mem_cons_of_mem _ hx)]

theorem CopiesAll.eq_copyAll :
    ∀ {natives : List NativeTree} {nodes : List SyntaxNode} {id : NodeId},
      (ofSource settings source).CopiesAll natives nodes →
      SyntaxNode.idsAll nodes = List.range' id
        (NativeTree.keptAll (ofSource settings source) natives).length →
      (∀ x ∈ NativeTree.preorderAll natives, x.WellFormed) →
      nodes = NativeTree.copyAll settings source id natives
  | [], nodes, id, h, _, _ => h
  | native :: rest, nodes, id, h, hids, hwell => by
    rw [NativeTree.preorderAll, List.forall_mem_append] at hwell
    rw [CopiesAll] at h
    rw [NativeTree.keptAll] at hids
    rw [NativeTree.copyAll]
    by_cases hkeep : (ofSource settings source).keeps native.info = true
    · rw [if_pos hkeep] at h hids
      rw [if_pos (keeps_iff.mp hkeep)]
      obtain ⟨n, others, rfl, hn, hothers⟩ := h
      -- the numbers of the first copy come first, as many as it has nodes
      rw [SyntaxNode.idsAll_cons, List.length_append, ← List.range'_append_1] at hids
      obtain ⟨hfirst, hlater⟩ := List.append_inj hids (by rw [hn.length_ids, List.length_range'])
      have hcopy := hn.eq_copy hfirst hwell.1
      subst hcopy
      rw [← hn.length_ids] at hlater
      exact congrArg _ (hothers.eq_copyAll hlater hwell.2)
    · rw [if_neg hkeep] at h hids
      rw [if_neg fun hkept => hkeep (keeps_iff.mpr hkept)]
      exact CopiesAll.eq_copyAll h hids hwell.2

end

end Scan

namespace NativeTree

variable (settings : GrowthSettings) (source : String)

mutual

theorem map_info_copy : ∀ (m : NativeTree) (id : NodeId),
    (m.copy settings source id).preorder.map (·.info)
      = (m.kept (Scan.ofSource settings source)).map (·.description settings source)
  | node info isName children, id => by
    rw [copy, SyntaxNode.preorder, kept, List.map_cons, List.map_cons,
      map_info_copyAll children (id + 1)]
    rfl

theorem map_info_copyAll : ∀ (natives : List NativeTree) (id : NodeId),
    (SyntaxNode.preorderAll (copyAll settings source id natives)).map (·.info)
      = (keptAll (Scan.ofSource settings source) natives).map (·.description settings source)
  | [], id => rfl
  | n :: rest, id => by
    rw [copyAll, keptAll]
    by_cases hkept : n.info.isNamed ∨ n.info.isError ∨ n.info.isMissing ∨ settings.keepAnonymous
    · rw [if_pos hkept, if_pos (Scan.keeps_iff.mpr hkept), SyntaxNode.preorderAll, List.map_append,
        List.map_append, map_info_copy n id, map_info_copyAll rest]
    · rw [if_neg hkept, if_neg fun hkeep => hkept (Scan.keeps_iff.mp hkeep), map_info_copyAll rest]

end

end NativeTree

/-! ## The syntax tree -/

namespace SyntaxTree

/-- What is reported about a native node that failed. -/
def failure (source : String) (file : Option String) (m : NativeTree) : Diagnostic :=
  { message := "Syntax error", code := some m.info.kind, severity := .error
    span := NativeTree.charSpan? source m.info, file }

/-- The tree is the copy of the native tree, and its nodes and diagnostics are those of the kept
native nodes. -/
structure IsCopy (t : SyntaxTree) (settings : GrowthSettings) (native : NativeTree) : Prop where
  root : t.root = native.copy settings t.source 0
  /-- There is one node for each kept native node, in its place, and it says what the native node
  says. -/
  nodes : t.allNodes.map (·.info)
    = (native.kept (Scan.ofSource settings t.source)).map (·.description settings t.source)
  /-- No two of them are the same node. -/
  ids : t.allNodes.map (·.id) = List.range t.allNodes.length
  errors : t.errors = ((native.kept (Scan.ofSource settings t.source)).filter (·.info.isError)).map
    (failure t.source t.file)

theorem errors_eq_map_info (t : SyntaxTree) :
    t.errors = ((t.allNodes.map (·.info)).filter (·.isError)).map fun info =>
      { message := "Syntax error", code := some info.kind, span := info.span, file := t.file } := by
  rw [errors, List.filter_map, List.map_map]
  rfl

theorem IsCopy.of_copies {t : SyntaxTree} {settings : GrowthSettings} {native : NativeTree}
    (h : (Scan.ofSource settings t.source).Copies native t.root)
    (hids : t.root.ids = List.range' 0 (native.kept (Scan.ofSource settings t.source)).length)
    (hwell : ∀ m ∈ native.preorder, m.WellFormed) : t.IsCopy settings native := by
  have hroot := h.eq_copy hids hwell
  have hnodes : t.allNodes.map (·.info)
      = (native.kept (Scan.ofSource settings t.source)).map (·.description settings t.source) := by
    rw [allNodes, hroot, NativeTree.map_info_copy]
  refine ⟨hroot, hnodes, ?_, ?_⟩
  · have hlength := h.forall₂.length_eq
    rw [List.range_eq_range', allNodes, ← hlength]
    exact hids
  · rw [errors_eq_map_info, hnodes, List.filter_map, List.map_map]
    rfl

/-- **The tree grown is the recursive copy.** Whatever is kept, every well formed native tree is
grown, and its syntax tree is the copy of its kept part. -/
theorem built_as_copied (settings : GrowthSettings) (source language : String)
    (file : Option String) (native : NativeTree) (hlanguage : language ≠ "")
    (hwell : ∀ m ∈ native.preorder, m.WellFormed) :
    ∃ forest t, (NativeReply.tree (some native)).forest settings source = .ok forest
      ∧ SyntaxTree.make forest (some 0) (some source) (some language) file = .ok t
      ∧ t.source = source ∧ t.file = file ∧ t.IsCopy settings native := by
  obtain ⟨forest, t, hforest, hmake⟩ :=
    exists_grown hlanguage file (Scan.describes_of_wellFormed hwell)
  -- growing gives some copy, and it is numbered in document order
  obtain ⟨heq, hcopies, hids⟩ := of_grown hforest hmake
  have hsource : t.source = source := by rw [heq]
  subst hsource
  exact ⟨forest, t, hforest, hmake, rfl, by rw [heq], .of_copies hcopies hids hwell⟩

/-- A call without its closing bracket: an opening bracket, a failed node and a bracket that was
made up. -/
def openCall : NativeTree :=
  .node { kind := "call", startByte := 0, stopByte := 5, isNamed := true, hasError := true } false [
    .node { kind := "identifier", startByte := 0, stopByte := 2, isNamed := true } true [],
    .node { kind := "(", startByte := 2, stopByte := 3 } false [],
    .node {
        kind := "ERROR", startByte := 3, stopByte := 5, isNamed := true, isError := true,
        hasError := true } false [
      .node { kind := "number", startByte := 4, stopByte := 5, isNamed := true } false []],
    .node { kind := ")", startByte := 5, stopByte := 5, isMissing := true, hasError := true }
      false []]

/-- The opening bracket is left out and the one that was made up is not; what failed is reported in
characters. -/
theorem open_call_copied :
    (∀ m ∈ openCall.preorder, m.WellFormed) ∧ ∃ forest t,
      (NativeReply.tree (some openCall)).forest {} "é(~1" = .ok forest
        ∧ SyntaxTree.make forest (some 0) (some "é(~1") (some "calls") none = .ok t
        ∧ t.allNodes.map (fun n => (n.id, n.info.kind, n.info.name))
          = [(0, "call", some "é"), (1, "identifier", none), (2, "ERROR", none),
            (3, "number", none),
            (4, ")", none)]
        ∧ t.errors.map (fun d => (d.code, d.span.map fun span => (span.start, span.stop)))
          = [(some "ERROR", some (2, 4))] := by
  have hwell : ∀ m ∈ openCall.preorder, m.WellFormed := by decide
  obtain ⟨forest, t, hforest, hmake, hsource, hfile, hroot, -, -, herrors⟩ :=
    built_as_copied {} "é(~1" "calls" none openCall (by decide) hwell
  refine ⟨hwell, forest, t, hforest, hmake, ?_, ?_⟩
  · rw [allNodes, hroot, hsource]
    decide +kernel
  · rw [herrors, hsource, hfile]
    decide +kernel

end SyntaxTree

end SyntaxForest
