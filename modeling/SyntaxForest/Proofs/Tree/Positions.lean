import SyntaxForest.Proofs.Native.Spans

/-!
# The node at a place

Going down into the first child that covers an offset finds the innermost node, since the spans of a
native tree are nested and stay nested when they are counted in characters.

* **`SyntaxNode.getLast?_filter_covers`** — on nested spans the search that never turns back finds
  the last covering node of the document order, and **`innermost_mem_preorder`** that it is inside
  all the others.
* **`Scan.Copies.nested`** — the copy of a well placed native tree is nested.
* **`SyntaxTree.places_answered`** — both together, and the same by line and column.
-/

namespace SyntaxForest

/-! ## Search in nested spans -/

namespace SyntaxNode

/-- No offset lies in both nodes. -/
def Apart (a b : SyntaxNode) : Prop := ∀ offset, a.covers offset = true → b.covers offset = false

mutual

/-- Every node covers what its children cover, and the children are apart. -/
def Nested : SyntaxNode → Prop
  | node id info children =>
    (∀ c ∈ children, ∀ offset, c.covers offset = true →
      (node id info children).covers offset = true)
      ∧ children.Pairwise Apart ∧ NestedAll children

def NestedAll : List SyntaxNode → Prop
  | [] => True
  | n :: rest => Nested n ∧ NestedAll rest

end

variable {offset : Int}

mutual

theorem covers_of_mem_preorder :
    ∀ {n m : SyntaxNode}, n.Nested → m ∈ n.preorder → m.covers offset = true →
      n.covers offset = true
  | .node id info children, m, h, hm, hcovers => by
    rw [Nested] at h
    rcases List.mem_cons.mp hm with rfl | hbelow
    · exact hcovers
    · obtain ⟨c, hc, hcovered⟩ := covers_of_mem_preorderAll h.2.2 hbelow hcovers
      exact h.1 c hc offset hcovered

theorem covers_of_mem_preorderAll :
    ∀ {nodes : List SyntaxNode} {m : SyntaxNode}, NestedAll nodes → m ∈ preorderAll nodes →
      m.covers offset = true → ∃ c ∈ nodes, c.covers offset = true
  | n :: rest, m, h, hm, hcovers => by
    rw [preorderAll, List.mem_append] at hm
    rcases hm with hn | hrest
    · exact ⟨n, List.mem_cons_self, covers_of_mem_preorder h.1 hn hcovers⟩
    · obtain ⟨c, hc, hcovered⟩ := covers_of_mem_preorderAll h.2 hrest hcovers
      exact ⟨c, List.mem_cons_of_mem _ hc, hcovered⟩

end

theorem filter_preorder_eq_nil {n : SyntaxNode} (h : n.Nested) (hn : n.covers offset = false) :
    n.preorder.filter (·.covers offset) = [] := by
  rw [List.filter_eq_nil_iff]
  intro m hm hcovers
  rw [covers_of_mem_preorder h hm hcovers] at hn
  cases hn

theorem filter_preorderAll_eq_nil {nodes : List SyntaxNode} (h : NestedAll nodes)
    (hnodes : ∀ n ∈ nodes, n.covers offset = false) :
    (preorderAll nodes).filter (·.covers offset) = [] := by
  rw [List.filter_eq_nil_iff]
  intro m hm hcovers
  obtain ⟨c, hc, hcovered⟩ := covers_of_mem_preorderAll h hm hcovers
  rw [hnodes c hc] at hcovered
  cases hcovered

mutual

/-- **On nested spans the search that never turns back finds the last covering node.** -/
theorem getLast?_filter_covers :
    ∀ {n : SyntaxNode}, n.Nested → n.covers offset = true →
      (n.preorder.filter (·.covers offset)).getLast? = some (n.innermost offset)
  | .node id info children, h, hn => by
    rw [Nested] at h
    have hbelow := getLast?_filter_covers_all h.2.2 h.2.1
    rw [preorder, List.filter_cons_of_pos hn, innermost, List.getLast?_cons, hbelow]

theorem getLast?_filter_covers_all :
    ∀ {nodes : List SyntaxNode}, NestedAll nodes → nodes.Pairwise Apart →
      ((preorderAll nodes).filter (·.covers offset)).getLast? = innermostOf offset nodes
  | [], _, _ => rfl
  | n :: rest, h, hapart => by
    obtain ⟨hfirst, hrest⟩ := List.pairwise_cons.mp hapart
    rw [preorderAll, List.filter_append, innermostOf]
    split
    · rename_i hn
      have hlater := filter_preorderAll_eq_nil h.2 fun m hm => hfirst m hm offset hn
      rw [hlater, List.append_nil, getLast?_filter_covers h.1 hn]
    · rename_i hn
      rw [filter_preorder_eq_nil h.1 (Bool.eq_false_iff.mpr hn), List.nil_append]
      exact getLast?_filter_covers_all h.2 hrest

end

mutual

/-- The innermost node is inside every node that covers the offset. -/
theorem innermost_mem_preorder :
    ∀ {n m : SyntaxNode}, n.Nested → m ∈ n.preorder → m.covers offset = true →
      n.innermost offset ∈ m.preorder
  | .node id info children, m, h, hm, hcovers => by
    rcases List.mem_cons.mp hm with rfl | hbelow
    · exact List.mem_of_mem_filter (List.mem_of_getLast? (getLast?_filter_covers h hcovers))
    · rw [Nested] at h
      obtain ⟨found, hfound, hmem⟩ := innermostOf_mem_preorder h.2.2 h.2.1 hbelow hcovers
      rw [innermost, hfound]
      exact hmem

theorem innermostOf_mem_preorder :
    ∀ {nodes : List SyntaxNode} {m : SyntaxNode}, NestedAll nodes → nodes.Pairwise Apart →
      m ∈ preorderAll nodes → m.covers offset = true →
      ∃ found, innermostOf offset nodes = some found ∧ found ∈ m.preorder
  | n :: rest, m, h, hapart, hm, hcovers => by
    obtain ⟨hfirst, hrest⟩ := List.pairwise_cons.mp hapart
    rw [preorderAll, List.mem_append] at hm
    rw [innermostOf]
    rcases hm with hn | hlater
    · rw [if_pos (covers_of_mem_preorder h.1 hn hcovers)]
      exact ⟨_, rfl, innermost_mem_preorder h.1 hn hcovers⟩
    · -- the node is in a later tree, which the first one is apart from
      obtain ⟨c, hc, hcovered⟩ := covers_of_mem_preorderAll h.2 hlater hcovers
      have hn : n.covers offset ≠ true := by
        intro hn
        rw [hfirst c hc offset hn] at hcovered
        cases hcovered
      rw [if_neg hn]
      exact innermostOf_mem_preorder h.2 hrest hlater hcovers

end

end SyntaxNode

/-! ## Native trees with nested spans -/

namespace NativeTree

/-- The spans of a native tree lie in a text of so many bytes, those of children inside the
parent's, and those of siblings one after another. -/
structure Placed (root : NativeTree) (size : Nat) : Prop where
  within : ∀ m ∈ root.preorder,
    0 ≤ m.info.startByte ∧ m.info.startByte ≤ m.info.stopByte ∧ m.info.stopByte ≤ size
  inside : ∀ m ∈ root.preorder, ∀ c ∈ m.children,
    m.info.startByte ≤ c.info.startByte ∧ c.info.stopByte ≤ m.info.stopByte
  ordered : ∀ m ∈ root.preorder, m.children.Pairwise fun a b => a.info.stopByte ≤ b.info.startByte

variable {size : Nat} {root c : NativeTree}

theorem Placed.of_subset (h : root.Placed size) (hc : c.preorder ⊆ root.preorder) :
    c.Placed size where
  within m hm := h.within m (hc hm)
  inside m hm := h.inside m (hc hm)
  ordered m hm := h.ordered m (hc hm)

theorem Placed.child (h : root.Placed size) (hc : c ∈ root.children) : c.Placed size :=
  h.of_subset (preorder_subset_of_child hc)

theorem Placed.of_mem_kept {s : Scan} {m : NativeTree} (h : root.Placed size)
    (hm : m ∈ root.kept s) :
    m.Placed size :=
  h.of_subset (preorder_subset_of_mem_kept hm)

theorem Placed.exists_nodeInfo (h : root.Placed size) (settings : GrowthSettings)
    (source : String) :
    ∃ made, (Scan.ofSource settings source).nodeInfo root.info root.children = .ok made := by
  obtain ⟨hstart, hle, -⟩ := h.within root root.self_mem_preorder
  -- the name is one of the children, so its bytes are counted forwards too
  refine Scan.exists_nodeInfo hstart hle (Scan.nameOf_eq fun name hname => ?_)
  have hchild : name ∈ root.children := List.mem_of_find?_eq_some hname
  obtain ⟨hstart, hle, -⟩ := (h.child hchild).within name name.self_mem_preorder
  exact ⟨hstart, Int.le_trans hstart hle⟩

end NativeTree

namespace Scan

variable {settings : GrowthSettings} {source : String}

theorem covers_iff_of_span {n : SyntaxNode} {start stop : Nat} {h : start ≤ stop} {offset : Int}
    (hspan : n.span = some (spanOf source start stop h)) :
    n.covers offset = true ↔ start ≤ offset ∧ offset < stop := by
  rw [SyntaxNode.covers, hspan]
  show (decide _ && decide _) = true ↔ _
  rw [Bool.and_eq_true, decide_eq_true_eq, decide_eq_true_eq]
  exact Iff.rfl

theorem span_of_nodeInfo {m : NativeTree} {made : NodeInfo} {size : Nat} (hplaced : m.Placed size)
    (h : (ofSource settings source).nodeInfo m.info m.children = .ok made) :
    ∃ hle, made.span = some (spanOf source (charOffset source m.info.startByte)
      (charOffset source m.info.stopByte) hle) := by
  obtain ⟨hstart, hle, -⟩ := hplaced.within m m.self_mem_preorder
  exact ⟨charOffset_mono source hle, (nodeInfo_ok hstart hle h).2⟩

theorem Copies.covers_iff {m : NativeTree} {n : SyntaxNode} {size : Nat} {offset : Int}
    (h : (ofSource settings source).Copies m n) (hplaced : m.Placed size) :
    n.covers offset = true
      ↔ charOffset source m.info.startByte ≤ offset
        ∧ offset < charOffset source m.info.stopByte := by
  cases m with
  | node info isName children =>
    cases n with
    | node id made nodes =>
      obtain ⟨hle, hspan⟩ := span_of_nodeInfo hplaced h.2.1
      exact covers_iff_of_span hspan

mutual

/-- **The copy of a well placed native tree is nested.** Offsets in characters do not fall as
offsets in bytes grow, which keeps children inside and siblings apart. -/
theorem Copies.nested {size : Nat} :
    ∀ {m : NativeTree} {n : SyntaxNode}, (ofSource settings source).Copies m n →
      m.Placed size → n.Nested
  | .node info isName children, .node id made nodes, h, hplaced => by
    have hchildren : ∀ c ∈ children, c.Placed size := fun c hc => hplaced.child hc
    have hbelow := h.2.2
    refine ⟨fun n hn offset hcovers => ?_,
      hbelow.pairwise (hplaced.ordered _ (NativeTree.self_mem_preorder _)) ?_,
      hbelow.nested hchildren⟩
    -- a child is inside its parent
    · obtain ⟨m, hm, hcopies⟩ := hbelow.exists_copied n hn
      obtain ⟨hstart, hstop⟩ := hplaced.inside _ (NativeTree.self_mem_preorder _) m hm
      have hfirst := charOffset_mono source hstart
      have hlast := charOffset_mono source hstop
      rw [hcopies.covers_iff (hchildren m hm)] at hcovers
      rw [h.covers_iff hplaced]
      omega
    -- and siblings are one after another, also if some between them are left out
    · intro a ha b hb hab m n hm hn offset hcovers
      have hbetween := charOffset_mono source hab
      rw [hm.covers_iff (hchildren a ha)] at hcovers
      rw [Bool.eq_false_iff, ne_eq, hn.covers_iff (hchildren b hb)]
      omega

theorem CopiesAll.nested {size : Nat} :
    ∀ {natives : List NativeTree} {nodes : List SyntaxNode},
      (ofSource settings source).CopiesAll natives nodes → (∀ m ∈ natives, m.Placed size) →
      SyntaxNode.NestedAll nodes
  | [], nodes, h, _ => by
    rw [CopiesAll] at h
    subst h
    trivial
  | m :: rest, nodes, h, hplaced => by
    rw [CopiesAll] at h
    have hrest : ∀ c ∈ rest, c.Placed size := fun c hc => hplaced c (List.mem_cons_of_mem _ hc)
    split at h
    · obtain ⟨n, others, rfl, hn, hothers⟩ := h
      exact ⟨hn.nested (hplaced m List.mem_cons_self), hothers.nested hrest⟩
    · exact CopiesAll.nested h hrest

end

end Scan

/-! ## Questions by place -/

namespace SyntaxTree

variable {t : SyntaxTree}

/-- The character at an offset stands on a line and in a column: reading all before it leads
there. -/
def CharAt (t : SyntaxTree) (line column : Int) (offset : Nat) : Prop :=
  offset < t.source.length ∧ line = (LineIndex.placeAfter (t.source.toList.take offset)).1
    ∧ column = (LineIndex.placeAfter (t.source.toList.take offset)).2

theorem nodeAt?_eq (hnested : t.root.Nested)
    (hwithin : ∀ offset, t.root.covers offset = true → 0 ≤ offset ∧ offset < t.source.length)
    (offset : Int) : t.nodeAt? offset = (t.allNodes.filter (·.covers offset)).getLast? := by
  rw [nodeAt?, allNodes]
  by_cases hcovers : t.root.covers offset = true
  · have := hwithin offset hcovers
    rw [if_neg (by simp; omega), if_pos hcovers, SyntaxNode.getLast?_filter_covers hnested hcovers]
  · rw [SyntaxNode.filter_preorder_eq_nil hnested (Bool.eq_false_iff.mpr hcovers),
      if_neg hcovers, ite_self]
    rfl

theorem nodeAtLineGiven_int (t : SyntaxTree) (line column : Int) :
    t.nodeAtLineGiven (.int line) (.int column) = .ok (t.nodeAtLine? line column) := by
  rw [nodeAtLineGiven, LineIndex.offsetGiven_int, nodeAtLine?]
  cases t.lineIndex.offset? line column <;> rfl

theorem nodeAtLine?_of_charAt {line column : Int} {offset : Nat} (h : t.CharAt line column offset) :
    t.nodeAtLine? line column = t.nodeAt? offset := by
  rw [nodeAtLine?, lineIndex, LineIndex.offset?_eq_some_iff.mpr h]
  rfl

theorem nodeAtLine?_eq_none {line column : Int} (h : ∀ offset, ¬t.CharAt line column offset) :
    t.nodeAtLine? line column = none := by
  rw [nodeAtLine?, lineIndex]
  cases hfound : (LineIndex.ofText t.source).offset? line column with
  | none => rfl
  | some offset => exact absurd (LineIndex.offset?_eq_some_iff.mp hfound) (h offset)

/-- Questions by place are answered by the innermost node there. A place is an offset, or a line and
a column, which stand for the offset of one character. -/
structure AnswersPlaces (t : SyntaxTree) : Prop where
  /-- The answer is the last node in document order that covers the offset. -/
  last : ∀ offset : Int,
    t.nodeAtGiven (.int offset) = .ok (t.allNodes.filter (·.covers offset)).getLast?
  /-- It is inside all nodes that cover the offset. -/
  deepest : ∀ (offset : Int) n, t.nodeAtGiven (.int offset) = .ok (some n) →
    ∀ m ∈ t.allNodes, m.covers offset = true → n ∈ m.preorder
  none_iff : ∀ offset : Int, t.nodeAtGiven (.int offset) = .ok none
    ↔ (offset < 0 ∨ t.source.length ≤ offset) ∨ ∀ m ∈ t.allNodes, m.covers offset = false
  /-- A line and a column are the place of one character at most. -/
  unique : ∀ line column i j, t.CharAt line column i → t.CharAt line column j → i = j
  byLine : ∀ line column offset, t.CharAt line column offset →
    t.nodeAtLineGiven (.int line) (.int column) = t.nodeAtGiven (.int offset)
  noLine : ∀ line column, (∀ offset, ¬t.CharAt line column offset) →
    t.nodeAtLineGiven (.int line) (.int column) = .ok none
  /-- At the place where a node begins that is not empty, the answer is that node or one below
  it. -/
  start : ∀ n ∈ t.allNodes, ∃ span line column, n.span = some span ∧ span.startLine = some line
    ∧ span.startColumn = some column ∧ (span.start < span.stop →
      ∃ m ∈ n.preorder, t.nodeAtLineGiven (.int line) (.int column) = .ok (some m))

/-- All nodes cover a stretch of the text, with its lines and columns. -/
def AllSpanned (t : SyntaxTree) : Prop :=
  ∀ n ∈ t.allNodes, ∃ start stop h, stop ≤ t.source.length
    ∧ n.span = some (Scan.spanOf t.source start stop h)

/-- **A nested tree answers questions by place**, if all its nodes cover stretches of the text.
Nodes that cover an offset then lie inside one another, so that the last in document order is the
innermost one. -/
theorem answersPlaces (hnested : t.root.Nested) (hspanned : t.AllSpanned) : t.AnswersPlaces := by
  have hgiven : ∀ offset : Int, t.nodeAtGiven (.int offset) = .ok (t.nodeAt? offset) := fun _ => rfl
  have hwithin : ∀ offset, t.root.covers offset = true → 0 ≤ offset ∧ offset < t.source.length := by
    intro offset hcovers
    obtain ⟨start, stop, hle, hstop, hspan⟩ := hspanned t.root t.root.self_mem_preorder
    rw [Scan.covers_iff_of_span hspan] at hcovers
    omega
  have hlast := nodeAt?_eq hnested hwithin
  -- every node that covers the offset has the answer below it
  have hdeepest : ∀ offset, ∀ m ∈ t.allNodes, m.covers offset = true →
      ∃ n ∈ m.preorder, t.nodeAt? offset = some n := by
    intro offset m hm hcovers
    refine ⟨_, SyntaxNode.innermost_mem_preorder hnested hm hcovers, ?_⟩
    rw [hlast]
    exact SyntaxNode.getLast?_filter_covers hnested
      (SyntaxNode.covers_of_mem_preorder hnested hm hcovers)
  constructor
  case last =>
    intro offset
    rw [hgiven, hlast]
  case deepest =>
    intro offset n hn m hm hcovers
    obtain ⟨found, hfound, hanswer⟩ := hdeepest offset m hm hcovers
    rw [hgiven, hanswer, Except.ok.injEq, Option.some.injEq] at hn
    exact hn ▸ hfound
  case none_iff =>
    intro offset
    rw [hgiven, Except.ok.injEq]
    constructor
    · intro hnone
      refine Or.inr fun m hm => ?_
      by_contra hcovers
      obtain ⟨found, -, hanswer⟩ := hdeepest offset m hm (by simpa using hcovers)
      rw [hanswer] at hnone
      cases hnone
    · rintro (houtside | hnobody)
      · rw [nodeAt?, if_pos (by simpa using houtside)]
      · rw [hlast, List.filter_eq_nil_iff.mpr (fun m hm => Bool.eq_false_iff.mp (hnobody m hm))]
        rfl
  case unique =>
    intro line column i j hi hj
    have hsame := (LineIndex.offset?_eq_some_iff.mpr hi).symm.trans
      (LineIndex.offset?_eq_some_iff.mpr hj)
    exact Option.some.inj hsame
  case byLine =>
    intro line column offset hat
    rw [nodeAtLineGiven_int, nodeAtLine?_of_charAt hat, hgiven]
  case noLine =>
    intro line column hnone
    rw [nodeAtLineGiven_int, nodeAtLine?_eq_none hnone]
  case start =>
    intro n hn
    obtain ⟨start, stop, hle, hstop, hspan⟩ := hspanned n hn
    refine ⟨_, _, _, hspan, rfl, rfl, fun hlt => ?_⟩
    replace hlt : start < stop := hlt
    have hplace := LineIndex.lineColumn_eq t.source start (Nat.le_trans hle hstop)
    have hat : t.CharAt ((LineIndex.ofText t.source).lineColumn start).1
        ((LineIndex.ofText t.source).lineColumn start).2 start :=
      ⟨Nat.lt_of_lt_of_le hlt hstop, by rw [hplace], by rw [hplace]⟩
    have hcovers : n.covers start = true := (Scan.covers_iff_of_span hspan).mpr (by omega)
    obtain ⟨m, hm, hanswer⟩ := hdeepest start n hn hcovers
    exact ⟨m, hm, by rw [nodeAtLineGiven_int, nodeAtLine?_of_charAt hat, hanswer]⟩

/-- **Places are answered by the innermost node.** For a well placed native tree, whichever of its
nodes are kept: the tree is made of it just when the kept nodes have kinds, and then it answers
questions by place. -/
theorem places_answered (settings : GrowthSettings) (source : String) (root : NativeTree)
    (h : root.Placed source.utf8ByteSize) :
    ((∃ t, MadeFrom t settings source root)
        ↔ ∀ m ∈ root.kept (Scan.ofSource settings source), m.info.kind ≠ "")
      ∧ ∀ t, MadeFrom t settings source root → t.AnswersPlaces := by
  constructor
  · rw [exists_madeFrom_iff]
    exact forall₂_congr fun m hm =>
      and_iff_left ((NativeTree.Placed.of_mem_kept h hm).exists_nodeInfo settings source)
  -- the copy is nested, and each of its nodes has the span of a native node
  · intro t ht
    obtain ⟨rfl, hcopies⟩ := ht.copies
    refine answersPlaces (hcopies.nested h) ?_
    intro n hn
    obtain ⟨m, hm, hmade⟩ := hcopies.exists_native hn
    have hplaced := NativeTree.Placed.of_mem_kept h hm
    obtain ⟨hle, hspan⟩ := Scan.span_of_nodeInfo hplaced hmade
    refine ⟨_, _, hle, Scan.charOffset_le ?_, hspan⟩
    exact (hplaced.within m m.self_mem_preorder).2.2

/-- A name behind a letter of two bytes. -/
theorem four_bytes_answered :
    fourBytes.Placed "é\nx".utf8ByteSize ∧ ∃ t, MadeFrom t {} "é\nx" fourBytes
      ∧ t.AnswersPlaces := by
  have hall : ∀ {P : NativeTree → Prop}, P fourBytes → P lastByte →
      ∀ m ∈ fourBytes.preorder, P m := by
    rintro P hfirst hlast m (_ | ⟨_, _ | ⟨_, ⟨⟩⟩⟩)
    · exact hfirst
    · exact hlast
  have hplaced : fourBytes.Placed "é\nx".utf8ByteSize := by
    constructor
    · exact hall (by decide) (by decide)
    · refine hall ?_ ?_
      · rintro c (_ | ⟨_, ⟨⟩⟩)
        decide
      · rintro c ⟨⟩
    · exact hall (List.pairwise_singleton _ _) .nil
  obtain ⟨hmade, hanswers⟩ := places_answered {} "é\nx" fourBytes hplaced
  obtain ⟨t, ht⟩ := hmade.mpr (by
    rw [kept_fourBytes]
    rintro m (_ | ⟨_, _ | ⟨_, ⟨⟩⟩⟩) <;> decide)
  exact ⟨hplaced, t, ht, hanswers t ht⟩

end SyntaxTree

end SyntaxForest
