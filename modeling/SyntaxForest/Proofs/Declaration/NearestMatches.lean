import SyntaxForest.Proofs.Declaration.Reading

/-!
# The nearest matches

A search with a stack leaves a node in one of three ways: the node is left out, or it is found, or
it closes a scope. Else its children take its place. What it finds in the end can be said of the
links upwards alone.

* **`Under.eq_or_child`** — a node below another one is below one of its children or is that node.
* **`Forest.IsNearest`** — the accepted nodes with nothing between them and a root that would stop a
  search.
* **`not_isNearest`**, **`isNearest_iff_eq`**, **`isNearest_iff_child`** — the three things that a
  root can be.
* **`Finds.pass`**, **`Finds.take`**, **`Finds.descend`** — one step of the search.
* **`Forest.nearest_finds`** — the whole search, with any stack.
* **`Converter.collects_nearest`** — the searches for declarations, from any roots that have no node
  in common.
-/

namespace SyntaxForest

open Reading

namespace Forest

variable {f : Forest} {a b r x : NodeId}

/-! ## Between two nodes -/

theorem Under.trans (h : f.Under x a) (h' : f.Under a b) : f.Under x b := by
  obtain ⟨l, hl, ha⟩ := h
  obtain ⟨l', hl', hb⟩ := h'
  obtain ⟨l'', hl'', hsuffix⟩ := hl.of_mem ha
  obtain rfl := hl'.unique hl''
  exact ⟨l, hl, hsuffix.subset hb⟩

theorem Under.antisymm (h : f.Under x a) (h' : f.Under a x) : x = a := by
  rcases h.cases with heq | ⟨p, hp, hpa⟩
  · exact heq
  · exact absurd (hpa.trans h') (not_under_child hp)

theorem Under.eq_or_child (hf : f.Sound) (h : f.Under x r) :
    x = r ∨ ∃ k ∈ f.children r, f.Under x k := by
  obtain ⟨l, hl, hr⟩ := h
  -- going up from the node, the last step before the other one leads through a child of it
  induction hl with
  | root => exact Or.inl (List.mem_singleton.mp hr).symm
  | @up id p _ hp _ ih =>
    rcases List.mem_cons.mp hr with rfl | hrest
    · exact Or.inl rfl
    · rcases ih hrest with rfl | ⟨k, hk, hunder⟩
      · exact Or.inr ⟨id, (hf.linked p id).mpr hp, hf.under_self id⟩
      · exact Or.inr ⟨k, hk, .of_parent hp hunder⟩

theorem Sound.under_of_child (hf : f.Sound) {k : NodeId} (hk : k ∈ f.children r) (h : f.Under x k) :
    f.Under x r :=
  h.parent ((hf.linked r k).mp hk)

/-! ## Nearest matches -/

section Search

variable (accept closed : NodeId → Bool) (skip : List NodeId)

/-- A search that starts at `r` finds the node `x` below: it is accepted and not left out, and of
the nodes on the way from `r` to it none is left out, accepted or closed. -/
structure IsNearest (f : Forest) (r x : NodeId) : Prop where
  under : f.Under x r
  accepted : accept x = true
  kept : x ∉ skip
  clear : ∀ a, f.Under a r → f.Under x a → a ≠ x → a ∉ skip ∧ accept a = false ∧ closed a = false

variable {accept closed skip}

theorem not_isNearest (hf : f.Sound) (h : r ∈ skip ∨ accept r = false ∧ closed r = true) :
    ¬f.IsNearest accept closed skip r x := by
  rintro ⟨hunder, haccepted, hkept, hclear⟩
  -- the root would be found itself, or it would be on the way to the node found
  by_cases hne : r = x
  · subst hne
    rcases h with hskip | ⟨hnot, -⟩
    · exact hkept hskip
    · rw [hnot] at haccepted
      cases haccepted
  · obtain ⟨hskip, -, hopen⟩ := hclear r (hf.under_self r) hunder hne
    rcases h with hmem | ⟨-, hclosed⟩
    · exact hskip hmem
    · rw [hopen] at hclosed
      cases hclosed

theorem isNearest_iff_eq (hf : f.Sound) (hkept : r ∉ skip) (haccept : accept r = true) :
    f.IsNearest accept closed skip r x ↔ x = r := by
  constructor
  · rintro ⟨hunder, -, -, hclear⟩
    by_contra hne
    obtain ⟨-, hnot, -⟩ := hclear r (hf.under_self r) hunder fun heq => hne heq.symm
    rw [haccept] at hnot
    cases hnot
  · rintro rfl
    exact ⟨hf.under_self x, haccept, hkept, fun a ha ha' hne => absurd (ha.antisymm ha') hne⟩

theorem isNearest_iff_child (hf : f.Sound) (hkept : r ∉ skip) (haccept : accept r = false)
    (hopen : closed r = false) :
    f.IsNearest accept closed skip r x ↔ ∃ k ∈ f.children r,
      f.IsNearest accept closed skip k x := by
  constructor
  · rintro ⟨hunder, haccepted, hx, hclear⟩
    rcases hunder.eq_or_child hf with rfl | ⟨k, hk, hxk⟩
    · rw [haccept] at haccepted
      cases haccepted
    · exact ⟨k, hk, hxk, haccepted, hx, fun a ha => hclear a (hf.under_of_child hk ha)⟩
  · rintro ⟨k, hk, hxk, haccepted, hx, hclear⟩
    refine ⟨hf.under_of_child hk hxk, haccepted, hx, fun a ha hxa hne => ?_⟩
    rcases ha.eq_or_child hf with rfl | ⟨k', hk', hak'⟩
    · exact ⟨hkept, haccept, hopen⟩
    · -- the way up from the node goes through one child only
      obtain rfl : k' = k :=
        eq_of_under_siblings ((hf.linked r k').mp hk') ((hf.linked r k).mp hk) (hxa.trans hak') hxk
      exact hclear a hak' hxa hne

/-! ## The stack -/

/-- The search from the nodes on the stack ends with what it has found, within as many steps as `l`
has nodes. It has found the nearest matches, in the order of `l`. -/
structure Finds (accept closed : NodeId → Bool) (skip : List NodeId) (f : Forest)
    (stack l found : List NodeId) :
    Prop where
  ends : ∀ limit, Ends l.length limit (f.nearest accept closed skip limit stack) found
  sublist : found.Sublist l
  mem_iff : ∀ x, x ∈ found ↔ ∃ r ∈ stack, f.IsNearest accept closed skip r x

namespace Finds

variable {id : NodeId} {rest below after found : List NodeId}

theorem nil (accept closed : NodeId → Bool) (skip : List NodeId) (f : Forest) :
    Finds accept closed skip f [] [] [] where
  ends limit := by cases limit <;> exact .ok []
  sublist := .refl _
  mem_iff x := by simp

theorem ends_of_step {stack stack' l l' found' : List NodeId}
    (h : Finds accept closed skip f stack' l' found') (hle : l'.length ≤ l.length)
    (hstep : ∀ limit, Ends (l.length + 1) (limit + 1) (f.nearest accept closed skip limit stack')
      found' → Ends (l.length + 1) (limit + 1)
        (f.nearest accept closed skip (limit + 1) (id :: stack)) found) :
    ∀ limit, Ends (id :: l).length limit (f.nearest accept closed skip limit (id :: stack))
      found := by
  intro limit
  rw [List.length_cons]
  cases limit with
  | zero => exact .overLimit (Nat.succ_pos _) found
  | succ limit => exact hstep limit ((h.ends limit).mono fun _ => by omega)

theorem length_after_le (below after : List NodeId) : after.length ≤ (below ++ after).length := by
  rw [List.length_append]
  omega

/-- A node that is left out, or that closes a scope, is passed over. -/
theorem pass (hf : f.Sound) (h : Finds accept closed skip f rest after found)
    (hstop : id ∈ skip ∨ accept id = false ∧ closed id = true) :
    Finds accept closed skip f (id :: rest) (id :: (below ++ after)) found where
  ends := by
    refine h.ends_of_step (length_after_le below after) fun limit hrest => ?_
    rw [nearest]
    by_cases hskip : skip.contains id = true
    · rwa [if_pos hskip]
    · obtain ⟨haccept, hclosed⟩ :=
        hstop.resolve_left fun hmem => hskip (List.contains_iff_mem.mpr hmem)
      rwa [if_neg hskip, if_neg (by simp [haccept]), if_pos hclosed]
  sublist := (h.sublist.trans (List.sublist_append_right _ _)).cons _
  mem_iff x := by
    simp only [h.mem_iff, List.mem_cons, exists_eq_or_imp, not_isNearest hf hstop, false_or]

/-- A node that is accepted is found. -/
theorem take (hf : f.Sound) (h : Finds accept closed skip f rest after found) (hkept : id ∉ skip)
    (haccept : accept id = true) :
    Finds accept closed skip f (id :: rest) (id :: (below ++ after)) (id :: found) where
  ends := by
    refine h.ends_of_step (length_after_le below after) fun limit hrest => ?_
    rw [nearest, if_neg (by simpa using hkept), if_pos haccept]
    exact hrest.bind (.ok _)
  sublist := (h.sublist.trans (List.sublist_append_right _ _)).cons_cons _
  mem_iff x := by
    simp only [h.mem_iff, List.mem_cons, exists_eq_or_imp, isNearest_iff_eq hf hkept haccept]

/-- The children of any other node take its place. -/
theorem descend (hf : f.Sound)
    (h : Finds accept closed skip f (f.children id ++ rest) (below ++ after) found)
    (hkept : id ∉ skip) (haccept : accept id = false) (hopen : closed id = false) :
    Finds accept closed skip f (id :: rest) (id :: (below ++ after)) found where
  ends := by
    refine h.ends_of_step (Nat.le_refl _) fun limit hinside => ?_
    rwa [nearest, if_neg (by simpa using hkept), if_neg (by simp [haccept]),
      if_neg (by simp [hopen])]
  sublist := h.sublist.cons _
  mem_iff x := by
    simp only [h.mem_iff, List.mem_append, List.mem_cons, or_and_right, exists_or, exists_eq_left,
      isNearest_iff_child hf hkept haccept hopen]

end Finds

variable (accept closed skip) in
/-- **A search with a stack finds the nearest matches**, whatever is on the stack. One step looks at
the topmost node; what is still to be gone through gets shorter with each. -/
theorem nearest_finds (hf : f.Sound) {stack l : List NodeId} (h : f.Preorder stack l) :
    ∃ found, Finds accept closed skip f stack l found := by
  -- every step shortens what is still to be gone through
  induction hlength : l.length using Nat.strongRecOn generalizing stack l with
  | ind length ih =>
    subst hlength
    cases h with
    | nil => exact ⟨[], .nil accept closed skip f⟩
    | @cons id rest below after hbelow hafter =>
      -- in all cases but one the search goes on with the rest of the stack
      obtain ⟨found, hfound⟩ :=
        ih after.length (Nat.lt_succ_of_le (Finds.length_after_le below after)) hafter rfl
      by_cases hskip : id ∈ skip
      · exact ⟨found, hfound.pass hf (Or.inl hskip)⟩
      · cases haccept : accept id with
        | true => exact ⟨id :: found, hfound.take hf hskip haccept⟩
        | false =>
          cases hclosed : closed id with
          | true => exact ⟨found, hfound.pass hf (Or.inr ⟨haccept, hclosed⟩)⟩
          | false =>
            obtain ⟨inside, hinside⟩ :=
              ih (below ++ after).length (Nat.lt_succ_self _) (hbelow.append hafter) rfl
            exact ⟨inside, hinside.descend hf hskip haccept hclosed⟩

end Search

/-! ## Trees apart -/

section Roots

variable (hf : f.Sound) {roots : List NodeId} (hroots : ∀ r ∈ roots, f.Has r)

include hf hroots

theorem Sound.preorder_flatMap :
    f.Preorder roots (roots.flatMap fun r => r :: f.descendants r) := by
  induction roots with
  | nil => exact .nil
  | cons r rest ih =>
    rw [List.forall_mem_cons] at hroots
    rw [List.flatMap_cons, List.cons_append]
    exact .cons ((hf.preorder_iff hroots.1).mpr rfl) (ih hroots.2)

variable (hapart : roots.Pairwise fun r r' => ∀ x, f.Under x r → ¬f.Under x r')

include hapart

theorem Sound.nodup_flatMap : (roots.flatMap fun r => r :: f.descendants r).Nodup := by
  refine List.nodup_flatMap.mpr ⟨fun r hr => hf.nodup_descendants (hroots r hr), ?_⟩
  refine hapart.imp_of_mem fun {r r'} hr hr' hnone x hx hx' => ?_
  exact hnone x ((hf.mem_descendants_iff (hroots r hr)).mp hx)
    ((hf.mem_descendants_iff (hroots r' hr')).mp hx')

theorem Sound.length_flatMap_le :
    (roots.flatMap fun r => r :: f.descendants r).length ≤ f.size := by
  refine length_le_size (hf.nodup_flatMap hroots hapart) fun x hx => ?_
  obtain ⟨r, hr, hxr⟩ := List.mem_flatMap.mp hx
  exact ((hf.mem_descendants_iff (hroots r hr)).mp hxr).has (hroots r hr)

end Roots

end Forest

namespace Converter

/-- **A search finds exactly the nearest matches.** Take any sound forest, nodes of it whose trees
have no node in common, any test and any nodes to leave out. The search from these nodes ends,
within as many steps as their trees have nodes, which is never more than the forest has. It finds,
each once and in document order, just the nodes of these trees that pass the test and are not left
out, and that have no node above them in their tree which is left out, passes the test or is a
declaration scope. -/
theorem collects_nearest (c : Converter) {f : Forest} (hf : f.Sound) {roots : List NodeId}
    (hroots : ∀ r ∈ roots, f.Has r)
    (hapart : roots.Pairwise fun r r' => ∀ x, f.Under x r → ¬f.Under x r') (accept : NodeId → Bool)
    (skip : List NodeId) :
    let nodes := roots.flatMap fun r => r :: f.descendants r
    ∃ found, (∀ limit, Ends nodes.length limit (c.collect f accept skip limit roots) found)
      ∧ nodes.length ≤ f.size
      ∧ found.Nodup
      ∧ found.Sublist nodes
      ∧ ∀ x, x ∈ found ↔ ∃ r ∈ roots, f.Under x r ∧ accept x = true ∧ x ∉ skip
          ∧ ∀ a, f.Under a r → f.Under x a → a ≠ x →
              a ∉ skip ∧ accept a = false ∧ f.isOf c.classifier.isScope a = false := by
  intro nodes
  obtain ⟨found, hends, hsub, hmem⟩ :=
    Forest.nearest_finds accept (f.isOf c.classifier.isScope) skip hf (hf.preorder_flatMap hroots)
  refine ⟨found, hends, hf.length_flatMap_le hroots hapart,
    hsub.nodup (hf.nodup_flatMap hroots hapart), hsub,
    fun x => (hmem x).trans ⟨?_, ?_⟩⟩
  · rintro ⟨r, hr, hx⟩
    exact ⟨r, hr, hx.under, hx.accepted, hx.kept, hx.clear⟩
  · rintro ⟨r, hr, hunder, haccepted, hkept, hclear⟩
    exact ⟨r, hr, hunder, haccepted, hkept, hclear⟩

/-- A list with a class that has a field, and with two fields under a condition; and one more field
by itself. -/
def scattered : Forest :=
  (Session.after [.create "list" { kind := "declaration_list" },
    .create "class" { kind := "class_declaration" },
    .create "hidden" { kind := "field_declaration" }, .create "condition" { kind := "preproc_if" },
    .create "field" { kind := "field_declaration" },
    .create "skipped" { kind := "field_declaration" },
    .create "alone" { kind := "field_declaration" }, .addChild "list" (some "class"),
    .addChild "class" (some "hidden"), .addChild "list" (some "condition"),
    .addChild "condition" (some "field"),
    .addChild "condition" (some "skipped")]).forest

/-- The field of the class is not found, for the class is a scope. -/
theorem fields_collected_around_class :
    scattered.Sound ∧ (∀ r ∈ [0, 6], scattered.Has r)
      ∧ [0, 6].Pairwise (fun r r' => ∀ x, scattered.Under x r → ¬scattered.Under x r')
      ∧ csharpConverter.collect scattered (scattered.isOf csharpConverter.classifier.isField)
        [5] 7 [0, 6]
        = .ok [4, 6]
      ∧ ∀ x, x ∈ [4, 6] ↔ ∃ r ∈ [0, 6], scattered.Under x r
          ∧ scattered.isOf csharpConverter.classifier.isField x = true ∧ x ∉ [5]
          ∧ ∀ a, scattered.Under a r → scattered.Under x a → a ≠ x →
              a ∉ [5] ∧ scattered.isOf csharpConverter.classifier.isField a = false
                ∧ scattered.isOf csharpConverter.classifier.isScope a = false := by
  have hsound : scattered.Sound := (Session.tidy_after _).sound
  have hroots : ∀ r ∈ [0, 6], scattered.Has r := by
    unfold Forest.Has
    decide
  have hapart : [0, 6].Pairwise fun r r' => ∀ x, scattered.Under x r → ¬scattered.Under x r' := by
    refine List.pairwise_pair.mpr fun x hx hx' => ?_
    rw [← hsound.mem_descendants_iff (hroots _ (by decide))] at hx hx'
    have hdisjoint : ∀ x ∈ 0 :: scattered.descendants 0, x ∉ 6 :: scattered.descendants 6 := by
      decide
    exact hdisjoint x hx hx'
  have hrun : csharpConverter.collect scattered (scattered.isOf csharpConverter.classifier.isField)
      [5] 7 [0, 6]
      = .ok [4, 6] := by decide +kernel
  obtain ⟨found, hends, -, -, -, hmem⟩ := collects_nearest csharpConverter hsound hroots hapart
    (scattered.isOf csharpConverter.classifier.isField) [5]
  rw [← (hends 7).eq_of_ok hrun] at hmem
  exact ⟨hsound, hroots, hapart, hrun, hmem⟩

end Converter

end SyntaxForest
