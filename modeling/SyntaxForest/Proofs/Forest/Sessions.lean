import Mathlib.Logic.Relation
import SyntaxForest.Forest.Session
import SyntaxForest.Proofs.Data.Assoc
import SyntaxForest.Proofs.Forest.Trees

/-!
# Sessions keep their forest a forest

A session changes its forest step by step, and forgets the nodes that neither a label nor a walk
holds, nor an ancestor of theirs. Forgetting cuts the links to forgotten parents; nothing else in
the links changes.

* **`Sound.sweep`** — forgetting keeps a forest sound, since what is kept is closed under going
  down.
* **`Session.Tidy`** — the forest is sound, everything held is there, and everything there is held
  from above.
* **`Tidy.step`** — one step of a session keeps it tidy, whether the step succeeds or fails. Steps
  that let go of nothing only add nodes and links (`Grows`); the others leave the session safe and
  then settle it.
* **`forest_after`** — the law for whole runs.
-/

namespace SyntaxForest

namespace Forest

variable {f g : Forest} {h p c x : NodeId} {held : List NodeId}

/-! ## Forgetting -/

/-- The table has a mark at just the ids given, as far as it goes. By induction on the ids, for
whatever table has been made so far. -/
theorem getD_marks (size : Nat) (ids : List NodeId) (x : NodeId) :
    (marks size ids).getD x false = true ↔ x < size ∧ x ∈ ids := by
  have hfold : ∀ (ids : List NodeId) (table : Array Bool),
      (ids.foldl (fun table id => table.modify id fun _ => true) table).getD x false = true
        ↔ table.getD x false = true ∨ x < table.size ∧ x ∈ ids := by
    intro ids
    induction ids with
    | nil => simp
    | cons id rest ih =>
      intro table
      rw [List.foldl_cons, ih, Array.size_modify]
      simp only [Array.getD_eq_getD_getElem?, Array.getElem?_modify, List.mem_cons]
      by_cases hid : id = x
      · subst hid
        by_cases hlt : id < table.size
        · simp [hlt]
        · simp [hlt]
      · simp [hid, Ne.symm hid]
  -- in the beginning there are no marks
  have hstart : (Array.replicate size false).getD x false = false := by
    rw [Array.getD_eq_getD_getElem?, Array.getElem?_replicate]
    split <;> rfl
  rw [marks, hfold, hstart, Array.size_replicate]
  simp

/-- The node is held, or below a node that is. -/
def Kept (f : Forest) (held : List NodeId) (x : NodeId) : Prop := ∃ h ∈ held, f.Under x h

theorem Kept.of_parent (hp : f.parent? x = some p) (hkept : f.Kept held p) : f.Kept held x := by
  obtain ⟨h, hh, hunder⟩ := hkept
  exact ⟨h, hh, .of_parent hp hunder⟩

theorem Kept.has (hheld : ∀ h ∈ held, f.Has h) (hkept : f.Kept held x) : f.Has x := by
  obtain ⟨h, hh, hunder⟩ := hkept
  rcases hunder.cases with rfl | ⟨p, hp, -⟩
  · exact hheld x hh
  · exact has_of_parent? hp

section Sweep

variable (hf : f.Sound) (hheld : ∀ h ∈ held, f.Has h)

include hf hheld

theorem Sound.mem_reachable_iff : x ∈ f.reachable held ↔ f.Kept held x := by
  rw [reachable, List.mem_flatMap]
  constructor
  · rintro ⟨h, hh, hx⟩
    exact ⟨h, hh, (hf.mem_descendants_iff (hheld h hh)).mp hx⟩
  · rintro ⟨h, hh, hx⟩
    exact ⟨h, hh, (hf.mem_descendants_iff (hheld h hh)).mpr hx⟩

theorem Sound.getD_marks_iff :
    (marks f.size (f.reachable held)).getD x false = true ↔ f.Kept held x := by
  rw [getD_marks, hf.mem_reachable_iff hheld]
  exact ⟨And.right, fun hkept => ⟨(hkept.has hheld).lt_size, hkept⟩⟩

theorem Sound.get?_sweep_of_kept (hkept : f.Kept held x) {node : Node}
    (hnode : f.get? x = some node) :
    (f.sweep held).get? x = some (Node.forgetParent (marks f.size (f.reachable held)) node) := by
  have hmark := (hf.getD_marks_iff hheld).mpr hkept
  rw [get?, Option.join_eq_some_iff] at hnode
  rw [sweep, get?, Array.getElem?_mapIdx, hnode]
  simp only [Option.map_some, if_pos hmark]
  rfl

theorem Sound.get?_sweep_of_not_kept (hkept : ¬f.Kept held x) : (f.sweep held).get? x = none := by
  have hmark : ¬(marks f.size (f.reachable held)).getD x false = true := fun hmark =>
    hkept ((hf.getD_marks_iff hheld).mp hmark)
  rw [sweep, get?, Array.getElem?_mapIdx]
  cases f.nodes[x]? with
  | none => rfl
  | some slot => simp only [Option.map_some, if_neg hmark]; rfl

theorem Sound.has_sweep : (f.sweep held).Has x ↔ f.Kept held x := by
  by_cases hkept : f.Kept held x
  · obtain ⟨node, hnode⟩ := (hkept.has hheld).exists_get?
    exact iff_of_true (has_of_get? (hf.get?_sweep_of_kept hheld hkept hnode)) hkept
  · refine iff_of_false (fun hhas => ?_) hkept
    rw [Has, hf.get?_sweep_of_not_kept hheld hkept] at hhas
    cases hhas

/-- After forgetting, a node has the parent it had, if both are kept. A node that is held itself may
lose its parent; what is below a held node may not. -/
theorem Sound.parent?_sweep :
    (f.sweep held).parent? x = some p ↔ f.parent? x = some p ∧ f.Kept held x ∧ f.Kept held p := by
  by_cases hkept : f.Kept held x
  · obtain ⟨node, hnode⟩ := (hkept.has hheld).exists_get?
    rw [parent?_of_get? (hf.get?_sweep_of_kept hheld hkept hnode), parent?_of_get? hnode,
      Node.forgetParent]
    -- the link is cut just where the parent is not kept
    cases hparent : node.parent with
    | none => simp [hparent]
    | some q =>
      by_cases hq : f.Kept held q
      · have hmark := (hf.getD_marks_iff hheld).mpr hq
        simp only [hmark, if_true, hparent, Option.some.injEq]
        refine ⟨fun heq => ⟨heq, hkept, heq ▸ hq⟩, And.left⟩
      · have hmark : ¬(marks f.size (f.reachable held)).getD q false = true := fun hmark =>
          hq ((hf.getD_marks_iff hheld).mp hmark)
        simp only [hmark, Bool.false_eq_true, if_false, Option.some.injEq, reduceCtorEq, false_iff]
        rintro ⟨rfl, -, hp⟩
        exact hq hp
  · refine iff_of_false (fun hsome => ?_) fun hall => hkept hall.2.1
    rw [parent?, hf.get?_sweep_of_not_kept hheld hkept] at hsome
    cases hsome

theorem Sound.children_sweep (hkept : f.Kept held p) :
    (f.sweep held).children p = f.children p := by
  obtain ⟨node, hnode⟩ := (hkept.has hheld).exists_get?
  rw [children_of_get? (hf.get?_sweep_of_kept hheld hkept hnode), children_of_get? hnode,
    Node.forgetParent]
  split
  · split
    · rfl
    · rfl
  · rfl

theorem Sound.children_sweep_of_not_kept (hkept : ¬f.Kept held p) :
    (f.sweep held).children p = [] := by
  rw [children, hf.get?_sweep_of_not_kept hheld hkept]
  rfl

/-- **Forgetting keeps a forest sound.** What is kept is closed under going down, so a link is cut
only between a parent that goes and a child that becomes a root. -/
theorem Sound.sweep : (f.sweep held).Sound where
  linked p c := by
    rw [hf.parent?_sweep hheld, ← hf.linked]
    by_cases hkept : f.Kept held p
    · rw [hf.children_sweep hheld hkept]
      exact ⟨fun hc => ⟨hc, hkept.of_parent ((hf.linked p c).mp hc), hkept⟩, And.left⟩
    · rw [hf.children_sweep_of_not_kept hheld hkept]
      exact iff_of_false List.not_mem_nil fun hall => hkept hall.2.2
  nodup p := by
    by_cases hkept : f.Kept held p
    · rw [hf.children_sweep hheld hkept]
      exact hf.nodup p
    · rw [hf.children_sweep_of_not_kept hheld hkept]
      exact List.nodup_nil
  ascends x := by
    obtain ⟨l, hl⟩ := hf.ascends x
    induction hl with
    | @root id hnone =>
      refine ⟨_, .root (Option.eq_none_iff_forall_ne_some.mpr fun q hq => ?_)⟩
      rw [hf.parent?_sweep hheld, hnone] at hq
      cases hq.1
    | @up id q l hsome _ ih =>
      obtain ⟨l', hl'⟩ := ih
      -- the walk goes on while it stays among the kept nodes
      cases hparent : (f.sweep held).parent? id with
      | none => exact ⟨_, .root hparent⟩
      | some q' =>
        have heq := ((hf.parent?_sweep hheld).mp hparent).1
        rw [hsome, Option.some.injEq] at heq
        exact ⟨_, .up (heq ▸ hparent) hl'⟩

theorem Sound.under_sweep (hh : h ∈ held) (hunder : f.Under x h) : (f.sweep held).Under x h := by
  have hsound := hf.sweep hheld
  obtain ⟨l, hl, hmem⟩ := hunder
  induction hl with
  | @root id hnone =>
    rw [List.mem_singleton.mp hmem]
    exact hsound.under_self id
  | @up id q l hsome htail ih =>
    rcases List.mem_cons.mp hmem with rfl | hrest
    · exact hsound.under_self h
    · have hq : f.Kept held q := ⟨h, hh, l, htail, hrest⟩
      exact .of_parent ((hf.parent?_sweep hheld).mpr ⟨hsome, hq.of_parent hsome, hq⟩) (ih hrest)

end Sweep

/-! ## Growing -/

/-- Nodes and links of the first forest are in the second. -/
structure Extends (f g : Forest) : Prop where
  has : ∀ {x}, f.Has x → g.Has x
  parent? : ∀ {x p}, f.parent? x = some p → g.parent? x = some p

namespace Extends

theorem refl (f : Forest) : Extends f f := ⟨fun h => h, fun h => h⟩

theorem trans {e : Forest} (hfg : Extends f g) (hge : Extends g e) : Extends f e :=
  ⟨fun h => hge.has (hfg.has h), fun h => hge.parent? (hfg.parent? h)⟩

theorem of_sameLinks (h : SameLinks f g) : Extends f g where
  has hx := h.has_iff.mpr hx
  parent? hp := by rwa [h.parent?]

theorem insert {info : NodeInfo} {id : NodeId} (h : f.insert info = .ok (g, id)) : Extends f g := by
  obtain ⟨-, rfl, -, hget⟩ := insert_ok h
  have hold : ∀ x, f.Has x → g.get? x = f.get? x := fun x hx => by
    rw [hget, if_neg (Nat.ne_of_lt hx.lt_size)]
  refine ⟨fun {x} hx => ?_, fun {x p} hp => ?_⟩
  · rw [Has, hold x hx]
    exact hx
  · rw [Forest.parent?, hold x (has_of_parent? hp)]
    exact hp

theorem addChild (hf : f.Sound) (h : f.addChild p c = .ok g) : Extends f g := by
  have hfree := hf.parent?_of_addChild h
  obtain ⟨-, hc, -, -, rfl⟩ := addChild_ok h
  refine ⟨fun hx => has_link.mpr hx, fun {x q} hq => ?_⟩
  rw [parent?_link hc, if_neg]
  · exact hq
  · rintro rfl
    rw [hfree] at hq
    cases hq

theorem adopts {ids : List NodeId} (hf : f.Sound) (h : Adopts p f ids g) : Extends f g := by
  induction h with
  | nil => exact refl _
  | cons hfirst _ ih => exact (addChild hf hfirst).trans (ih (hf.addChild hfirst))

theorem under (hg : g.Sound) (hext : Extends f g) (hunder : f.Under x h) : g.Under x h := by
  obtain ⟨l, hl, hmem⟩ := hunder
  induction hl with
  | @root id hnone =>
    rw [List.mem_singleton.mp hmem]
    exact hg.under_self id
  | @up id q l hsome _ ih =>
    rcases List.mem_cons.mp hmem with rfl | hrest
    · exact hg.under_self h
    · exact .of_parent (hext.parent? hsome) (ih hrest)

end Extends

theorem has_adopts {ids : List NodeId} (h : Adopts p f ids g) : g.Has x ↔ f.Has x := by
  induction h with
  | nil => exact Iff.rfl
  | cons hfirst _ ih =>
    obtain ⟨-, -, -, -, rfl⟩ := addChild_ok hfirst
    rw [ih, has_link]

/-- What planting a node comes to: a sound forest with one node more, whether the node was linked to
a parent or not. -/
theorem plant_ok {seed : Seed} {id : NodeId} (hf : f.Sound) (h : f.plant seed = .ok (g, id)) :
    g.Sound ∧ Extends f g ∧ g.Has id ∧ ∀ x, g.Has x → f.Has x ∨ x = id := by
  rw [plant] at h
  obtain ⟨info, -, h⟩ := exists_ok_of_bind h
  obtain ⟨⟨grown, new⟩, hinsert, h⟩ := exists_ok_of_bind h
  replace hinsert := ok_of_mapError hinsert
  have hsound := hf.insert hinsert
  have hext := Extends.insert hinsert
  obtain ⟨-, rfl, -, hget⟩ := insert_ok hinsert
  have hnew : grown.Has f.size := has_of_get? (by rw [hget, if_pos rfl])
  have hold : ∀ x, grown.Has x → f.Has x ∨ x = f.size := by
    intro x hx
    by_cases heq : x = f.size
    · exact Or.inr heq
    · rw [Has, hget, if_neg heq] at hx
      exact Or.inl hx
  -- the node may be given a parent right away
  cases hplace : seed.parent with
  | none =>
    rw [hplace] at h
    cases h
    exact ⟨hsound, hext, hnew, hold⟩
  | some place =>
    rw [hplace] at h
    obtain ⟨parent, -, h⟩ := exists_ok_of_bind h
    obtain ⟨linked, hlinked, h⟩ := exists_ok_of_bind h
    replace hlinked := ok_of_mapError hlinked
    cases h
    refine ⟨hsound.addChild hlinked, hext.trans (.addChild hsound hlinked), ?_⟩
    obtain ⟨-, -, -, -, rfl⟩ := addChild_ok hlinked
    exact ⟨has_link.mpr hnew, fun x hx => hold x (has_link.mp hx)⟩

end Forest

/-! ## Walks hold nodes of the forest -/

namespace Cursor

variable {f : Forest} (accepts : NodeId → Bool)

theorem held_seek (hf : f.Sound) {start : NodeId} (hstart : f.Has start) (fuel : Nat)
    {stack : List NodeId} (hstack : ∀ x ∈ stack, f.Has x) :
    ∀ x ∈ (seek f accepts start fuel stack).2.held, f.Has x := by
  induction fuel generalizing stack with
  | zero => simp [seek, held]
  | succ fuel ih =>
    cases stack with
    | nil => simp [seek, held]
    | cons id rest =>
      rw [seek]
      split
      · exact List.forall_mem_cons.mpr ⟨hstart, hstack⟩
      · refine ih fun x hx => ?_
        rcases List.mem_append.mp hx with hchild | hrest
        · exact hf.has_child hchild
        · exact hstack x (List.mem_cons_of_mem _ hrest)

theorem held_advance (hf : f.Sound) {cursor : Cursor} (hheld : ∀ x ∈ cursor.held, f.Has x) :
    ∀ x ∈ (advance f accepts cursor).2.held, f.Has x := by
  cases cursor with
  | fresh start =>
    exact held_seek accepts hf (hheld start (by simp [held])) _ fun x hx => hf.has_child hx
  -- the children of the current node are only now put on the stack
  | paused start current stack =>
    refine held_seek accepts hf (hheld start (by simp [held])) _ fun x hx => ?_
    rcases List.mem_append.mp hx with hchild | hrest
    · exact hf.has_child hchild
    · exact hheld x (by simp [held, hrest])
  | finished => simp [advance, held]

theorem held_collect (hf : f.Sound) (count : Nat) {cursor : Cursor}
    (hheld : ∀ x ∈ cursor.held, f.Has x) :
    ∀ x ∈ (collect f accepts count cursor).2.2.held, f.Has x := by
  induction count generalizing cursor with
  | zero => exact hheld
  | succ count ih =>
    have hnext := held_advance accepts hf hheld
    rw [collect]
    split
    · rename_i heq
      rw [heq] at hnext
      exact ih hnext
    · rename_i heq
      rw [heq] at hnext
      exact hnext

end Cursor

namespace Session

variable {s s' : Session} {a : Action} {reply : Reply}

/-! ## Safe and tidy sessions -/

/-- The forest is sound, and everything that is held is in it. -/
structure Safe (s : Session) : Prop where
  sound : s.forest.Sound
  held : ∀ x ∈ s.held, s.forest.Has x

/-- The forest has just what is held and what is below. -/
structure Tidy (s : Session) : Prop extends Safe s where
  kept : ∀ x, s.forest.Has x → s.forest.Kept s.held x

theorem mem_held {x : NodeId} :
    x ∈ s.held ↔ x ∈ s.holders.values ∨ ∃ entry ∈ s.cursors.values, x ∈ entry.2.held := by
  rw [held, List.mem_append, List.mem_flatMap]

theorem Safe.settle (h : s.Safe) : s.settle.Tidy where
  sound := h.sound.sweep h.held
  held x hx := (h.sound.has_sweep h.held).mpr ⟨x, hx, h.sound.under_self x⟩
  kept x hx := by
    obtain ⟨top, htop, hunder⟩ := (h.sound.has_sweep h.held).mp hx
    exact ⟨top, htop, h.sound.under_sweep h.held htop hunder⟩

/-- The session only gets more: nodes, links between them, and labels. -/
structure Grows (s s' : Session) : Prop extends Safe s' where
  ext : Forest.Extends s.forest s'.forest
  labels : ∀ x ∈ s.held, x ∈ s'.held
  /-- Every new node is held. -/
  new : ∀ x, s'.forest.Has x → s.forest.Has x ∨ x ∈ s'.held

theorem Grows.refl (h : s.Safe) : Grows s s where
  toSafe := h
  ext := .refl _
  labels _ hx := hx
  new _ hx := Or.inl hx

/-- **A tidy session that only grows stays tidy**, without forgetting anything: old nodes are still
below what held them, and new nodes are held themselves. -/
theorem Grows.tidy (h : s.Tidy) (hgrows : Grows s s') : s'.Tidy where
  toSafe := hgrows.toSafe
  kept x hx := by
    rcases hgrows.new x hx with hold | hheld
    · obtain ⟨top, htop, hunder⟩ := h.kept x hold
      exact ⟨top, hgrows.labels top htop, hgrows.ext.under hgrows.sound hunder⟩
    · exact ⟨x, hheld, hgrows.sound.under_self x⟩

theorem Grows.withForest (h : s.Safe) {g : Forest} (hsound : g.Sound)
    (hext : Forest.Extends s.forest g) (hhas : ∀ x, g.Has x → s.forest.Has x) :
    Grows s { s with forest := g } where
  sound := hsound
  held x hx := hext.has (h.held x hx)
  ext := hext
  labels _ hx := hx
  new x hx := Or.inl (hhas x hx)

theorem Grows.sameLinks (h : s.Safe) {g : Forest} (hsame : Forest.SameLinks s.forest g) :
    Grows s { s with forest := g } :=
  .withForest h (h.sound.sameLinks hsame) (.of_sameLinks hsame) fun _ hx => hsame.has_iff.mp hx

theorem Grows.effect (h : s.Safe) {g : Forest} {id : NodeId} {r : Forest.Request}
    (heffect : Forest.Effect id r s.forest g) (hr : ∀ child, r ≠ .removeChild child) :
    Grows s { s with forest := g } := by
  cases heffect with
  | adopts hids =>
    exact .withForest h (h.sound.adopts hids) (.adopts h.sound hids) fun x hx =>
      (Forest.has_adopts hids).mp hx
  | update hupdate hlinks _ => exact .sameLinks h (.update hupdate hlinks)
  | removeChild hremove _ => exact absurd hremove (hr _)

theorem Safe.effect (h : s.Safe) {g : Forest} {id : NodeId} {r : Forest.Request}
    (heffect : Forest.Effect id r s.forest g) : Safe { s with forest := g } := by
  cases heffect with
  | adopts hids =>
    exact ⟨h.sound.adopts hids, fun x hx => (Forest.has_adopts hids).mpr (h.held x hx)⟩
  | update hupdate hlinks _ => exact (Grows.sameLinks h (.update hupdate hlinks)).toSafe
  | removeChild _ hremove =>
    refine ⟨h.sound.removeChild hremove, fun x hx => ?_⟩
    rcases Forest.removeChild_ok hremove with rfl | ⟨-, rfl⟩
    · exact h.held x hx
    · exact Forest.has_unlink.mpr (h.held x hx)

/-! ## One step -/

theorem find_ok {label : String} {id : NodeId} (h : s.find label = .ok id) : id ∈ s.held := by
  rw [find] at h
  split at h
  · rename_i found hfound
    cases h
    exact mem_held.mpr (Or.inl (Assoc.mem_values_of_get? hfound))
  · cases h

theorem ask_ok {label : String} {answer : NodeId → Node → Reply}
    (h : s.ask label answer = .ok (s', reply)) : s' = s := by
  rw [ask] at h
  obtain ⟨id, -, h⟩ := exists_ok_of_bind h
  split at h
  · cases h
    rfl
  · cases h

/-- A new node is held by its label. If the label was in use, the node that it held is let go, and
only then may there be something to be forgotten. -/
theorem create_ok {label : String} {seed : Seed} (h : s.Safe)
    (hcreate : s.create label seed = .ok (s', reply)) :
    s'.Safe ∧ (s.holders.contains label = false → Grows s s') := by
  rw [create] at hcreate
  obtain ⟨⟨grown, id⟩, hplant, hcreate⟩ := exists_ok_of_bind hcreate
  cases hcreate
  obtain ⟨hsound, hext, hnew, hold⟩ := Forest.plant_ok h.sound hplant
  have hsafe : Safe { s with
      forest := grown, labels := s.labels.push label, holders := s.holders.set label id } := by
    refine ⟨hsound, fun x hx => ?_⟩
    rcases mem_held.mp hx with hlabel | hcursor
    · rcases Assoc.mem_values_of_mem_set hlabel with rfl | hbefore
      · exact hnew
      · exact hext.has (h.held x (mem_held.mpr (Or.inl hbefore)))
    · exact hext.has (h.held x (mem_held.mpr (Or.inr hcursor)))
  -- a label that was free takes nothing from any node
  refine ⟨hsafe, fun hfree => ⟨hsafe, hext, fun x hx => ?_, fun x hx => ?_⟩⟩
  · rcases mem_held.mp hx with hlabel | hcursor
    · exact mem_held.mpr (Or.inl (Assoc.mem_values_set_of_not_contains hfree hlabel))
    · exact mem_held.mpr (Or.inr hcursor)
  · refine (hold x hx).imp_right fun heq => ?_
    exact mem_held.mpr (Or.inl (heq ▸ Assoc.mem_values_set_self ..))

theorem Safe.setCursor (h : s.Safe) {name : String} {which : Forest.Selection} {cursor : Cursor}
    (hcursor : ∀ x ∈ cursor.held, s.forest.Has x) :
    Safe { s with cursors := s.cursors.set name (which, cursor) } := by
  refine ⟨h.sound, fun x hx => ?_⟩
  rcases mem_held.mp hx with hlabel | ⟨entry, hentry, hx⟩
  · exact h.held x (mem_held.mpr (Or.inl hlabel))
  · rcases Assoc.mem_values_of_mem_set hentry with rfl | hbefore
    · exact hcursor x hx
    · exact h.held x (mem_held.mpr (Or.inr ⟨entry, hbefore, hx⟩))

/-- A step that succeeds leaves the session safe, and lets go of nothing unless it says so. Walks
and releases are among those that say so, even if in the end nothing is let go. -/
theorem perform_ok (h : s.Safe) (hperform : s.perform a = .ok (s', reply)) :
    s'.Safe ∧ (s.letsGo a = false → Grows s s') := by
  have of_grows : Grows s s' → s'.Safe ∧ (s.letsGo a = false → Grows s s') :=
    fun hgrows => ⟨hgrows.toSafe, fun _ => hgrows⟩
  have of_same : s' = s → s'.Safe ∧ (s.letsGo a = false → Grows s s') := by
    rintro rfl
    exact ⟨h, fun _ => .refl h⟩
  -- most actions only ask; those that let go of something need not grow the session
  cases a with
  | create label seed => exact create_ok h hperform
  | addChild | addChildren | removeChild | setText | setError | setMissing | setMetadata =>
    cases hperform
    exact of_same rfl
  | getMetadata node key default => exact of_same (ask_ok hperform)
  | overwriteMetadata node =>
    obtain ⟨id, -, hperform⟩ := exists_ok_of_bind hperform
    cases hperform
  | freeze node =>
    obtain ⟨id, -, hperform⟩ := exists_ok_of_bind hperform
    cases hperform
    exact of_grows (.sameLinks h (s.forest.sameNodes_freeze id).sameLinks)
  | findChild node which => exact of_same (ask_ok hperform)
  | childrenWhere node which => exact of_same (ask_ok hperform)
  | descendantsWhere node which => exact of_same (ask_ok hperform)
  | findDescendant node which => exact of_same (ask_ok hperform)
  | path node => exact of_same (ask_ok hperform)
  | depth node => exact of_same (ask_ok hperform)
  | accept node visitor =>
    cases visitor with
    | none =>
      obtain ⟨id, -, hperform⟩ := exists_ok_of_bind hperform
      cases hperform
    | some visitor => exact of_same (ask_ok hperform)
  | shown node => exact of_same (ask_ok hperform)
  | described node => exact of_same (ask_ok hperform)
  | parent node => exact of_same (ask_ok hperform)
  | inspect node => exact of_same (ask_ok hperform)
  | walk cursor node which =>
    obtain ⟨id, hfind, hperform⟩ := exists_ok_of_bind hperform
    cases hperform
    refine ⟨h.setCursor fun x hx => ?_, fun hletsGo => by cases hletsGo⟩
    rw [List.mem_singleton.mp hx]
    exact h.held id (find_ok hfind)
  | advance cursor count =>
    rw [perform] at hperform
    split at hperform
    · cases hperform
    · rename_i which c hcursor
      cases hperform
      -- the walk held what it goes on from, and everything it finds is below that
      refine ⟨h.setCursor (Cursor.held_collect _ h.sound count fun x hx => ?_),
        fun hletsGo => by cases hletsGo⟩
      exact h.held x (mem_held.mpr (Or.inr ⟨_, Assoc.mem_values_of_get? hcursor, hx⟩))
  | release node =>
    obtain ⟨id, -, hperform⟩ := exists_ok_of_bind hperform
    cases hperform
    refine ⟨⟨h.sound, fun x hx => ?_⟩, fun hletsGo => by cases hletsGo⟩
    refine h.held x (mem_held.mpr ((mem_held.mp hx).imp_left fun hlabel => ?_))
    exact Assoc.mem_values_of_mem_erase hlabel

theorem exists_withMark (s : Session) (id : NodeId) (a : Action) :
    ∃ marks, s.withMark id a = { s with marks } := by
  unfold withMark
  split <;> exact ⟨_, rfl⟩

theorem letsGo_of_removeChild {id : NodeId} {child : Option NodeId}
    (h : s.request? a = some (.ok (id, .removeChild child))) : s.letsGo a = true := by
  cases a with
  | removeChild => rfl
  | addChild | addChildren =>
    obtain ⟨_, -, h⟩ := exists_ok_of_bind (Option.some.inj h)
    obtain ⟨_, -, h⟩ := exists_ok_of_bind h
    cases h
  | setText | setError | setMissing | setMetadata =>
    obtain ⟨_, -, h⟩ := exists_ok_of_bind (Option.some.inj h)
    cases h
  | _ => cases h

/-- A request leaves the session safe, whether it is granted or refused, and lets go of nothing
unless it says so. -/
theorem submit_safe (h : s.Safe) {id : NodeId} {r : Forest.Request}
    (hr : s.request? a = some (.ok (id, r))) :
    (s.submit a id r).1.Safe ∧ (s.letsGo a = false → Grows s (s.submit a id r).1) := by
  have hkeeps : s.letsGo a = false → ∀ child, r ≠ .removeChild child := by
    rintro hletsGo child rfl
    rw [letsGo_of_removeChild hr] at hletsGo
    cases hletsGo
  unfold submit
  split
  · rename_i answer forest hok
    have heffect := Forest.Request.effect_of_ok hok
    obtain ⟨marks, hmarks⟩ := exists_withMark { s with forest } id a
    rw [hmarks]
    refine ⟨⟨(h.effect heffect).sound, (h.effect heffect).held⟩, fun hletsGo => ?_⟩
    have hgrows := Grows.effect h heffect (hkeeps hletsGo)
    exact ⟨⟨hgrows.sound, hgrows.held⟩, hgrows.ext, hgrows.labels, hgrows.new⟩
  -- a refused request may have taken in some children before
  · rename_i refusal forest herror
    have heffect := Forest.Request.effect_of_error herror
    exact ⟨h.effect heffect, fun hletsGo => .effect h heffect (hkeeps hletsGo)⟩

theorem attempt_safe (h : s.Safe) (a : Action) :
    (s.attempt a).1.Safe ∧ (s.letsGo a = false → Grows s (s.attempt a).1) := by
  unfold attempt
  split
  · exact submit_safe h ‹_›
  · exact ⟨h, fun _ => .refl h⟩
  · split
    · rename_i hperform
      exact perform_ok h hperform
    · exact ⟨h, fun _ => .refl h⟩

/-- **One step keeps a session tidy**, whether it succeeds or fails. -/
theorem Tidy.step (h : s.Tidy) (a : Action) : (s.step a).1.Tidy := by
  obtain ⟨hsafe, hgrows⟩ := attempt_safe h.toSafe a
  unfold Session.step
  dsimp only
  cases hletsGo : s.letsGo a with
  | true => exact hsafe.settle
  | false => exact (hgrows hletsGo).tidy h

/-! ## Runs -/

/-- The session after a run. -/
def after (run : List Action) : Session := run.foldl (fun s a => (s.step a).1) {}

/-- **After any run the session is tidy.** -/
theorem tidy_after (run : List Action) : (after run).Tidy := by
  have hrun : ∀ s : Session, s.Tidy → (run.foldl (fun s a => (s.step a).1) s).Tidy := by
    induction run with
    | nil => exact fun s h => h
    | cons a rest ih => exact fun s h => ih _ (h.step a)
  refine hrun {} ⟨⟨.empty, fun x hx => by cases hx⟩, fun x hx => ?_⟩
  cases hx.lt_size

end Session

namespace Forest

variable {f : Forest} {x : NodeId}

/-- The lists of children of all nodes, taken together. -/
def allChildren (f : Forest) : List NodeId := (List.range f.size).flatMap f.children

theorem Sound.nodup_allChildren (hf : f.Sound) : f.allChildren.Nodup := by
  rw [allChildren, List.nodup_flatMap]
  refine ⟨fun p _ => hf.nodup p, List.nodup_range.imp fun {p q} hne c hp hq => hne ?_⟩
  have heq := ((hf.linked p c).mp hp).symm.trans ((hf.linked q c).mp hq)
  exact Option.some.inj heq

theorem Sound.acyclic (hf : f.Sound) (x : NodeId) :
    ¬Relation.TransGen (fun lower upper => f.parent? lower = some upper) x x := by
  -- a chain of parents is a walk up, which passes no node twice
  have hwalk : ∀ {a b : NodeId},
      Relation.TransGen (fun lower upper => f.parent? lower = some upper) a b →
      ∃ p, f.parent? a = some p ∧ f.Under p b := by
    intro a b hchain
    induction hchain with
    | single hp => exact ⟨_, hp, hf.under_self _⟩
    | tail _ hp ih =>
      obtain ⟨p, hfirst, hunder⟩ := ih
      exact ⟨p, hfirst, hunder.parent hp⟩
  intro hchain
  obtain ⟨p, hp, hunder⟩ := hwalk hchain
  exact not_under_child hp hunder

theorem Ascends.stepsUp_eq {l : List NodeId} (h : f.Ascends x l) {fuel : Nat}
    (hfuel : l.length ≤ fuel) :
    f.stepsUp fuel x + 1 = l.length := by
  induction h generalizing fuel with
  | root hnone =>
    cases fuel with
    | zero => simp at hfuel
    | succ fuel =>
      rw [stepsUp, hnone]
      rfl
  | up hsome _ ih =>
    cases fuel with
    | zero => simp at hfuel
    | succ fuel =>
      rw [stepsUp, hsome]
      exact congrArg (· + 1) (ih (Nat.le_of_succ_le_succ hfuel))

theorem Sound.depth_lineage (hf : f.Sound) (hx : f.Has x) : f.depth x + 1 = (f.lineage x).length :=
  (hf.ascends_lineage hx).stepsUp_eq (hf.length_ascent_le hx (hf.ascends_lineage hx))

theorem Sound.path_ends (hf : f.Sound) (hx : f.Has x) :
    ∃ root, f.parent? root = none ∧ (f.path x).head? = some root ∧ (f.path x).getLast? = some x
      ∧ ((f.path x).IsChain fun upper lower => f.parent? lower = some upper)
      ∧ f.depth x + 1 = (f.path x).length := by
  have hascent := hf.ascends_lineage hx
  obtain ⟨root, hlast, hnone⟩ := hascent.getLast?
  refine ⟨root, hnone, ?_, ?_, ?_, ?_⟩
  · rw [path, List.head?_reverse, hlast]
  · rw [path, List.getLast?_reverse, hascent.head?]
  · exact List.isChain_reverse.mpr hascent.isChain
  · rw [path, List.length_reverse]
    exact hf.depth_lineage hx

end Forest

/-- **The nodes of a session always form trees.** After any run of steps, those that failed
included: the lists of children name no node twice, all together; a node is among the children of
just the node that it names as its parent, and both are there; no chain of parents comes back to its
beginning, so the path of a node leads from a node without a parent down to it, and its depth counts
the steps; and the nodes that are there are just those that are held or below a held one. -/
theorem Session.forest_after (run : List Action) :
    (after run).forest.allChildren.Nodup
      ∧ (∀ p c, (c ∈ (after run).forest.children p ↔ (after run).forest.parent? c = some p)
          ∧ ((after run).forest.parent? c = some p →
              (after run).forest.Has p ∧ (after run).forest.Has c))
      ∧ (∀ x, ¬Relation.TransGen
          (fun lower upper => (after run).forest.parent? lower = some upper) x x)
      ∧ (∀ x, (after run).forest.Has x →
          ∃ root, (after run).forest.parent? root = none
            ∧ ((after run).forest.path x).head? = some root
            ∧ ((after run).forest.path x).getLast? = some x
            ∧ (((after run).forest.path x).IsChain fun upper lower =>
                (after run).forest.parent? lower = some upper)
            ∧ (after run).forest.depth x + 1 = ((after run).forest.path x).length)
      ∧ ∀ x, (after run).forest.Has x ↔ (after run).forest.Kept (after run).held x := by
  have h := tidy_after run
  refine ⟨h.sound.nodup_allChildren, fun p c => ⟨h.sound.linked p c, fun hp => ?_⟩,
    h.sound.acyclic, fun x hx => h.sound.path_ends hx, fun x => ⟨h.kept x, Forest.Kept.has h.held⟩⟩
  exact ⟨h.sound.has_parent hp, Forest.has_of_parent? hp⟩

end SyntaxForest
