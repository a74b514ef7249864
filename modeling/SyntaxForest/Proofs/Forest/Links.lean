import Mathlib.Data.List.Chain
import Mathlib.Data.List.Nodup
import Mathlib.Data.List.Perm.Subperm
import SyntaxForest.Proofs.Data.Basic
import SyntaxForest.Proofs.Forest.Changes

/-!
# The links of a forest

Parents and children are two copies of one relation, and each operation changes both.

* **`Forest.Ascends`** — the walk from a node up to the root of its tree, as a relation. A walk that
  ends passes no node twice, so it is no longer than the forest is large, and `Forest.lineage` is
  that walk.
* **`Forest.Sound`** — the two copies agree, no child is listed twice, and every walk up ends.
* **`Sound.insert`**, **`Sound.addChild`**, **`Sound.adopts`**, **`Sound.removeChild`** — making
  nodes, linking and unlinking keep a forest sound. The test that `addChild` makes on the way up is
  just what the walk of the new parent needs.
* **`SameLinks`** — what all other changes keep.
-/

namespace SyntaxForest

/-- The links of a node: its parent and its children. -/
def Node.links (n : Node) : Option NodeId × List NodeId := (n.parent, n.children)

namespace Forest

variable {f g : Forest} {id p c x : NodeId}

/-! ## Reading a changed forest -/

/-- The node is in the forest. -/
def Has (f : Forest) (id : NodeId) : Prop := (f.get? id).isSome = true

theorem Has.exists_get? (h : f.Has id) : ∃ node, f.get? id = some node :=
  Option.isSome_iff_exists.mp h

theorem has_of_get? {node : Node} (h : f.get? id = some node) : f.Has id := by
  rw [Has, h]
  rfl

theorem Has.lt_size (h : f.Has id) : id < f.size := by
  obtain ⟨node, hnode⟩ := h.exists_get?
  rw [get?, Option.join_eq_some_iff] at hnode
  exact (Array.getElem?_eq_some_iff.mp hnode).1

theorem length_le_size {ids : List NodeId} (hnodup : ids.Nodup) (h : ∀ x ∈ ids, f.Has x) :
    ids.length ≤ f.size := by
  have hsub : ids ⊆ List.range f.size := fun x hx => List.mem_range.mpr (h x hx).lt_size
  simpa using (List.subperm_of_subset hnodup hsub).length_le

theorem get?_size (f : Forest) : f.get? f.size = none := by
  rw [get?, size, Array.getElem?_eq_none (Nat.le_refl _)]
  rfl

theorem children_of_get? {node : Node} (h : f.get? id = some node) :
    f.children id = node.children := by
  rw [children, h]
  rfl

theorem parent?_of_get? {node : Node} (h : f.get? id = some node) : f.parent? id = node.parent := by
  rw [parent?, h]
  rfl

theorem has_of_parent? (h : f.parent? id = some p) : f.Has id := by
  rw [parent?, Option.bind_eq_some_iff] at h
  obtain ⟨node, hnode, -⟩ := h
  exact has_of_get? hnode

theorem has_of_mem_children (h : c ∈ f.children id) : f.Has id := by
  cases hnode : f.get? id with
  | some node => exact has_of_get? hnode
  | none =>
    rw [children, hnode] at h
    exact absurd h List.not_mem_nil

theorem size_modify (f : Forest) (id : NodeId) (change : Node → Node) :
    (f.modify id change).size = f.size := Array.size_modify

theorem get?_modify (f : Forest) (id : NodeId) (change : Node → Node) (x : NodeId) :
    (f.modify id change).get? x = if id = x then (f.get? x).map change else f.get? x := by
  rw [get?, get?, modify, Array.getElem?_modify]
  split
  · cases f.nodes[x]? with
    | none => rfl
    | some slot => rfl
  · rfl

theorem parent?_modify (f : Forest) (id : NodeId) (change : Node → Node) (x : NodeId) :
    (f.modify id change).parent? x
      = if id = x then (f.get? x).bind fun node => (change node).parent else f.parent? x := by
  rw [parent?, get?_modify]
  split
  · rw [Option.bind_map]
    rfl
  · rfl

theorem children_modify (f : Forest) (id : NodeId) (change : Node → Node) (x : NodeId) :
    (f.modify id change).children x
      = if id = x then ((f.get? x).map fun node => (change node).children).getD []
        else f.children x := by
  rw [children, get?_modify]
  split
  · rw [Option.map_map]
    rfl
  · rfl

/-! ## Changes that keep the links -/

/-- The same nodes with the same links. -/
def SameLinks (f g : Forest) : Prop := ∀ id, (g.get? id).map Node.links = (f.get? id).map Node.links

namespace SameLinks

theorem modify {change : Node → Node} (hchange : ∀ node, (change node).links = node.links) :
    SameLinks f (f.modify id change) := by
  intro x
  rw [get?_modify]
  split
  · rw [Option.map_map]
    exact congrArg (Option.map · (f.get? x)) (funext hchange)
  · rfl

theorem parent? (h : SameLinks f g) (id : NodeId) : g.parent? id = f.parent? id := by
  have heq : ∀ e : Forest, e.parent? id = ((e.get? id).map Node.links).bind Prod.fst := fun e => by
    rw [Forest.parent?, Option.bind_map]
    rfl
  rw [heq, heq, h id]

theorem children (h : SameLinks f g) (id : NodeId) : g.children id = f.children id := by
  have heq : ∀ e : Forest, e.children id = (((e.get? id).map Node.links).map Prod.snd).getD [] :=
    fun e => by
      rw [Forest.children, Option.map_map]
      rfl
  rw [heq, heq, h id]

theorem has_iff (h : SameLinks f g) : g.Has id ↔ f.Has id := by
  have := congrArg Option.isSome (h id)
  rw [Option.isSome_map, Option.isSome_map] at this
  rw [Has, Has, this]

end SameLinks

/-! ## Walking up -/

/-- Walking up from a node passes through these nodes, and ends at the last of them, which has no
parent. -/
inductive Ascends (f : Forest) : NodeId → List NodeId → Prop where
  | root {id : NodeId} (h : f.parent? id = none) : Ascends f id [id]
  | up {id p : NodeId} {l : List NodeId} (h : f.parent? id = some p) (hl : Ascends f p l) :
      Ascends f id (id :: l)

namespace Ascends

variable {l l' : List NodeId}

theorem unique (h : f.Ascends id l) (h' : f.Ascends id l') : l = l' := by
  induction h generalizing l' with
  | root hnone =>
    cases h' with
    | root => rfl
    | up hsome => simp [hnone] at hsome
  | up hsome _ ih =>
    cases h' with
    | root hnone => simp [hnone] at hsome
    | up hsome' htail =>
      rw [hsome, Option.some.injEq] at hsome'
      rw [ih (hsome' ▸ htail)]

theorem of_mem (h : f.Ascends id l) (hx : x ∈ l) : ∃ l', f.Ascends x l' ∧ l' <:+ l := by
  induction h with
  | @root id hnone =>
    obtain rfl := List.mem_singleton.mp hx
    exact ⟨_, .root hnone, List.suffix_refl _⟩
  | @up id p l hsome htail ih =>
    rcases List.mem_cons.mp hx with rfl | hrest
    · exact ⟨_, .up hsome htail, List.suffix_refl _⟩
    · obtain ⟨l', hl', hsuffix⟩ := ih hrest
      exact ⟨l', hl', hsuffix.trans (List.suffix_cons _ _)⟩

theorem nodup (h : f.Ascends id l) : l.Nodup := by
  induction h with
  | root => simp
  | @up id p l hsome htail ih =>
    refine List.nodup_cons.mpr ⟨fun hmem => ?_, ih⟩
    -- the walk from a node met again would be a proper part of itself
    obtain ⟨l', hl', hsuffix⟩ := htail.of_mem hmem
    have hlength := hsuffix.length_le
    rw [hl'.unique (.up hsome htail), List.length_cons] at hlength
    omega

theorem head? (h : f.Ascends id l) : l.head? = some id := by
  cases h <;> rfl

theorem getLast? (h : f.Ascends id l) : ∃ root, l.getLast? = some root ∧ f.parent? root = none := by
  induction h with
  | @root id hnone => exact ⟨id, rfl, hnone⟩
  | @up id p l hsome htail ih =>
    obtain ⟨root, hlast, hnone⟩ := ih
    exact ⟨root, by rw [List.getLast?_cons, hlast]; rfl, hnone⟩

theorem isChain (h : f.Ascends id l) :
    l.IsChain fun lower upper => f.parent? lower = some upper := by
  induction h with
  | root => exact .singleton _
  | up hsome htail ih =>
    cases htail with
    | root => exact .cons_cons hsome ih
    | up => exact .cons_cons hsome ih

theorem lineageFrom_eq (h : f.Ascends id l) {fuel : Nat} (hfuel : l.length ≤ fuel) :
    f.lineageFrom fuel id = l := by
  induction h generalizing fuel with
  | root hnone =>
    cases fuel with
    | zero => simp at hfuel
    | succ fuel => rw [lineageFrom, hnone]
  | up hsome _ ih =>
    cases fuel with
    | zero => simp at hfuel
    | succ fuel =>
      rw [lineageFrom, hsome]
      exact congrArg _ (ih (Nat.le_of_succ_le_succ hfuel))

theorem congr (h : f.Ascends id l) (hsame : ∀ y ∈ l, g.parent? y = f.parent? y) :
    g.Ascends id l := by
  induction h with
  | root hnone => exact .root ((hsame _ (by simp)).trans hnone)
  | up hsome _ ih =>
    exact .up ((hsame _ (by simp)).trans hsome) (ih fun y hy => hsame y (List.mem_cons_of_mem _ hy))

end Ascends

/-! ## Sound forests -/

/-- The links form trees. -/
structure Sound (f : Forest) : Prop where
  /-- A node is a child of just the node that it names as its parent. -/
  linked : ∀ p c, c ∈ f.children p ↔ f.parent? c = some p
  /-- No node is listed twice among the children of another. -/
  nodup : ∀ p, (f.children p).Nodup
  /-- Every walk up ends. -/
  ascends : ∀ id, ∃ l, f.Ascends id l

namespace Sound

theorem empty : Sound {} where
  linked p c := by simp [children, parent?, get?]
  nodup p := by simp [children, get?]
  ascends id := ⟨[id], .root (by simp [parent?, get?])⟩

theorem has_parent (h : f.Sound) (hp : f.parent? c = some p) : f.Has p :=
  has_of_mem_children ((h.linked p c).mpr hp)

theorem has_child (h : f.Sound) (hc : c ∈ f.children p) : f.Has c :=
  has_of_parent? ((h.linked p c).mp hc)

theorem has_of_mem_ascent (h : f.Sound) (hid : f.Has id) {l : List NodeId} (hl : f.Ascends id l) :
    ∀ x ∈ l, f.Has x := by
  induction hl with
  | root => simpa using hid
  | up hsome _ ih =>
    intro x hx
    rcases List.mem_cons.mp hx with rfl | hrest
    · exact hid
    · exact ih (h.has_parent hsome) x hrest

theorem length_ascent_le (h : f.Sound) (hid : f.Has id) {l : List NodeId} (hl : f.Ascends id l) :
    l.length ≤ f.size :=
  length_le_size hl.nodup (h.has_of_mem_ascent hid hl)

/-- **The lineage of a node is the walk up from it.** -/
theorem ascends_lineage (h : f.Sound) (hid : f.Has id) : f.Ascends id (f.lineage id) := by
  obtain ⟨l, hl⟩ := h.ascends id
  rwa [lineage, hl.lineageFrom_eq (h.length_ascent_le hid hl)]

theorem congr (h : f.Sound) (hparent : ∀ id, g.parent? id = f.parent? id)
    (hchildren : ∀ id, g.children id = f.children id) : g.Sound where
  linked p c := by rw [hparent, hchildren, h.linked]
  nodup p := by rw [hchildren]; exact h.nodup p
  ascends id := by
    obtain ⟨l, hl⟩ := h.ascends id
    exact ⟨l, hl.congr fun y _ => hparent y⟩

theorem sameLinks (h : f.Sound) (hsame : SameLinks f g) : g.Sound :=
  h.congr hsame.parent? hsame.children

end Sound

/-! ## Making and changing nodes -/

theorem insert_ok {info : NodeInfo} (h : f.insert info = .ok (g, id)) :
    info.kind ≠ "" ∧ id = f.size ∧ g.size = f.size + 1
      ∧ ∀ x, g.get? x = if x = id then some { info with } else f.get? x := by
  rw [insert] at h
  split at h
  · cases h
  · rename_i hkind
    cases h
    refine ⟨hkind, rfl, by simp [size], fun x => ?_⟩
    rw [get?, Array.getElem?_push]
    split
    · rfl
    · rfl

theorem Sound.insert {info : NodeInfo} (hf : f.Sound) (h : f.insert info = .ok (g, id)) :
    g.Sound := by
  obtain ⟨-, rfl, -, hget⟩ := insert_ok h
  -- the new node has no links, as the id had none before
  have hnone : ∀ x, x = f.size → f.get? x = none := fun x hx => hx ▸ f.get?_size
  refine hf.congr (fun x => ?_) fun x => ?_
  · rw [parent?, parent?, hget]
    split
    · rename_i hx
      rw [hnone x hx]
      rfl
    · rfl
  · rw [children, children, hget]
    split
    · rename_i hx
      rw [hnone x hx]
      rfl
    · rfl

theorem mutable_ok {node : Node} (h : f.mutable id = .ok node) :
    f.get? id = some node ∧ node.frozen = false := by
  rw [mutable] at h
  split at h
  · rename_i found hfound
    split at h
    · cases h
    · rename_i hfrozen
      cases h
      exact ⟨hfound, by simpa using hfrozen⟩
  · cases h

theorem update_ok {change : Node → Node} (h : f.update id change = .ok g) :
    g = f.modify id change := by
  obtain ⟨_, -, rfl⟩ := update_cases h
  rfl

theorem SameLinks.update {change : Node → Node} (h : f.update id change = .ok g)
    (hchange : ∀ node, (change node).links = node.links) : SameLinks f g :=
  update_ok h ▸ SameLinks.modify hchange

/-! ## Linking -/

theorem parent?_link (hc : f.Has c) (x : NodeId) :
    (f.link p c).parent? x = if c = x then some p else f.parent? x := by
  obtain ⟨node, hnode⟩ := hc.exists_get?
  rw [link, parent?_modify, get?_modify]
  by_cases hx : c = x
  · subst hx
    by_cases hp : p = c <;> simp [hp, hnode, parent?_modify]
  · by_cases hp : p = x
    · simp only [hp, hx, if_true, if_false]
      rfl
    · rw [if_neg hp, if_neg hx, parent?_modify, if_neg hx]

theorem children_link (hp : f.Has p) (x : NodeId) :
    (f.link p c).children x = if p = x then f.children p ++ [c] else f.children x := by
  obtain ⟨node, hnode⟩ := hp.exists_get?
  rw [link, children_modify, get?_modify]
  by_cases hx : p = x
  · subst hx
    -- parent and child are not known to differ yet
    by_cases hc : c = p <;> simp [hc, hnode, children]
  · by_cases hc : c = x
    · rw [if_neg hx, if_neg hx, children_modify, if_pos hc]
      rfl
    · rw [if_neg hx, if_neg hx, children_modify, if_neg hc]

theorem has_link : (f.link p c).Has x ↔ f.Has x := by
  rw [Has, Has, link, get?_modify, get?_modify]
  by_cases hp : p = x <;> by_cases hc : c = x <;> simp [hp, hc]

theorem size_link (f : Forest) (p c : NodeId) : (f.link p c).size = f.size := by
  rw [link, size_modify, size_modify]

theorem get?_link (hne : p ≠ c) (x : NodeId) :
    (f.link p c).get? x
      = if p = x then (f.get? p).map fun node => { node with children := node.children ++ [c] }
        else if c = x then (f.get? c).map fun node => { node with parent := some p }
        else f.get? x := by
  rw [link, get?_modify, get?_modify]
  by_cases hp : p = x
  · subst hp
    simp [hne.symm]
  · by_cases hc : c = x
    · subst hc
      simp [hp]
    · simp [hp, hc]

/-- **Linking keeps a forest sound**, if the child has no parent and is not on the way up from the
new one. Each of the two conditions is needed for one half: with a second parent the copies would
disagree, and with a circle the walk would not end. -/
theorem Sound.link (hf : f.Sound) (hp : f.Has p) (hc : f.Has c) (hfree : f.parent? c = none)
    (hcycle : c ∉ f.lineage p) : (f.link p c).Sound where
  linked q x := by
    rw [parent?_link hc, children_link hp]
    by_cases hx : c = x
    · subst hx
      by_cases hq : p = q
      · simp [hq]
      · simp [hq, hf.linked, hfree]
    · by_cases hq : p = q
      · subst hq
        simp [hx, hf.linked, Ne.symm hx]
      · simp [hx, hq, hf.linked]
  nodup q := by
    rw [children_link hp]
    split
    -- the new child was in no list of children
    · refine List.nodup_append.mpr ⟨hf.nodup p, by simp, fun a ha b hb => ?_⟩
      obtain rfl := List.mem_singleton.mp hb
      rintro rfl
      rw [hf.linked, hfree] at ha
      cases ha
    · exact hf.nodup q
  ascends x := by
    -- the new parent's walk does not pass the child, so it is as it was
    have hparent : (f.link p c).Ascends p (f.lineage p) :=
      (hf.ascends_lineage hp).congr fun y hy => by
        rw [parent?_link hc, if_neg]
        rintro rfl
        exact hcycle hy
    obtain ⟨l, hl⟩ := hf.ascends x
    -- a walk that ended at the child goes on with the new parent's, and any other ends where it did
    induction hl with
    | @root id hnone =>
      by_cases hid : c = id
      · exact ⟨_, .up (by rw [parent?_link hc, if_pos hid]) hparent⟩
      · exact ⟨_, .root (by rw [parent?_link hc, if_neg hid]; exact hnone)⟩
    | @up id q l hsome _ ih =>
      obtain ⟨l', hl'⟩ := ih
      have hid : c ≠ id := by
        rintro rfl
        simp [hfree] at hsome
      exact ⟨_, .up (by rw [parent?_link hc, if_neg hid]; exact hsome) hl'⟩

theorem unattached_ok {node : Node} (h : f.unattached c = .ok node) :
    f.get? c = some node ∧ node.parent.bind f.get? = none := by
  rw [unattached] at h
  split at h
  · cases h
  · rename_i hget
    split at h
    · cases h
    · rename_i hfree
      cases h
      exact ⟨hget, hfree⟩

theorem acyclic_ok (h : f.acyclic p c = .ok ()) : c ∉ f.lineage p := by
  rw [acyclic] at h
  split at h
  · cases h
  · rename_i hcycle
    simpa using hcycle

theorem addChild_ok (h : f.addChild p c = .ok g) :
    f.Has p ∧ f.Has c ∧ (f.parent? c).bind f.get? = none ∧ c ∉ f.lineage p ∧ g = f.link p c := by
  obtain ⟨node, child, hnode, hchild, hacyclic, rfl⟩ := addChild_cases h
  obtain ⟨hget, hfree⟩ := unattached_ok hchild
  refine ⟨has_of_get? (mutable_ok hnode).1, has_of_get? hget, ?_, acyclic_ok hacyclic, rfl⟩
  rwa [parent?_of_get? hget]

theorem addChild_eq {node child : Node} (hp : f.get? p = some node) (hopen : node.frozen = false)
    (hc : f.get? c = some child) (hfree : child.parent = none) (hcycle : c ∉ f.lineage p) :
    f.addChild p c = .ok (f.link p c) := by
  have hmutable : f.mutable p = .ok node := by
    simp [mutable, hp, hopen]
  have hunattached : f.unattached c = .ok child := by
    simp [unattached, hc, hfree]
  have hacyclic : f.acyclic p c = .ok () := by
    simp [acyclic, hcycle]
  refine addChild_eq_ok_iff.mpr ?_
  rw [Change.addChild, Change.given_bind, Change.bind_of_ok (Change.check_of_ok hmutable),
    Change.bind_of_ok (Change.check_of_ok hunattached),
    Change.bind_of_ok (Change.check_of_ok hacyclic)]
  rfl

theorem Sound.not_mem_lineage (hf : f.Sound) (hp : f.Has p) (hne : c ≠ p) (hc : f.children c = []) :
    c ∉ f.lineage p := by
  have hascent := hf.ascends_lineage hp
  generalize f.lineage p = l at hascent
  clear hp
  induction hascent with
  | root => simpa using hne
  | @up id q l hsome _ ih =>
    have hq : c ≠ q := by
      rintro rfl
      have := (hf.linked c id).mpr hsome
      rw [hc] at this
      cases this
    exact List.not_mem_cons_of_ne_of_not_mem hne (ih hq)

theorem Sound.parent?_of_addChild (hf : f.Sound) (h : f.addChild p c = .ok g) :
    f.parent? c = none := by
  obtain ⟨-, -, hfree, -, -⟩ := addChild_ok h
  cases hparent : f.parent? c with
  | none => rfl
  | some q =>
    obtain ⟨owner, howner⟩ := (hf.has_parent hparent).exists_get?
    rw [hparent, Option.bind_some, howner] at hfree
    cases hfree

theorem Sound.addChild (hf : f.Sound) (h : f.addChild p c = .ok g) : g.Sound := by
  obtain ⟨hp, hc, -, hcycle, rfl⟩ := addChild_ok h
  exact hf.link hp hc (hf.parent?_of_addChild h) hcycle

theorem Sound.adopts {ids : List NodeId} (hf : f.Sound) (h : Adopts p f ids g) : g.Sound := by
  induction h with
  | nil => exact hf
  | cons hfirst _ ih => exact ih (hf.addChild hfirst)

/-! ## Unlinking -/

/-- The forest with a child taken from its parent. -/
def unlink (f : Forest) (p c : NodeId) : Forest :=
  (f.modify p fun node => { node with children := node.children.erase c }).modify c
    fun node => { node with parent := none }

theorem removeChild_ok {removed : Bool} (h : f.removeChild p c = .ok (g, removed)) :
    g = f ∨ c ∈ f.children p ∧ g = f.unlink p c := by
  obtain ⟨node, hnode, rfl | ⟨hchild, rfl⟩⟩ := removeChild_cases h
  · exact Or.inl rfl
  · refine Or.inr ⟨?_, rfl⟩
    rwa [children_of_get? (mutable_ok hnode).1]

theorem parent?_unlink (x : NodeId) :
    (f.unlink p c).parent? x = if c = x then none else f.parent? x := by
  rw [unlink, parent?_modify, get?_modify, parent?_modify]
  by_cases hx : c = x
  · rw [if_pos hx, if_pos hx, Option.bind_fun_none]
  · rw [if_neg hx, if_neg hx]
    split
    · rfl
    · rfl

theorem children_unlink (x : NodeId) :
    (f.unlink p c).children x = if p = x then (f.children p).erase c else f.children x := by
  rw [unlink, children_modify, get?_modify, children_modify]
  by_cases hp : p = x
  · subst hp
    cases hnode : f.get? p with
    | none => by_cases hc : c = p <;> simp [hc, hnode, children]
    | some node => by_cases hc : c = p <;> simp [hc, hnode, children]
  · by_cases hc : c = x
    · simp only [hc, hp, if_true, if_false]
      rfl
    · simp only [hc, hp, if_false]

theorem has_unlink : (f.unlink p c).Has x ↔ f.Has x := by
  rw [Has, Has, unlink, get?_modify, get?_modify]
  by_cases hp : p = x <;> by_cases hc : c = x <;> simp [hp, hc]

/-- **Unlinking keeps a forest sound.** Walks that passed the child end there now, so that no walk
gets longer. -/
theorem Sound.unlink (hf : f.Sound) (hchild : c ∈ f.children p) : (f.unlink p c).Sound where
  linked q x := by
    have hparent := (hf.linked p c).mp hchild
    rw [parent?_unlink, children_unlink]
    -- no child is listed twice, so one that is erased is not listed any more
    by_cases hx : c = x
    · subst hx
      by_cases hq : p = q
      · subst hq
        simp [(hf.nodup p).mem_erase_iff]
      · simp [hq, hf.linked, hparent]
    · by_cases hq : p = q
      · subst hq
        simp [(hf.nodup p).mem_erase_iff, hx, Ne.symm hx, hf.linked]
      · simp [hx, hq, hf.linked]
  nodup q := by
    rw [children_unlink]
    split
    · exact (hf.nodup p).erase c
    · exact hf.nodup q
  ascends x := by
    obtain ⟨l, hl⟩ := hf.ascends x
    induction hl with
    -- walks through the child are cut there
    | @root id hnone => exact ⟨_, .root (by rw [parent?_unlink]; split <;> simp [hnone])⟩
    | @up id q l hsome _ ih =>
      obtain ⟨l', hl'⟩ := ih
      by_cases hid : c = id
      · exact ⟨_, .root (by rw [parent?_unlink, if_pos hid])⟩
      · exact ⟨_, .up (by rw [parent?_unlink, if_neg hid]; exact hsome) hl'⟩

theorem Sound.removeChild {removed : Bool} (hf : f.Sound)
    (h : f.removeChild p c = .ok (g, removed)) : g.Sound := by
  rcases removeChild_ok h with rfl | ⟨hchild, rfl⟩
  · exact hf
  · exact hf.unlink hchild

/-! ## Requests -/

/-- What is written to the forest on request of a node: children it takes in, something that it
says, or a child that it lets go. -/
inductive Effect (id : NodeId) (r : Request) : Forest → Forest → Prop
  | adopts {f g : Forest} {ids : List NodeId} (h : Adopts id f ids g) : Effect id r f g
  | update {f g : Forest} {change : Node → Node} (h : f.update id change = .ok g)
      (hlinks : ∀ node, (change node).links = node.links)
      (hfrozen : ∀ node, (change node).frozen = node.frozen) : Effect id r f g
  | removeChild {f g : Forest} {c : NodeId} {removed : Bool} (hr : r = .removeChild (some c))
      (h : f.removeChild id c = .ok (g, removed)) : Effect id r f g

theorem Effect.nothing {r : Request} : Effect id r f f := .adopts .nil

theorem update_eq_ok {change : Node → Node} (h : (Change.update id change).run f = .ok () g) :
    f.update id change = .ok g := by
  rw [Forest.update, Change.outcome, h]
  rfl

theorem removeChild_eq_ok {removed : Bool}
    (h : (Change.removeChild p (some c)).run f = .ok removed g) :
    f.removeChild p c = .ok (g, removed) := by
  rw [Forest.removeChild, Change.outcome, h]

/-- What a granted request writes. -/
theorem Request.effect_of_ok {r : Request} {answer : Option Bool}
    (h : (r.change id).run f = .ok answer g) :
    Effect id r f g := by
  cases r with
  -- each request is a change and then an answer, which writes nothing
  | addChild child =>
    obtain ⟨_, hrun, -⟩ := Change.ok_of_bind_pure h
    cases child with
    | none => cases hrun
    | some c => exact .adopts (.cons (addChild_eq_ok_iff.mpr hrun) .nil)
  | addChildren children =>
    obtain ⟨_, hrun, -⟩ := Change.ok_of_bind_pure h
    obtain ⟨ids, -, hids⟩ := Change.adopts_of_addChildren hrun
    exact .adopts hids
  | removeChild child =>
    obtain ⟨removed, hrun, -⟩ := Change.ok_of_bind_pure h
    cases child with
    | none => cases hrun
    | some c => exact .removeChild rfl (removeChild_eq_ok hrun)
  -- the rest set what a node says and leave its links alone
  | setText text =>
    obtain ⟨_, hrun, -⟩ := Change.ok_of_bind_pure h
    exact .update (update_eq_ok hrun) (fun _ => rfl) fun _ => rfl
  | setError isError =>
    obtain ⟨_, hrun, -⟩ := Change.ok_of_bind_pure h
    exact .update (update_eq_ok hrun) (fun _ => rfl) fun _ => rfl
  | setMissing isMissing =>
    obtain ⟨_, hrun, -⟩ := Change.ok_of_bind_pure h
    exact .update (update_eq_ok hrun) (fun _ => rfl) fun _ => rfl
  | setMetadata key value =>
    obtain ⟨_, hrun, -⟩ := Change.ok_of_bind_pure h
    cases key with
    | none => cases hrun
    | some key => exact .update (update_eq_ok hrun) (fun _ => rfl) fun _ => rfl

theorem Request.effect_of_error {r : Request} {refusal : NodeError}
    (h : (r.change id).run f = .error refusal g) :
    Effect id r f g := by
  by_cases hr : ∀ children, r ≠ .addChildren children
  · exact clean_change hr id f refusal g h ▸ .nothing
  · simp only [ne_eq, Classical.not_forall, Classical.not_not] at hr
    obtain ⟨children, rfl⟩ := hr
    rcases Change.adopts_of_refused_addChildren (Change.error_of_bind_pure h) with
      ⟨-, rfl⟩ | ⟨ids, child, after, -, hids, -⟩
    · exact .nothing
    · exact .adopts hids

end Forest

end SyntaxForest
