import SyntaxForest.Proofs.Forest.Sessions

/-!
# Frozen nodes

Freezing goes once through a tree and marks its nodes. From then on it is up to the operations, each
of which looks at the mark of the one node that it is asked to change.

* **`Forest.Edit`**, **`Session.Writes`** — all that operations do to a forest, and what a step of a
  session comes to: edits, and a new value for a mark of a node that is not frozen.
* **`Forest.Closed`**, **`Closed.edit`** — what is below a frozen node is frozen. Linking under a
  frozen node and unlinking from it are refused, and freezing goes all the way down.
* **`Forest.Sealed`**, **`Preserves.edit`** — a node that is frozen or gone stays so, with all that
  it says and with its children.
* **`Session.Leads`**, **`Leads.closed`**, **`Leads.preserves`** — the same for whole runs, in which
  syntax trees may be made of any nodes.
-/

namespace SyntaxForest

namespace Forest

variable {f g e : Forest} {p c x y id : NodeId} {node : Node}

/-! ## Nodes that may change -/

theorem isFrozen_of_get? (h : f.get? x = some node) : f.isFrozen x = node.frozen := by
  rw [isFrozen, h]
  rfl

theorem has_of_isFrozen (h : f.isFrozen x = true) : f.Has x := by
  cases hx : f.get? x with
  | some node => exact has_of_get? hx
  | none =>
    rw [isFrozen, hx] at h
    cases h

theorem isFrozen_modify (f : Forest) (id x : NodeId) {change : Node → Node}
    (hchange : ∀ node, (change node).frozen = node.frozen) :
    (f.modify id change).isFrozen x = f.isFrozen x := by
  rw [isFrozen, get?_modify, isFrozen]
  split
  · rw [Option.map_map]
    exact congrArg (fun read => (Option.map read (f.get? x)).getD false) (funext hchange)
  · rfl

theorem mutable_of_update {change : Node → Node} (h : f.update id change = .ok g) :
    ∃ node, f.mutable id = .ok node := by
  obtain ⟨node, hnode, -⟩ := update_cases h
  exact ⟨node, hnode⟩

theorem mutable_of_addChild (h : f.addChild p c = .ok g) : ∃ node, f.mutable p = .ok node := by
  obtain ⟨node, -, hnode, -⟩ := addChild_cases h
  exact ⟨node, hnode⟩

theorem mutable_of_removeChild {removed : Bool} (h : f.removeChild p c = .ok (g, removed)) :
    ∃ node, f.mutable p = .ok node := by
  obtain ⟨node, hnode, -⟩ := removeChild_cases h
  exact ⟨node, hnode⟩

theorem isFrozen_of_mutable (h : ∃ node, f.mutable id = .ok node) : f.isFrozen id = false := by
  obtain ⟨node, hnode⟩ := h
  obtain ⟨hget, hopen⟩ := mutable_ok hnode
  exact (isFrozen_of_get? hget).trans hopen

theorem isFrozen_link (x : NodeId) : (f.link p c).isFrozen x = f.isFrozen x := by
  rw [link, isFrozen_modify, isFrozen_modify]
  · exact fun _ => rfl
  · exact fun _ => rfl

theorem isFrozen_unlink (x : NodeId) : (f.unlink p c).isFrozen x = f.isFrozen x := by
  rw [unlink, isFrozen_modify, isFrozen_modify]
  · exact fun _ => rfl
  · exact fun _ => rfl

/-! ### Freezing -/

theorem get?_freeze (f : Forest) (id x : NodeId) :
    (f.freeze id).get? x = (f.get? x).map fun node =>
      if x ∈ id :: f.descendants id then { node with frozen := true } else node := by
  have hfold : ∀ (ids : List NodeId) (e : Forest),
      (ids.foldl (fun e n => e.modify n fun node => { node with frozen := true }) e).get? x
        = (e.get? x).map fun node => if x ∈ ids then { node with frozen := true } else node := by
    intro ids
    induction ids with
    | nil => simp
    | cons n rest ih =>
      intro e
      rw [List.foldl_cons, ih, get?_modify]
      cases e.get? x with
      | none => simp
      | some node =>
        -- the node may be marked now, later, or both
        by_cases hn : x = n
        · by_cases hx : n ∈ rest <;> simp [hn, hx]
        · simp [hn, Ne.symm hn]
  exact hfold _ f

theorem Under.has (hid : f.Has id) (h : f.Under x id) : f.Has x := by
  rcases h.cases with rfl | ⟨p, hp, -⟩
  · exact hid
  · exact has_of_parent? hp

theorem Sound.isFrozen_freeze (hf : f.Sound) (hid : f.Has id) (x : NodeId) :
    (f.freeze id).isFrozen x = true ↔ f.isFrozen x = true ∨ f.Under x id := by
  rw [← hf.mem_descendants_iff hid, isFrozen, get?_freeze, isFrozen]
  cases hx : f.get? x with
  | some node => by_cases hmem : x ∈ id :: f.descendants id <;> simp [hmem]
  | none =>
    -- a node that is not there is below none that is
    have hnot : x ∉ id :: f.descendants id := by
      intro hmem
      obtain ⟨node, hnode⟩ := (((hf.mem_descendants_iff hid).mp hmem).has hid).exists_get?
      rw [hx] at hnode
      cases hnode
    simpa using hnot

/-! ### Forgetting -/

theorem Node.forgetParent_same (kept : Array Bool) (node : Node) :
    (forgetParent kept node).frozen = node.frozen ∧ (forgetParent kept node).toNodeInfo
      = node.toNodeInfo
      ∧ (forgetParent kept node).children = node.children := by
  rw [forgetParent]
  split
  · split <;> exact ⟨rfl, rfl, rfl⟩
  · exact ⟨rfl, rfl, rfl⟩

theorem exists_of_get?_sweep {held : List NodeId} (h : (f.sweep held).get? x = some node) :
    ∃ kept before, f.get? x = some before ∧ node = Node.forgetParent kept before := by
  rw [sweep, get?, Array.getElem?_mapIdx, Option.join_eq_some_iff, Option.map_eq_some_iff] at h
  obtain ⟨slot, hslot, h⟩ := h
  split at h
  · obtain ⟨before, rfl, rfl⟩ := Option.map_eq_some_iff.mp h
    exact ⟨_, before, by rw [get?, hslot]; rfl, rfl⟩
  · cases h

theorem size_sweep (f : Forest) (held : List NodeId) : (f.sweep held).size = f.size :=
  Array.size_mapIdx

/-! ## Edits -/

/-- What an operation does to a forest, if it does not refuse. A change of a node is one of what it
says: links and the mark are kept. -/
inductive Edit : Forest → Forest → Prop
  | insert {f g : Forest} {info : NodeInfo} {id : NodeId} (h : f.insert info = .ok (g, id)) :
      Edit f g
  | update {f g : Forest} {id : NodeId} {change : Node → Node} (h : f.update id change = .ok g)
      (hlinks : ∀ node, (change node).links = node.links)
      (hfrozen : ∀ node, (change node).frozen = node.frozen) : Edit f g
  | addChild {f g : Forest} {p c : NodeId} (h : f.addChild p c = .ok g) : Edit f g
  | removeChild {f g : Forest} {p c : NodeId} {removed : Bool}
      (h : f.removeChild p c = .ok (g, removed)) : Edit f g
  | freeze {f : Forest} {id : NodeId} (h : f.Has id) : Edit f (f.freeze id)
  | sweep {f : Forest} {held : List NodeId} (h : ∀ x ∈ held, f.Has x) : Edit f (f.sweep held)

/-- One edit after another. -/
abbrev Edits : Forest → Forest → Prop := Relation.ReflTransGen Edit

theorem Sound.edit (hf : f.Sound) (h : Edit f g) : g.Sound := by
  cases h with
  | insert h => exact hf.insert h
  | update h hlinks hfrozen => exact hf.sameLinks (.update h hlinks)
  | addChild h => exact hf.addChild h
  | removeChild h => exact hf.removeChild h
  | freeze h => exact hf.sameLinks (f.sameNodes_freeze _).sameLinks
  | sweep h => exact hf.sweep h

theorem edits_adopts {ids : List NodeId} (h : Adopts p f ids g) : Edits f g := by
  induction h with
  | nil => exact .refl
  | cons hfirst _ ih => exact .head (.addChild hfirst) ih

theorem Effect.edits {r : Request} (h : Effect id r f g) : Edits f g := by
  cases h with
  | adopts hids => exact edits_adopts hids
  | update hupdate hlinks hfrozen => exact .single (.update hupdate hlinks hfrozen)
  | removeChild _ hremove => exact .single (.removeChild hremove)

theorem edits_plant {seed : Seed} (h : f.plant seed = .ok (g, id)) : Edits f g := by
  rw [plant] at h
  obtain ⟨info, -, h⟩ := exists_ok_of_bind h
  obtain ⟨⟨grown, new⟩, hinsert, h⟩ := exists_ok_of_bind h
  have hgrown : Edits f grown := .single (.insert (ok_of_mapError hinsert))
  dsimp only at h
  split at h
  · cases h
    exact hgrown
  · obtain ⟨parent, -, h⟩ := exists_ok_of_bind h
    obtain ⟨linked, hlinked, h⟩ := exists_ok_of_bind h
    cases h
    exact hgrown.tail (.addChild (ok_of_mapError hlinked))

/-! ## What is below a frozen node is frozen -/

/-- The children of frozen nodes are frozen. -/
def Closed (f : Forest) : Prop :=
  ∀ p c, f.isFrozen p = true → c ∈ f.children p → f.isFrozen c = true

theorem Closed.isFrozen_of_under (h : f.Closed) (hf : f.Sound) (hx : f.isFrozen x = true)
    (hunder : f.Under y x) : f.isFrozen y = true := by
  obtain ⟨l, hl, hmem⟩ := hunder
  induction hl with
  | root =>
    rw [← List.mem_singleton.mp hmem]
    exact hx
  | @up y q l hparent _ ih =>
    rcases List.mem_cons.mp hmem with rfl | habove
    · exact hx
    · exact h q y (ih habove) ((hf.linked q y).mpr hparent)

theorem Closed.isFrozen_of_mem_descendants (h : f.Closed) (hf : f.Sound) (hx : f.isFrozen x = true)
    (hy : y ∈ f.descendants x) : f.isFrozen y = true :=
  h.isFrozen_of_under hf hx ((hf.mem_descendants_iff (has_of_isFrozen hx)).mp
    (List.mem_cons_of_mem x hy))

theorem Closed.congr (h : f.Closed) (hfrozen : ∀ x, g.isFrozen x = f.isFrozen x)
    (hchildren : ∀ x, f.isFrozen x = true → g.children x ⊆ f.children x) : g.Closed := by
  intro p c hp hc
  rw [hfrozen] at hp ⊢
  exact h p c hp (hchildren p hp hc)

theorem Closed.insert {info : NodeInfo} (h : f.Closed) (hf : f.Sound)
    (hinsert : f.insert info = .ok (g, id)) :
    g.Closed := by
  obtain ⟨-, rfl, -, hget⟩ := insert_ok hinsert
  have hold : ∀ x, x ≠ f.size → g.get? x = f.get? x := fun x hx => by rw [hget, if_neg hx]
  have hnew : g.get? f.size = some { info with } := by rw [hget, if_pos rfl]
  intro p c hp hc
  -- the new node has no children and is no child
  have hpold : p ≠ f.size := by
    rintro rfl
    rw [children_of_get? hnew] at hc
    cases hc
  rw [isFrozen, hold p hpold] at hp
  rw [children, hold p hpold] at hc
  have hcold : c ≠ f.size := Nat.ne_of_lt (hf.has_child hc).lt_size
  rw [isFrozen, hold c hcold]
  exact h p c hp hc

theorem Closed.freeze (h : f.Closed) (hf : f.Sound) (hid : f.Has id) : (f.freeze id).Closed := by
  intro p c hp hc
  rw [(f.sameNodes_freeze id).sameLinks.children] at hc
  rw [hf.isFrozen_freeze hid] at hp ⊢
  exact hp.imp (fun hfrozen => h p c hfrozen hc) fun hunder =>
    .of_parent ((hf.linked p c).mp hc) hunder

theorem Closed.sweep {held : List NodeId} (h : f.Closed) (hf : f.Sound)
    (hheld : ∀ x ∈ held, f.Has x) :
    (f.sweep held).Closed := by
  have hsame : ∀ x, f.Kept held x → (f.sweep held).isFrozen x = f.isFrozen x := by
    intro x hkept
    obtain ⟨node, hnode⟩ := (hkept.has hheld).exists_get?
    rw [isFrozen_of_get? (hf.get?_sweep_of_kept hheld hkept hnode), isFrozen_of_get? hnode]
    exact (Node.forgetParent_same ..).1
  -- the parent is still there, since it has a child
  intro p c hp hc
  have hkept : f.Kept held p := (hf.has_sweep hheld).mp (has_of_mem_children hc)
  rw [hf.children_sweep hheld hkept] at hc
  rw [hsame p hkept] at hp
  rw [hsame c (hkept.of_parent ((hf.linked p c).mp hc))]
  exact h p c hp hc

/-- **An edit leaves no frozen node with a child that is not.** Frozen nodes take no children in,
and a node that is frozen is frozen with all that is below it. -/
theorem Closed.edit (h : f.Closed) (hf : f.Sound) (hedit : Edit f g) : g.Closed := by
  cases hedit with
  | insert hinsert => exact h.insert hf hinsert
  | update hupdate hlinks hfrozen =>
    have hsame := SameLinks.update hupdate hlinks
    obtain rfl := update_ok hupdate
    exact h.congr (fun x => isFrozen_modify _ _ x hfrozen) fun x _ =>
      (hsame.children x) ▸ List.Subset.refl _
  | addChild hadd =>
    -- the child may well not be frozen, but then its new parent is not either
    have hopen := isFrozen_of_mutable (mutable_of_addChild hadd)
    obtain ⟨hp, -, -, -, rfl⟩ := addChild_ok hadd
    refine h.congr isFrozen_link fun x hx => ?_
    rw [children_link hp, if_neg]
    · exact List.Subset.refl _
    · rintro rfl
      rw [hopen] at hx
      cases hx
  -- fewer children can only help
  | removeChild hremove =>
    rcases removeChild_ok hremove with rfl | ⟨-, rfl⟩
    · exact h
    · refine h.congr isFrozen_unlink fun x _ => ?_
      rw [children_unlink]
      split
      · rename_i heq
        exact heq ▸ List.erase_subset
      · exact List.Subset.refl _
  | freeze hid => exact h.freeze hf hid
  | sweep hheld => exact h.sweep hf hheld

/-! ## Frozen nodes do not change -/

/-- The id was given out, and its node is frozen or gone. -/
def Sealed (f : Forest) (x : NodeId) : Prop :=
  x < f.size ∧ ∀ node, f.get? x = some node → node.frozen = true

theorem sealed_of_isFrozen (h : f.isFrozen x = true) : f.Sealed x := by
  refine ⟨(has_of_isFrozen h).lt_size, fun node hnode => ?_⟩
  rwa [isFrozen_of_get? hnode] at h

theorem not_sealed_of_mutable (h : f.mutable x = .ok node) : ¬f.Sealed x := by
  obtain ⟨hnode, hopen⟩ := mutable_ok h
  intro hsealed
  rw [hsealed.2 node hnode] at hopen
  cases hopen

/-- Sealed nodes stay sealed; what is there of them later was there before, said the same and had
the same children. -/
def Preserves (f g : Forest) : Prop :=
  ∀ x, f.Sealed x → g.Sealed x ∧ ∀ node, g.get? x = some node →
    ∃ before, f.get? x = some before ∧ before.toNodeInfo = node.toNodeInfo
      ∧ before.children = node.children

namespace Preserves

theorem refl (f : Forest) : Preserves f f :=
  fun _ hx => ⟨hx, fun node hnode => ⟨node, hnode, rfl, rfl⟩⟩

theorem trans (hfg : Preserves f g) (hge : Preserves g e) : Preserves f e := by
  intro x hx
  obtain ⟨hsealed, hbefore⟩ := hfg x hx
  obtain ⟨hlast, hlater⟩ := hge x hsealed
  refine ⟨hlast, fun node hnode => ?_⟩
  -- what is there in the end was there in the middle, and so in the beginning
  obtain ⟨middle, hmiddle, hinfo, hchildren⟩ := hlater node hnode
  obtain ⟨first, hfirst, hinfo', hchildren'⟩ := hbefore middle hmiddle
  exact ⟨first, hfirst, hinfo'.trans hinfo, hchildren'.trans hchildren⟩

theorem of_get? (hsize : f.size ≤ g.size)
    (h : ∀ x < f.size, f.Sealed x → ∀ node, g.get? x = some node → ∃ before, f.get? x = some before
      ∧ (before.frozen = true → node.frozen = true) ∧ before.toNodeInfo = node.toNodeInfo
      ∧ before.children = node.children) : Preserves f g := by
  intro x hx
  refine ⟨⟨Nat.lt_of_lt_of_le hx.1 hsize, fun node hnode => ?_⟩, fun node hnode => ?_⟩
  · obtain ⟨before, hbefore, hfrozen, -⟩ := h x hx.1 hx node hnode
    exact hfrozen (hx.2 before hbefore)
  · obtain ⟨before, hbefore, -, hsame⟩ := h x hx.1 hx node hnode
    exact ⟨before, hbefore, hsame⟩

theorem modify {change : Node → Node}
    (h : f.isFrozen id = false ∨ ∀ node, (node.frozen = true → (change node).frozen = true)
      ∧ node.toNodeInfo = (change node).toNodeInfo ∧ node.children = (change node).children) :
    Preserves f (f.modify id change) := by
  refine of_get? (Nat.le_of_eq (size_modify ..).symm) fun x _ hsealed node hnode => ?_
  rw [get?_modify] at hnode
  split at hnode
  · rename_i heq
    subst heq
    obtain ⟨before, hbefore, rfl⟩ := Option.map_eq_some_iff.mp hnode
    rcases h with hopen | hsame
    · rw [isFrozen_of_get? hbefore, hsealed.2 before hbefore] at hopen
      cases hopen
    · exact ⟨before, hbefore, hsame before⟩
  · exact ⟨node, hnode, fun hfrozen => hfrozen, rfl, rfl⟩

theorem insert {info : NodeInfo} (h : f.insert info = .ok (g, id)) : Preserves f g := by
  obtain ⟨-, rfl, hsize, hget⟩ := insert_ok h
  refine of_get? (hsize ▸ Nat.le_succ _) fun x hx _ node hnode => ?_
  rw [hget, if_neg (Nat.ne_of_lt hx)] at hnode
  exact ⟨node, hnode, fun hfrozen => hfrozen, rfl, rfl⟩

theorem link (hopen : f.isFrozen p = false) : Preserves f (f.link p c) := by
  have hchild : Preserves f (f.modify c fun node => { node with parent := some p }) :=
    .modify (.inr fun _ => ⟨fun hfrozen => hfrozen, rfl, rfl⟩)
  refine hchild.trans (.modify (.inl ?_))
  rw [isFrozen_modify]
  · exact hopen
  · exact fun _ => rfl

theorem unlink (hopen : f.isFrozen p = false) : Preserves f (f.unlink p c) := by
  have hparent : Preserves f
      (f.modify p fun node => { node with children := node.children.erase c }) :=
    .modify (.inl hopen)
  exact hparent.trans (.modify (.inr fun _ => ⟨fun hfrozen => hfrozen, rfl, rfl⟩))

theorem freeze (f : Forest) (id : NodeId) : Preserves f (f.freeze id) := by
  have hfold : ∀ (ids : List NodeId) (e : Forest), Preserves f e →
      Preserves f (ids.foldl (fun e n => e.modify n fun node => { node with frozen := true })
        e) := by
    intro ids
    induction ids with
    | nil => exact fun e he => he
    | cons n rest ih =>
      exact fun e he => ih _ (he.trans (.modify (.inr fun _ => ⟨fun _ => rfl, rfl, rfl⟩)))
  exact hfold _ f (.refl f)

/-- **An edit preserves frozen nodes.** Changes and new children are refused by nodes that are
frozen; what is left are links upwards, marks and forgotten nodes. -/
theorem edit (h : Edit f g) : Preserves f g := by
  cases h with
  | insert h => exact .insert h
  | update h hlinks hfrozen =>
    have hopen := isFrozen_of_mutable (mutable_of_update h)
    obtain rfl := update_ok h
    exact .modify (.inl hopen)
  | addChild h =>
    have hopen := isFrozen_of_mutable (mutable_of_addChild h)
    obtain ⟨-, -, -, -, rfl⟩ := addChild_ok h
    exact .link hopen
  | removeChild h =>
    have hopen := isFrozen_of_mutable (mutable_of_removeChild h)
    rcases removeChild_ok h with rfl | ⟨-, rfl⟩
    · exact .refl _
    · exact .unlink hopen
  | freeze h => exact .freeze f _
  -- forgetting takes away nodes and links upwards
  | sweep h =>
    refine of_get? (Nat.le_of_eq (size_sweep ..).symm) fun x _ _ node hnode => ?_
    obtain ⟨kept, before, hbefore, rfl⟩ := exists_of_get?_sweep hnode
    obtain ⟨hfrozen, hinfo, hchildren⟩ := Node.forgetParent_same kept before
    exact ⟨before, hbefore, fun h => hfrozen.trans h, hinfo.symm, hchildren.symm⟩

end Preserves

theorem Edits.preserves (h : Edits f g) : Preserves f g := by
  induction h with
  | refl => exact .refl f
  | tail _ hedit ih => exact ih.trans (.edit hedit)

theorem Edits.sound (h : Edits f g) (hf : f.Sound) : g.Sound := by
  induction h with
  | refl => exact hf
  | tail _ hedit ih => exact ih.edit hedit

theorem Edits.closed (h : Edits f g) (hf : f.Sound) (hclosed : f.Closed) : g.Closed := by
  induction h with
  | refl => exact hclosed
  | tail hbefore hedit ih => exact ih.edit (Edits.sound hbefore hf) hedit

end Forest

/-! ## What a step of a session writes -/

namespace Session

variable {s s' s'' : Session} {a : Action} {reply : Reply}

/-- Edits of the forest, and new values for marks of nodes that are neither frozen nor gone. -/
structure Writes (s s' : Session) : Prop where
  edits : Forest.Edits s.forest s'.forest
  marks : ∀ x mark, s.forest.Sealed x → s'.marks.get? (x, mark) = s.marks.get? (x, mark)

theorem Writes.of_edits (h : Forest.Edits s.forest s'.forest) (hmarks : s'.marks = s.marks) :
    Writes s s' :=
  ⟨h, fun _ _ _ => by rw [hmarks]⟩

theorem Writes.of_edit (h : Forest.Edit s.forest s'.forest) (hmarks : s'.marks = s.marks) :
    Writes s s' :=
  .of_edits (.single h) hmarks

theorem Writes.refl (s : Session) : Writes s s := .of_edits .refl rfl

theorem marks_of_granted {id : NodeId} {r : Forest.Request} {answer : Option Bool} {g : Forest}
    (hr : s.request? a = some (.ok (id, r))) (hok : (r.change id).run s.forest = .ok answer g)
    {x : NodeId} (hx : s.forest.Sealed x) (mark : Mark) :
    (withMark { s with forest := g } id a).marks.get? (x, mark) = s.marks.get? (x, mark) := by
  cases a with
  | setText | setError | setMissing =>
    obtain ⟨_, -, h⟩ := exists_ok_of_bind (Option.some.inj hr)
    cases h
    obtain ⟨_, hrun, -⟩ := Forest.Change.ok_of_bind_pure hok
    obtain ⟨node, hnode, -⟩ := Forest.update_cases (Forest.update_eq_ok hrun)
    rw [withMark, Assoc.get?_set, if_neg]
    rintro ⟨⟩
    exact Forest.not_sealed_of_mutable hnode hx
  | _ => rfl

theorem writes_submit {id : NodeId} {r : Forest.Request} (hr : s.request? a = some (.ok (id, r))) :
    Writes s (s.submit a id r).1 := by
  unfold submit
  split
  -- a request that is granted may set a mark besides
  · rename_i answer forest hok
    refine ⟨?_, fun x mark hx => marks_of_granted hr hok hx mark⟩
    obtain ⟨marks, hmarks⟩ := exists_withMark { s with forest } id a
    rw [hmarks]
    exact (Forest.Request.effect_of_ok hok).edits
  -- a request that is refused may have taken in some children, but sets no mark
  · rename_i refusal forest herror
    exact .of_edits (Forest.Request.effect_of_error herror).edits rfl

/-- All other actions: they make a node, freeze one, let go of one, or only ask. -/
theorem writes_perform (h : s.Safe) (hperform : s.perform a = .ok (s', reply)) : Writes s s' := by
  -- most actions only ask
  have of_same : s' = s → Writes s s' := by
    rintro rfl
    exact .refl _
  cases a with
  | create label seed =>
    obtain ⟨⟨grown, id⟩, hplant, hcreate⟩ := exists_ok_of_bind hperform
    cases hcreate
    exact .of_edits (Forest.edits_plant hplant) rfl
  | addChild | addChildren | removeChild | setText | setError | setMissing | setMetadata =>
    cases hperform
    exact of_same rfl
  | getMetadata node key default => exact of_same (ask_ok hperform)
  | overwriteMetadata node =>
    obtain ⟨id, -, hperform⟩ := exists_ok_of_bind hperform
    cases hperform
  | freeze node =>
    obtain ⟨id, hfind, hperform⟩ := exists_ok_of_bind hperform
    cases hperform
    exact .of_edit (.freeze (h.held id (find_ok hfind))) rfl
  | findChild node which => exact of_same (ask_ok hperform)
  | childrenWhere node which => exact of_same (ask_ok hperform)
  | descendantsWhere node which => exact of_same (ask_ok hperform)
  | findDescendant node which => exact of_same (ask_ok hperform)
  | path node => exact of_same (ask_ok hperform)
  | depth node => exact of_same (ask_ok hperform)
  | accept node visitor =>
    cases visitor with
    | none =>
      obtain ⟨id, -, hperform⟩ := exists_ok_of_bind hperform
      cases hperform
    | some visitor => exact of_same (ask_ok hperform)
  | shown node => exact of_same (ask_ok hperform)
  | described node => exact of_same (ask_ok hperform)
  | parent node => exact of_same (ask_ok hperform)
  | inspect node => exact of_same (ask_ok hperform)
  | walk cursor node which =>
    obtain ⟨id, -, hperform⟩ := exists_ok_of_bind hperform
    cases hperform
    exact .of_edits .refl rfl
  | advance cursor count =>
    rw [perform] at hperform
    split at hperform
    · cases hperform
    · cases hperform
      exact .of_edits .refl rfl
  | release node =>
    obtain ⟨id, -, hperform⟩ := exists_ok_of_bind hperform
    cases hperform
    exact .of_edits .refl rfl

theorem writes_attempt (h : s.Safe) (a : Action) : Writes s (s.attempt a).1 := by
  unfold attempt
  split
  · exact writes_submit ‹_›
  · exact .refl s
  · split
    · rename_i hperform
      exact writes_perform h hperform
    · exact .refl s

theorem Writes.settle (h : Writes s s') (hsafe : s'.Safe) : Writes s s'.settle :=
  ⟨h.edits.tail (.sweep hsafe.held), h.marks⟩

/-- **What a step writes**, whether it succeeds or fails. -/
theorem writes_step (h : s.Tidy) (a : Action) : Writes s (s.step a).1 := by
  have hwrites := writes_attempt h.toSafe a
  unfold Session.step
  dsimp only
  split
  · exact hwrites.settle (attempt_safe h.toSafe a).1
  · exact hwrites

/-! ## Runs in which syntax trees are made -/

/-- Steps lead from one session to the other, and between them syntax trees are made, each of which
freezes a node and what is below it. -/
inductive Leads (s : Session) : Session → Prop
  | refl : Leads s s
  | step {s' : Session} (h : Leads s s') (a : Action) : Leads s (s'.step a).1
  | make {s' : Session} (h : Leads s s') {id : NodeId} (hid : s'.forest.Has id) :
      Leads s { s' with forest := s'.forest.freeze id }

theorem leads_foldl (s : Session) (run : List Action) :
    Leads s (run.foldl (fun s a => (s.step a).1) s) := by
  induction run using List.reverseRecOn with
  | nil => exact .refl
  | append_singleton run a ih =>
    rw [List.foldl_append]
    exact ih.step a

theorem Tidy.empty : Tidy {} :=
  ⟨⟨.empty, fun x hx => by cases hx⟩, fun x hx => by cases hx.lt_size⟩

theorem Tidy.make (h : s.Tidy) (id : NodeId) : Tidy { s with forest := s.forest.freeze id } :=
  Grows.tidy h (.sameLinks h.toSafe (s.forest.sameNodes_freeze id).sameLinks)

namespace Leads

theorem tidy (h : Leads s s') (hs : s.Tidy) : s'.Tidy := by
  induction h with
  | refl => exact hs
  | step _ a ih => exact ih.step a
  | make _ _ ih => exact ih.make _

theorem edits (h : Leads s s') (hs : s.Tidy) : Forest.Edits s.forest s'.forest := by
  induction h with
  | refl => exact .refl
  | step h a ih => exact ih.trans (writes_step (h.tidy hs) a).edits
  | make _ hid ih => exact ih.tail (.freeze hid)

/-- **Frozen nodes are preserved throughout a run**, in which any number of syntax trees may be
made. -/
theorem preserves (h : Leads s s') (hs : s.Tidy) : s.forest.Preserves s'.forest :=
  (h.edits hs).preserves

/-- **What is below frozen nodes stays frozen throughout a run**, provided that it was when the run
began. -/
theorem closed (h : Leads s s') (hs : s.Tidy) (hclosed : s.forest.Closed) : s'.forest.Closed :=
  (h.edits hs).closed hs.sound hclosed

theorem marks (h : Leads s s') (hs : s.Tidy) {x : NodeId} (hx : s.forest.Sealed x) (mark : Mark) :
    s'.marks.get? (x, mark) = s.marks.get? (x, mark) := by
  induction h with
  | refl => rfl
  | step h a ih => exact ((writes_step (h.tidy hs) a).marks x mark (h.preserves hs x hx).1).trans ih
  | make _ _ ih => exact ih

end Leads

end Session

end SyntaxForest
