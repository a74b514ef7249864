import SyntaxForest.Forest.Basic

/-!
# Changes step by step

A change that is refused keeps what it wrote before, so it matters in which order it looks and
writes.

* **`Change.Reads`**, **`Change.Sure`**, **`Change.Clean`** — a change that writes nothing, one that
  is never refused, and one that has written nothing when it is refused. Checks followed by writes
  are clean (`Reads.bind`, `Sure.clean`), and all changes of a node are of this kind but one.
* **`Forest.Adopts`** — a node takes in some children one after another.
* **`Change.forM_addChild_cases`** — what adding several children comes to: all of them were taken
  in, or those before the first one refused.
* **`Request.clean_change`** — a request for anything but several children is clean.
-/

namespace SyntaxForest.Forest

namespace Change

variable {α β : Type} {x : Change α} {next : α → Change β} {f g e : Forest} {refusal : NodeError}

/-! ## One step after another -/

theorem bind_of_ok {a : α} (h : x.run f = .ok a g) : (x >>= next).run f = (next a).run g := by
  rw [EStateM.run_bind, h]

theorem bind_of_error (h : x.run f = .error refusal g) : (x >>= next).run f = .error refusal g := by
  rw [EStateM.run_bind, h]

theorem ok_of_bind_pure {answer : α → β} {b : β}
    (h : (x >>= fun a => pure (answer a)).run f = .ok b g) :
    ∃ a, x.run f = .ok a g ∧ answer a = b := by
  cases hx : x.run f with
  | ok a between =>
    rw [bind_of_ok hx] at h
    cases h
    exact ⟨a, rfl, rfl⟩
  | error refusal between =>
    rw [bind_of_error hx] at h
    cases h

theorem error_of_bind_pure {answer : α → β}
    (h : (x >>= fun a => pure (answer a)).run f = .error refusal g) :
    x.run f = .error refusal g := by
  cases hx : x.run f with
  | ok a between =>
    rw [bind_of_ok hx] at h
    cases h
  | error reason between =>
    rw [bind_of_error hx] at h
    cases h
    rfl

theorem given_bind (a : α) : (given refusal (some a) >>= next).run f = (next a).run f := rfl

theorem check_of_ok {test : Forest → Except NodeError α} {a : α} (h : test f = .ok a) :
    (check test).run f = .ok a f := by
  rw [check, EStateM.run_bind, EStateM.run_get]
  simp only [h]
  rfl

theorem check_of_error {test : Forest → Except NodeError α} (h : test f = .error refusal) :
    (check test).run f = .error refusal f := by
  rw [check, EStateM.run_bind, EStateM.run_get]
  simp only [h]
  rfl

theorem ok_of_check_bind {test : Forest → Except NodeError α} {b : β}
    (h : (check test >>= next).run f = .ok b e) :
    ∃ a, test f = .ok a ∧ (next a).run f = .ok b e := by
  cases htest : test f with
  | ok a => exact ⟨a, rfl, (bind_of_ok (check_of_ok htest)).symm.trans h⟩
  | error refusal =>
    rw [bind_of_error (check_of_error htest)] at h
    cases h

theorem outcome_ok {a : α} (h : x.outcome f = .ok (g, a)) : x.run f = .ok a g := by
  rw [outcome] at h
  split at h
  · cases h
    assumption
  · cases h

theorem ok_of_map_outcome {x : Change Unit} (h : (x.outcome f).map (·.1) = .ok g) :
    x.run f = .ok () g := by
  cases hx : x.outcome f with
  | ok result =>
    rw [hx] at h
    cases h
    exact outcome_ok hx
  | error refusal =>
    rw [hx] at h
    cases h

/-! ## Looking before writing -/

/-- The change writes nothing. -/
def Reads (x : Change α) : Prop :=
  ∀ f, (∃ a, x.run f = .ok a f) ∨ ∃ refusal, x.run f = .error refusal f

/-- The change is never refused. -/
def Sure (x : Change α) : Prop := ∀ f, ∃ a g, x.run f = .ok a g

/-- The change has written nothing when it is refused. -/
def Clean (x : Change α) : Prop := ∀ f refusal g, x.run f = .error refusal g → g = f

theorem reads_given (refusal : NodeError) (value : Option α) : Reads (given refusal value) := by
  intro f
  cases value with
  | some a => exact Or.inl ⟨a, rfl⟩
  | none => exact Or.inr ⟨refusal, rfl⟩

theorem reads_check (test : Forest → Except NodeError α) : Reads (check test) := by
  intro f
  cases htest : test f with
  | ok a => exact Or.inl ⟨a, check_of_ok htest⟩
  | error refusal => exact Or.inr ⟨refusal, check_of_error htest⟩

theorem sure_pure (a : α) : Sure (pure a) := fun f => ⟨a, f, rfl⟩

theorem sure_modifyGet (change : Forest → α × Forest) : Sure (modifyGet change : Change α) :=
  fun _ => ⟨_, _, rfl⟩

theorem Sure.bind (hx : Sure x) (hnext : ∀ a, Sure (next a)) : Sure (x >>= next) := by
  intro f
  obtain ⟨a, g, hok⟩ := hx f
  rw [bind_of_ok hok]
  exact hnext a g

theorem Sure.clean (hx : Sure x) : Clean x := by
  intro f refusal g h
  obtain ⟨a, g', hok⟩ := hx f
  rw [hok] at h
  cases h

theorem Reads.bind (hx : Reads x) (hnext : ∀ a, Clean (next a)) : Clean (x >>= next) := by
  intro f refusal g h
  rcases hx f with ⟨a, hok⟩ | ⟨reason, herror⟩
  · rw [bind_of_ok hok] at h
    exact hnext a f refusal g h
  · rw [bind_of_error herror] at h
    cases h
    rfl

theorem Clean.bind (hx : Clean x) (hnext : ∀ a, Sure (next a)) : Clean (x >>= next) := by
  intro f refusal g h
  cases hf : x.run f with
  | ok a between =>
    obtain ⟨b, after, hok⟩ := hnext a between
    rw [bind_of_ok hf, hok] at h
    cases h
  | error reason between =>
    rw [bind_of_error hf] at h
    cases h
    exact hx f refusal g hf

theorem clean_update (id : NodeId) (change : Node → Node) : Clean (update id change) :=
  (reads_check _).bind fun _ => (sure_modifyGet _).clean

theorem clean_setMetadata (id : NodeId) (key : Option String) (value : Datum) :
    Clean (setMetadata id key value) :=
  (reads_given _ _).bind fun _ => clean_update _ _

theorem clean_addChild (parent : NodeId) (child : Option NodeId) : Clean (addChild parent child) :=
  (reads_given _ _).bind fun _ => (reads_check _).bind fun _ => (reads_check _).bind fun _ =>
    (reads_check _).bind fun _ => (sure_modifyGet _).clean

theorem clean_removeChild (parent : NodeId) (child : Option NodeId) :
    Clean (removeChild parent child) := by
  refine (reads_given _ _).bind fun child => (reads_check _).bind fun node => ?_
  -- the answer depends on what is found, but there is nothing left that refuses
  split
  · exact ((sure_modifyGet _).bind fun _ => (sure_modifyGet _).bind fun _ => sure_pure true).clean
  · exact (sure_pure false).clean

end Change

/-! ## What was found before a change -/

variable {f g e : Forest} {p c id : NodeId}

theorem update_cases {change : Node → Node} (h : f.update id change = .ok g) :
    ∃ node, f.mutable id = .ok node ∧ g = f.modify id change := by
  obtain ⟨node, hnode, hwrite⟩ := Change.ok_of_check_bind (Change.ok_of_map_outcome h)
  cases hwrite
  exact ⟨node, hnode, rfl⟩

theorem addChild_eq_ok_iff :
    f.addChild p c = .ok g ↔ (Change.addChild p (some c)).run f = .ok () g := by
  refine ⟨Change.ok_of_map_outcome, fun h => ?_⟩
  rw [addChild, Change.outcome, h]
  rfl

theorem addChild_cases (h : f.addChild p c = .ok g) :
    ∃ node child, f.mutable p = .ok node ∧ f.unattached c = .ok child ∧ f.acyclic p c = .ok ()
      ∧ g = f.link p c := by
  have hrun := addChild_eq_ok_iff.mp h
  rw [Change.addChild, Change.given_bind] at hrun
  obtain ⟨node, hnode, hrun⟩ := Change.ok_of_check_bind hrun
  obtain ⟨child, hchild, hrun⟩ := Change.ok_of_check_bind hrun
  obtain ⟨_, hacyclic, hrun⟩ := Change.ok_of_check_bind hrun
  cases hrun
  exact ⟨node, child, hnode, hchild, hacyclic, rfl⟩

theorem removeChild_cases {removed : Bool} (h : f.removeChild p c = .ok (g, removed)) :
    ∃ node, f.mutable p = .ok node
      ∧ (g = f ∨ c ∈ node.children
          ∧ g = (f.modify p fun n => { n with children := n.children.erase c }).modify c
              fun n => { n with parent := none }) := by
  have hrun := Change.outcome_ok h
  rw [Change.removeChild, Change.given_bind] at hrun
  obtain ⟨node, hnode, hrun⟩ := Change.ok_of_check_bind hrun
  refine ⟨node, hnode, ?_⟩
  -- was the node among the children?
  split at hrun
  · rename_i hchild
    cases hrun
    exact Or.inr ⟨List.contains_iff_mem.mp hchild, rfl⟩
  · cases hrun
    exact Or.inl rfl

/-! ## Several children -/

/-- The node takes in these children, one after another. -/
inductive Adopts (p : NodeId) : Forest → List NodeId → Forest → Prop
  | nil {f : Forest} : Adopts p f [] f
  | cons {f g e : Forest} {c : NodeId} {rest : List NodeId} (hfirst : f.addChild p c = .ok g)
      (hrest : Adopts p g rest e) : Adopts p f (c :: rest) e

namespace Change

/-- Adding children goes on to the end, or to the first one refused, and nothing is written for that
one. -/
theorem forM_addChild_cases (p : NodeId) (children : List (Option NodeId)) (f : Forest) :
    (∃ ids g, children = ids.map some ∧ Adopts p f ids g ∧ (forM children (addChild p)).run f
      = .ok () g)
      ∨ ∃ ids child after refusal g, children = ids.map some ++ child :: after ∧ Adopts p f ids g
          ∧ (addChild p child).run g = .error refusal g ∧ (forM children (addChild p)).run f
            = .error refusal g := by
  induction children generalizing f with
  | nil => exact Or.inl ⟨[], f, rfl, .nil, rfl⟩
  | cons child rest ih =>
    rw [List.forM_cons]
    cases hchild : (addChild p child).run f with
    | error refusal g =>
      obtain rfl := clean_addChild p child f refusal g hchild
      exact Or.inr ⟨[], child, rest, refusal, g, rfl, .nil, hchild, bind_of_error hchild⟩
    | ok _ g =>
      -- a child that is taken in was given
      obtain ⟨c, rfl⟩ : ∃ c, child = some c := by
        cases child with
        | some c => exact ⟨c, rfl⟩
        | none => cases hchild
      have hfirst := addChild_eq_ok_iff.mpr hchild
      rw [bind_of_ok hchild]
      rcases ih g with ⟨ids, e, rfl, hids, hok⟩
        | ⟨ids, child, after, refusal, e, rfl, hids, hrefused, herror⟩
      · exact Or.inl ⟨c :: ids, e, rfl, .cons hfirst hids, hok⟩
      · exact Or.inr ⟨c :: ids, child, after, refusal, e, rfl, .cons hfirst hids, hrefused, herror⟩

variable {children : Option (List (Option NodeId))}

theorem adopts_of_addChildren (h : (addChildren p children).run f = .ok () g) :
    ∃ ids, children = some (ids.map some) ∧ Adopts p f ids g := by
  cases children with
  | none => cases h
  | some children =>
    rw [addChildren, given_bind] at h
    rcases forM_addChild_cases p children f with ⟨ids, e, rfl, hids, hok⟩
      | ⟨_, _, _, _, _, -, -, -, herror⟩
    · rw [hok] at h
      cases h
      exact ⟨ids, rfl, hids⟩
    · rw [herror] at h
      cases h

/-- **Where adding children stops.** If there were any given, then those before the first one
refused were taken in. -/
theorem adopts_of_refused_addChildren {refusal : NodeError}
    (h : (addChildren p children).run f = .error refusal g) :
    children = none ∧ g = f
      ∨ ∃ ids child after, children = some (ids.map some ++ child :: after) ∧ Adopts p f ids g
          ∧ (addChild p child).run g = .error refusal g := by
  cases children with
  | none =>
    cases h
    exact Or.inl ⟨rfl, rfl⟩
  -- a list was given, and it has a first child that is refused
  | some children =>
    rw [addChildren, given_bind] at h
    rcases forM_addChild_cases p children f with
      ⟨_, _, -, -, hok⟩ | ⟨ids, child, after, reason, e, rfl, hids, hrefused, herror⟩
    · rw [hok] at h
      cases h
    · rw [herror] at h
      cases h
      exact Or.inr ⟨ids, child, after, rfl, hids, hrefused⟩

end Change

/-! ## Requests -/

/-- Only a request to add several children may have written something when it is refused. -/
theorem Request.clean_change {r : Request} (hr : ∀ children, r ≠ .addChildren children)
    (id : NodeId) :
    Change.Clean (r.change id) := by
  -- every request is a clean change and an answer, which is never refused
  cases r with
  | addChild child => exact (Change.clean_addChild id child).bind fun _ => Change.sure_pure none
  | addChildren children => exact absurd rfl (hr children)
  | removeChild child =>
    exact (Change.clean_removeChild id child).bind fun removed => Change.sure_pure (some removed)
  | setText text => exact (Change.clean_update id _).bind fun _ => Change.sure_pure none
  | setError isError => exact (Change.clean_update id _).bind fun _ => Change.sure_pure none
  | setMissing isMissing => exact (Change.clean_update id _).bind fun _ => Change.sure_pure none
  | setMetadata key value =>
    exact (Change.clean_setMetadata id key value).bind fun _ => Change.sure_pure none

end SyntaxForest.Forest
