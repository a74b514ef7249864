import SyntaxForest.Proofs.Forest.Sessions

/-!
# What a refused request leaves

A node refuses what it is asked for before it writes anything, so a refusal leaves the forest as it
was. A request to add several children is many requests in one: the first child that is refused ends
it, and those before it stay where they were added.

* **`Adopts.children`**, **`Adopts.addChildren_ok`** — the children that were taken in come last, in
  their order, and a request for just these is granted.
* **`Forest.refusal_leaves`** — what is left of every request that is refused, in every forest.
-/

namespace SyntaxForest

namespace Forest

variable {f g : Forest} {p : NodeId} {ids : List NodeId}

namespace Adopts

theorem children (h : Adopts p f ids g) : g.children p = f.children p ++ ids := by
  induction h with
  | nil => exact (List.append_nil _).symm
  | cons hfirst _ ih =>
    obtain ⟨hp, -, -, -, rfl⟩ := addChild_ok hfirst
    rw [ih, children_link hp, if_pos rfl, List.append_assoc, List.singleton_append]

theorem eq_iff (h : Adopts p f ids g) : g = f ↔ ids = [] := by
  constructor
  · rintro rfl
    exact List.self_eq_append_right.mp h.children
  · rintro rfl
    cases h
    rfl

theorem get?_eq (h : Adopts p f ids g) {x : NodeId} (hp : x ≠ p) (hx : x ∉ ids) :
    g.get? x = f.get? x := by
  induction h with
  | nil => rfl
  | @cons f _ _ c rest hfirst _ ih =>
    rw [List.mem_cons, not_or] at hx
    obtain ⟨hne, hrest⟩ := hx
    obtain ⟨-, -, -, -, rfl⟩ := addChild_ok hfirst
    rw [ih hrest, link, get?_modify, if_neg (Ne.symm hp), get?_modify, if_neg (Ne.symm hne)]

theorem addChildren_ok (h : Adopts p f ids g) :
    (Change.addChildren p (some (ids.map some))).run f = .ok () g := by
  rw [Change.addChildren, Change.given_bind]
  induction h with
  | nil => rfl
  | cons hfirst _ ih =>
    rw [List.map_cons, List.forM_cons, Change.bind_of_ok (addChild_eq_ok_iff.mp hfirst)]
    exact ih

end Adopts

/-- **A refused request leaves the forest as it was, unless it was for several children.** Take any
forest and any request of any node in it, and let it be refused, for whatever reason. If it was not
a request to add the children of a list, then not a single node has changed. If it was, then the
list has a first child that is refused, and the forest is the one that a request for the children
before it makes: they come after the children that the node had, and no node other than it and them
has changed. So the forest is as it was just if the child refused is the first of the list. -/
theorem refusal_leaves (f : Forest) (id : NodeId) (r : Request) {refusal : NodeError} {g : Forest}
    (h : (r.change id).run f = .error refusal g) :
    ((∀ children, r ≠ .addChildren (some children)) → g = f)
      ∧ ∀ children, r = .addChildren (some children) →
          ∃ ids child after, children = ids.map some ++ child :: after
            ∧ ((Request.addChildren (some (ids.map some))).change id).run f = .ok none g
            ∧ ((Request.addChild child).change id).run g = .error refusal g
            ∧ g.children id = f.children id ++ ids
            ∧ (∀ x, x ≠ id → x ∉ ids → g.get? x = f.get? x)
            ∧ (g = f ↔ ids = []) := by
  constructor
  -- no list of children was given: nothing has been written
  · intro hr
    cases r with
    | addChildren children =>
      rcases Change.adopts_of_refused_addChildren (Change.error_of_bind_pure h) with
        ⟨-, rfl⟩ | ⟨ids, child, after, rfl, -⟩
      · rfl
      · exact absurd rfl (hr _)
    | _ => exact Request.clean_change (fun _ => by simp) id f refusal g h
  -- a list was given: those before the child refused stay
  · rintro children rfl
    rcases Change.adopts_of_refused_addChildren (Change.error_of_bind_pure h) with
      ⟨hnone, -⟩ | ⟨ids, child, after, hsplit, hids, hrefused⟩
    · cases hnone
    · refine ⟨ids, child, after, Option.some.inj hsplit, ?_, ?_, hids.children,
        fun x => hids.get?_eq, hids.eq_iff⟩
      · rw [Request.change, Change.bind_of_ok hids.addChildren_ok]
        rfl
      · rw [Request.change, Change.bind_of_error hrefused]

/-- Two nodes that stand alone. -/
def twoAlone : Forest :=
  (Session.after [.create "whole" { kind := "module" }, .create "part" { kind := "name" }]).forest

/-- A node cannot take itself in, and nothing changes. Nor can it take the other one in twice, and
the other one stays. -/
theorem refused_itself_and_twice :
    (∃ g, ((Request.addChild (some 0)).change 0).run twoAlone = .error .cycle g ∧ g = twoAlone)
      ∧ ∃ g, ((Request.addChildren (some [some 1, some 1])).change 0).run twoAlone
        = .error (.attached "name" "module") g
        ∧ ∃ ids child after, [some 1, some 1] = ids.map some ++ child :: after
          ∧ ((Request.addChild child).change 0).run g = .error (.attached "name" "module") g
          ∧ g.children 0 = twoAlone.children 0 ++ ids := by
  have hitself : ((Request.addChild (some 0)).change 0).run twoAlone = .error .cycle twoAlone := rfl
  have htwice : ((Request.addChildren (some [some 1, some 1])).change 0).run twoAlone
      = .error (.attached "name" "module") (twoAlone.link 0 1) := rfl
  refine ⟨⟨_, hitself, (refusal_leaves _ _ _ hitself).1 fun _ => by simp⟩, _, htwice, ?_⟩
  obtain ⟨ids, child, after, hsplit, -, hrefused, hchildren, -⟩ :=
    (refusal_leaves _ _ _ htwice).2 _ rfl
  exact ⟨ids, child, after, hsplit, hrefused, hchildren⟩

/-- A request for the other node twice is refused, and has changed both nodes. -/
theorem changed_by_refused_request :
    ∃ g, ((Request.addChildren (some [some 1, some 1])).change 0).run twoAlone
      = .error (.attached "name" "module") g
      ∧ twoAlone.children 0 = [] ∧ g.children 0 = [1] ∧ twoAlone.parent? 1 = none
      ∧ g.parent? 1 = some 0 ∧ g ≠ twoAlone := by
  have hbefore : twoAlone.children 0 = [] := by decide
  have hafter : (twoAlone.link 0 1).children 0 = [1] := by decide
  refine ⟨twoAlone.link 0 1, rfl, hbefore, hafter, by decide, by decide, fun hsame => ?_⟩
  rw [hsame, hbefore] at hafter
  cases hafter

end Forest

end SyntaxForest
