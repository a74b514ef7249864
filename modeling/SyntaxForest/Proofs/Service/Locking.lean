import SyntaxForest.Proofs.Service.Footing

/-!
# Locks exclude

A lock and the tasks around it agree: the lock is held if and only if one task holds it, its queue
is the tasks that wait for it, and a task that was woken finds the lock free. A woken task stands
first in the queue, so there is at most one.

* **`LockSound`** — that agreement, for one lock.
* One lemma for each thing that can happen to a lock (`LockSound.take`, `LockSound.arrive`, ...). A
  task that goes on after its wait takes the lock without asking (`LockSound.arrive`); that this is
  right is what the agreement is for.
-/

namespace SyntaxForest

/-- The mark in the queue fits the signal of the task. -/
def WaiterState.Fits : WaiterState → Option Signal → Prop
  | .queued, sg => sg = none
  | .woken, sg => sg ≠ none
  | .cancelled, sg => sg = some .cancel

/-- A lock is held if and only if one task holds it, once. -/
structure HeldSound (held : Bool) (id : LockId) (foot : TaskId → Footing) : Prop where
  held_iff : held = true ↔ ∃ u, id ∈ (foot u).locks
  unique : ∀ {u v : TaskId}, id ∈ (foot u).locks → id ∈ (foot v).locks → u = v
  once : ∀ u : TaskId, (foot u).locks.count id ≤ 1

theorem HeldSound.congr {held : Bool} {id : LockId} {foot foot' : TaskId → Footing}
    (h : HeldSound held id foot)
    (hcount : ∀ u, (foot' u).locks.count id = (foot u).locks.count id) :
    HeldSound held id foot' := by
  have hmem : ∀ u, id ∈ (foot' u).locks ↔ id ∈ (foot u).locks := fun u => by
    rw [← List.count_pos_iff, ← List.count_pos_iff, hcount]
  constructor
  · simp only [hmem]
    exact h.held_iff
  · intro u v hu hv
    exact h.unique ((hmem u).mp hu) ((hmem v).mp hv)
  · intro u
    rw [hcount]
    exact h.once u

theorem HeldSound.congr_update {held : Bool} {id : LockId} {foot : TaskId → Footing} {t : TaskId}
    {F : Footing} (h : HeldSound held id foot)
    (hcount : F.locks.count id = (foot t).locks.count id) :
    HeldSound held id (Function.update foot t F) :=
  h.congr fun u => by
    by_cases hu : u = t
    · subst hu
      rw [Function.update_self, hcount]
    · rw [Function.update_of_ne hu]

/-- A lock agrees with where the tasks stand. -/
structure LockSound (l : Lock) (id : LockId) (foot : TaskId → Footing) : Prop
    extends HeldSound l.held id foot where
  nodup : (l.waiters.map (·.1)).Nodup
  waits : ∀ {u : TaskId} {state : WaiterState}, (u, state) ∈ l.waiters →
    ∃ sg, (foot u).wait = some (.lock id, sg) ∧ state.Fits sg
  queued : ∀ {u : TaskId}, (foot u).waitsFor = some (.lock id) → ∃ state, (u, state) ∈ l.waiters
  wokenFirst : ∀ w ∈ l.waiters.tail, w.2 ≠ .woken
  wokenFree : ∀ w ∈ l.waiters, w.2 = .woken → l.held = false

namespace LockSound

variable {l : Lock} {id : LockId} {foot foot' : TaskId → Footing} {t : TaskId} {F : Footing}

/-! ## What follows from the agreement -/

theorem waitsFor_of_mem (h : LockSound l id foot) {u : TaskId} {state : WaiterState}
    (hu : (u, state) ∈ l.waiters) : (foot u).waitsFor = some (.lock id) := by
  obtain ⟨sg, hwait, -⟩ := h.waits hu
  exact Footing.waitsFor_eq_some.mpr ⟨sg, hwait⟩

theorem not_mem_locks_of_free (h : LockSound l id foot) (hfree : l.held = false) (u : TaskId) :
    id ∉ (foot u).locks := fun hu => by
  rw [h.held_iff.mpr ⟨u, hu⟩] at hfree
  exact absurd hfree (by decide)

/-- A task with the signal to go on was woken, and no other task was: it is the first of the queue,
and the lock is free. -/
theorem woken_of_proceed (h : LockSound l id foot)
    (hwait : (foot t).wait = some (.lock id, some .proceed)) :
    l.held = false ∧ ∀ w ∈ l.waiters, w.1 ≠ t → w.2 ≠ .woken := by
  obtain ⟨state, hmem⟩ := h.queued (u := t) (Footing.waitsFor_eq_some.mpr ⟨_, hwait⟩)
  obtain ⟨sg, hsg, hfits⟩ := h.waits hmem
  rw [hwait, Option.some.injEq, Prod.mk.injEq] at hsg
  obtain ⟨-, rfl⟩ := hsg
  have hwoken : state = .woken := by
    cases state with
    | queued => cases hfits
    | woken => rfl
    | cancelled => cases hfits
  subst hwoken
  refine ⟨h.wokenFree _ hmem rfl, fun w hw hne => ?_⟩
  -- the task is the head of the queue, so every other waiter is in its tail
  have hfirst := h.wokenFirst
  revert hmem hw hfirst
  cases l.waiters with
  | nil => intro hmem; simp at hmem
  | cons first rest =>
    intro hmem hw hfirst
    rcases List.mem_cons.mp hmem with heq | hrest
    · rcases List.mem_cons.mp hw with hw' | hw'
      · exact absurd (hw'.trans heq.symm ▸ rfl) hne
      · exact hfirst w hw'
    · exact absurd rfl (hfirst _ hrest)

/-! ## Nothing happens to the lock -/

theorem congr (h : LockSound l id foot)
    (hcount : ∀ u, (foot' u).locks.count id = (foot u).locks.count id)
    (hwait : ∀ u sg, (foot' u).wait = some (.lock id, sg) ↔ (foot u).wait = some (.lock id, sg)) :
    LockSound l id foot' := by
  have hfor : ∀ u, (foot' u).waitsFor = some (.lock id) ↔ (foot u).waitsFor = some (.lock id) := by
    intro u
    simp only [Footing.waitsFor_eq_some, hwait]
  refine ⟨h.toHeldSound.congr hcount, h.nodup, ?_, ?_, h.wokenFirst, h.wokenFree⟩
  · intro u state hu
    obtain ⟨sg, hsg, hfits⟩ := h.waits hu
    exact ⟨sg, (hwait u sg).mpr hsg, hfits⟩
  · intro u hu
    exact h.queued ((hfor u).mp hu)

theorem congr_update (h : LockSound l id foot)
    (hcount : F.locks.count id = (foot t).locks.count id)
    (hwait : ∀ sg, F.wait = some (.lock id, sg) ↔ (foot t).wait = some (.lock id, sg)) :
    LockSound l id (Function.update foot t F) := by
  refine h.congr (fun u => ?_) fun u sg => ?_
  · by_cases hu : u = t
    · subst hu
      rw [Function.update_self, hcount]
    · rw [Function.update_of_ne hu]
  · by_cases hu : u = t
    · subst hu
      rw [Function.update_self, hwait]
    · rw [Function.update_of_ne hu]

theorem not_mem_of_running (h : LockSound l id foot) (hrun : (foot t).wait = none)
    (state : WaiterState) : (t, state) ∉ l.waiters := by
  intro hmem
  obtain ⟨sg, hwait, -⟩ := h.waits hmem
  rw [hrun] at hwait
  cases hwait

/-! ## Taking and releasing -/

/-- The lock passes to a task, when nobody holds it and no other task was woken. The task may have
been outside of the queue (`take`) or first in it (`arrive`); what the two have in common is that
the queue without the task is left. -/
theorem pass (h : LockSound l id foot) (hfree : l.held = false)
    {waiters : List (TaskId × WaiterState)} (hsub : waiters.Sublist l.waiters)
    (hsame : ∀ u state, u ≠ t → (u, state) ∈ l.waiters → (u, state) ∈ waiters)
    (hgone : ∀ state, (t, state) ∉ waiters) (hnone : ∀ w ∈ waiters, w.2 ≠ .woken)
    (hlocks : F.locks = id :: (foot t).locks) (hrun : F.wait = none) :
    LockSound ⟨true, waiters⟩ id (Function.update foot t F) := by
  have hothers := h.not_mem_locks_of_free hfree
  -- after the move the task is the only one that can hold the lock
  have hupdate : ∀ u, id ∈ (Function.update foot t F u).locks → u = t := fun u hu => by
    by_cases hut : u = t
    · exact hut
    · rw [Function.update_of_ne hut] at hu
      exact absurd hu (hothers u)
  refine ⟨⟨?_, ?_, ?_⟩, h.nodup.sublist (hsub.map _), ?_, ?_, ?_, ?_⟩
  · exact ⟨fun _ => ⟨t, by rw [Function.update_self, hlocks]; simp⟩, fun _ => rfl⟩
  · intro u v hu hv
    rw [hupdate u hu, hupdate v hv]
  · intro u
    by_cases hut : u = t
    · subst hut
      have hcount : (id :: (foot u).locks).count id = 1 := by
        rw [List.count_cons_self, List.count_eq_zero.mpr (hothers u)]
      rw [Function.update_self, hlocks]
      exact Nat.le_of_eq hcount
    · rw [Function.update_of_ne hut]
      exact h.once u
  · intro u state hu
    have hut : u ≠ t := fun heq => hgone state (heq ▸ hu)
    rw [Function.update_of_ne hut]
    exact h.waits (hsub.mem hu)
  · intro u hu
    by_cases hut : u = t
    · subst hut
      rw [Function.update_self, Footing.waitsFor, hrun] at hu
      cases hu
    · rw [Function.update_of_ne hut] at hu
      obtain ⟨state, hstate⟩ := h.queued hu
      exact ⟨state, hsame u state hut hstate⟩
  · intro w hw
    exact hnone w (List.mem_of_mem_tail hw)
  · intro w hw hwoken
    exact absurd hwoken (hnone w hw)

theorem take (h : LockSound l id foot) (hfree : l.isFree = true) (hrun : (foot t).wait = none)
    (hlocks : F.locks = id :: (foot t).locks) (hrun' : F.wait = none) :
    LockSound l.take id (Function.update foot t F) := by
  rw [Lock.isFree, Bool.and_eq_true, Bool.not_eq_true'] at hfree
  refine h.pass hfree.1 (List.Sublist.refl _) (fun _ _ _ hmem => hmem) (h.not_mem_of_running hrun)
    (fun w hw hwoken => ?_) hlocks hrun'
  have hcancelled := List.all_eq_true.mp hfree.2 w hw
  rw [hwoken] at hcancelled
  exact absurd hcancelled (by decide)

/-- **A woken task takes the lock without asking.** -/
theorem arrive (h : LockSound l id foot) (hwait : (foot t).wait = some (.lock id, some .proceed))
    (hlocks : F.locks = id :: (foot t).locks) (hrun : F.wait = none) :
    LockSound (l.leave t).take id (Function.update foot t F) := by
  obtain ⟨hfree, hothers⟩ := h.woken_of_proceed hwait
  refine h.pass hfree List.filter_sublist (fun u state hu hmem => ?_) (fun state hmem => ?_)
    (fun w hw => ?_) hlocks hrun
  · exact List.mem_filter.mpr ⟨hmem, by simpa using hu⟩
  · have := (List.mem_filter.mp hmem).2
    simp at this
  · obtain ⟨hw, hne⟩ := List.mem_filter.mp hw
    exact hothers w hw (by simpa using hne)

/-- The holder lets go of the lock; nobody is woken yet. So the queue stays as it is for the moment,
and `wakeFirst` follows in the same step. -/
theorem letGo (h : LockSound l id foot) (hheld : id ∈ (foot t).locks) (hgone : id ∉ F.locks)
    (hrun : (foot t).wait = none) (hrun' : F.wait = none) :
    LockSound { l with held := false } id (Function.update foot t F) := by
  -- the task was the only holder, and it holds the lock no more
  have hnobody : ∀ u, id ∉ (Function.update foot t F u).locks := fun u hu => by
    by_cases hut : u = t
    · subst hut
      rw [Function.update_self] at hu
      exact hgone hu
    · rw [Function.update_of_ne hut] at hu
      exact hut (h.unique hu hheld)
  refine ⟨⟨?_, ?_, ?_⟩, h.nodup, ?_, ?_, h.wokenFirst, fun _ _ _ => rfl⟩
  · simp [hnobody]
  · intro u v hu
    exact absurd hu (hnobody u)
  · intro u
    rw [List.count_eq_zero.mpr (hnobody u)]
    exact Nat.zero_le 1
  · intro u state hu
    have hut : u ≠ t := fun heq => h.not_mem_of_running hrun state (heq ▸ hu)
    rw [Function.update_of_ne hut]
    exact h.waits hu
  · intro u hu
    by_cases hut : u = t
    · subst hut
      rw [Function.update_self, Footing.waitsFor, hrun'] at hu
      cases hu
    · rw [Function.update_of_ne hut] at hu
      exact h.queued hu

/-- Where the tasks stand once the next task of a queue is woken. -/
def woken (foot : TaskId → Footing) : Option TaskId → TaskId → Footing
  | some u => Function.update foot u ((foot u).signal .proceed)
  | none => foot

/-- Waking the first task of the queue of a free lock. Only a task that is still queued is woken:
one that was cancelled has its signal already, and wakes the next when it leaves. -/
theorem wakeFirst (h : LockSound l id foot) (hfree : l.held = false) :
    LockSound l.wakeFirst.1 id (woken foot l.wakeFirst.2) := by
  rw [Lock.wakeFirst]
  split
  · rename_i u rest hwaiters
    have hu : (u, WaiterState.queued) ∈ l.waiters := by simp [hwaiters]
    obtain ⟨sg, hwait, hfits⟩ := h.waits hu
    cases hfits
    -- a task that is marked as queued has no signal yet, so this one is its first
    have hsignal : (foot u).signal .proceed
        = { (foot u) with wait := some (.lock id, some .proceed) } := by
      rw [Footing.signal, hwait]
    have hlocks : ∀ v, (woken foot (some u) v).locks = (foot v).locks := fun v => by
      by_cases hv : v = u
      · subst hv
        rw [woken, Function.update_self, Footing.locks_signal]
      · rw [woken, Function.update_of_ne hv]
    have hfor : ∀ v, (woken foot (some u) v).waitsFor = (foot v).waitsFor := fun v => by
      by_cases hv : v = u
      · subst hv
        rw [woken, Function.update_self, Footing.waitsFor_signal]
      · rw [woken, Function.update_of_ne hv]
    have hnodup := h.nodup
    rw [hwaiters, List.map_cons, List.nodup_cons] at hnodup
    have hfirst := h.wokenFirst
    rw [hwaiters] at hfirst
    refine ⟨h.toHeldSound.congr fun v => by rw [hlocks], ?_, ?_, ?_, hfirst, fun _ _ _ => hfree⟩
    · rw [List.map_cons, List.nodup_cons]
      exact hnodup
    · intro v state hv
      rcases List.mem_cons.mp hv with heq | hrest
      · cases heq
        refine ⟨some .proceed, ?_, by simp [WaiterState.Fits]⟩
        rw [woken, Function.update_self, hsignal]
      -- no task is in the queue twice, so the others stand where they stood
      · have hvu : v ≠ u := fun heq => hnodup.1 (List.mem_map.mpr ⟨(v, state), hrest, heq⟩)
        rw [woken, Function.update_of_ne hvu]
        exact h.waits (by rw [hwaiters]; exact List.mem_cons_of_mem _ hrest)
    · intro v hv
      rw [hfor] at hv
      obtain ⟨state, hstate⟩ := h.queued hv
      rw [hwaiters] at hstate
      rcases List.mem_cons.mp hstate with heq | hrest
      · cases heq
        exact ⟨.woken, List.mem_cons_self ..⟩
      · exact ⟨state, List.mem_cons_of_mem _ hrest⟩
  · exact h

/-! ## Queueing, leaving and cancelling -/

/-- A running task goes to the end of the queue. If the queue was empty it becomes the first, but it
is not woken by that. -/
theorem enqueue (h : LockSound l id foot) (hrun : (foot t).wait = none)
    (hlocks : F.locks.count id = (foot t).locks.count id) (hwait : F.wait = some (.lock id, none)) :
    LockSound (l.enqueue t) id (Function.update foot t F) := by
  -- the task is running, so it is not in the queue yet
  have hne : ∀ {u state}, (u, state) ∈ l.waiters → u ≠ t := fun hu heq =>
    h.not_mem_of_running hrun _ (heq ▸ hu)
  refine ⟨h.toHeldSound.congr_update hlocks, ?_, ?_, ?_, ?_, ?_⟩
  · rw [Lock.enqueue, List.map_append, List.nodup_append]
    refine ⟨h.nodup, by simp, fun a ha b hb => ?_⟩
    obtain ⟨⟨u, state⟩, hu, rfl⟩ := List.mem_map.mp ha
    have hb : b = t := by simpa using hb
    exact hb ▸ hne hu
  · intro u state hu
    rcases List.mem_append.mp hu with hold | hnew
    · rw [Function.update_of_ne (hne hold)]
      exact h.waits hold
    · have heq : (u, state) = (t, WaiterState.queued) := List.mem_singleton.mp hnew
      cases heq
      exact ⟨none, by rw [Function.update_self, hwait], rfl⟩
  · intro u hu
    by_cases hut : u = t
    · subst hut
      exact ⟨.queued, List.mem_append_right _ (List.mem_singleton.mpr rfl)⟩
    · rw [Function.update_of_ne hut] at hu
      obtain ⟨state, hstate⟩ := h.queued hu
      exact ⟨state, List.mem_append_left _ hstate⟩
  -- it comes last, so whoever comes after the first in the queue was there or is this task
  · intro w hw
    have hw : w ∈ l.waiters.tail ∨ w = (t, .queued) := by
      rw [Lock.enqueue] at hw
      cases hwaiters : l.waiters with
      | nil => rw [hwaiters] at hw; simp at hw
      | cons first rest =>
        rw [hwaiters, List.cons_append, List.tail_cons, List.mem_append, List.mem_singleton] at hw
        exact hw
    rcases hw with hold | rfl
    · exact h.wokenFirst w hold
    · simp
  · intro w hw hwoken
    rcases List.mem_append.mp hw with hold | hnew
    · exact h.wokenFree w hold hwoken
    · rw [List.mem_singleton.mp hnew] at hwoken
      cases hwoken

/-- A cancelled task leaves the queue. The first task can only become first by this, never woken, so
the agreement stays. -/
theorem leave (h : LockSound l id foot) (hlocks : F.locks.count id = (foot t).locks.count id)
    (hrun : F.wait = none) : LockSound (l.leave t) id (Function.update foot t F) := by
  refine ⟨h.toHeldSound.congr_update hlocks, h.nodup.sublist (List.filter_sublist.map _), ?_, ?_,
    ?_, ?_⟩
  · intro u state hu
    obtain ⟨hold, hne⟩ := List.mem_filter.mp hu
    have hut : u ≠ t := by simpa using hne
    rw [Function.update_of_ne hut]
    exact h.waits hold
  · intro u hu
    by_cases hut : u = t
    · subst hut
      rw [Function.update_self, Footing.waitsFor, hrun] at hu
      cases hu
    · rw [Function.update_of_ne hut] at hu
      obtain ⟨state, hstate⟩ := h.queued hu
      exact ⟨state, List.mem_filter.mpr ⟨hstate, by simpa using hut⟩⟩
  · intro w hw
    exact h.wokenFirst w (mem_tail_of_mem_tail_filter hw)
  · intro w hw
    exact h.wokenFree w (List.mem_filter.mp hw).1

/-- A task in the queue is cancelled: it gets the signal, and its mark in the queue says so until it
runs and leaves. It keeps its place, so that no other task moves up before it has left, and the lock
counts the mark as nobody waiting. -/
theorem cancel (h : LockSound l id foot) (hwait : (foot t).wait = some (.lock id, none)) :
    LockSound (l.cancel t) id (Function.update foot t ((foot t).signal .cancel)) := by
  have hsignal : ((foot t).signal .cancel).wait = some (.lock id, some .cancel) := by
    rw [Footing.signal, hwait]
  -- the tasks of the queue and their order stay; only one mark changes
  have hfst : (l.cancel t).waiters.map (·.1) = l.waiters.map (·.1) := by
    rw [Lock.cancel, List.map_map]
    refine List.map_congr_left fun w _ => ?_
    simp only [Function.comp_apply]
    split
    · rename_i heq
      simp only [Bool.and_eq_true, decide_eq_true_eq] at heq
      exact heq.1.symm
    · rfl
  -- a mark that changed is that of the task, and says that it is cancelled
  have hmark : ∀ {u state}, (u, state) ∈ (l.cancel t).waiters →
      (u ≠ t ∧ (u, state) ∈ l.waiters) ∨ (u = t ∧ state = .cancelled) := fun {u state} hu => by
    obtain ⟨⟨v, old⟩, hv, heq⟩ := List.mem_map.mp hu
    by_cases hvt : v = t
    · subst hvt
      obtain ⟨sg, hsg, hfits⟩ := h.waits hv
      rw [hwait, Option.some.injEq, Prod.mk.injEq] at hsg
      obtain ⟨-, rfl⟩ := hsg
      have hold : old = .queued := by
        cases old with
        | queued => rfl
        | woken => exact absurd rfl hfits
        | cancelled => cases hfits
      subst hold
      simp only [decide_true, Bool.and_self, ↓reduceIte, Prod.mk.injEq] at heq
      exact Or.inr ⟨heq.1.symm, heq.2.symm⟩
    · simp only [hvt, decide_false, Bool.false_and, Bool.false_eq_true, ↓reduceIte] at heq
      cases heq
      exact Or.inl ⟨hvt, hv⟩
  refine ⟨h.toHeldSound.congr_update (by rw [Footing.locks_signal]), hfst ▸ h.nodup, ?_, ?_, ?_, ?_⟩
  · intro u state hu
    rcases hmark hu with ⟨hut, hold⟩ | ⟨rfl, rfl⟩
    · rw [Function.update_of_ne hut]
      exact h.waits hold
    · exact ⟨some .cancel, by rw [Function.update_self, hsignal], rfl⟩
  · intro u hu
    have hfor : (foot u).waitsFor = some (.lock id) := by
      by_cases hut : u = t
      · subst hut
        rwa [Function.update_self, Footing.waitsFor_signal] at hu
      · rwa [Function.update_of_ne hut] at hu
    obtain ⟨state, hstate⟩ := h.queued hfor
    have hid : u ∈ (l.cancel t).waiters.map (·.1) := by
      rw [hfst]
      exact List.mem_map.mpr ⟨_, hstate, rfl⟩
    obtain ⟨⟨v, state'⟩, hv, rfl⟩ := List.mem_map.mp hid
    exact ⟨state', hv⟩
  -- no mark was changed to woken, so a woken one was woken before
  · intro w hw hwoken
    rw [Lock.cancel, ← List.map_tail] at hw
    obtain ⟨old, hold, rfl⟩ := List.mem_map.mp hw
    split at hwoken
    · cases hwoken
    · exact h.wokenFirst old hold hwoken
  · intro w hw hwoken
    obtain ⟨old, hold, rfl⟩ := List.mem_map.mp hw
    split at hwoken
    · cases hwoken
    · exact h.wokenFree old hold hwoken

/-- A task that was woken is cancelled before it runs. It stays first in the queue with its mark,
and with the other signal: it will pass the lock on when it leaves. -/
theorem cancelWoken (h : LockSound l id foot)
    (hwait : (foot t).wait = some (.lock id, some .proceed)) :
    LockSound l id
      (Function.update foot t { (foot t) with wait := some (.lock id, some .cancel) }) := by
  refine ⟨h.toHeldSound.congr_update rfl, h.nodup, ?_, ?_, h.wokenFirst, h.wokenFree⟩
  · intro u state hu
    obtain ⟨sg, hsg, hfits⟩ := h.waits hu
    by_cases hut : u = t
    · subst hut
      rw [hwait, Option.some.injEq, Prod.mk.injEq] at hsg
      obtain ⟨-, rfl⟩ := hsg
      refine ⟨some .cancel, by rw [Function.update_self], ?_⟩
      -- the lock keeps it marked as woken until it has left the queue
      cases state with
      | queued => cases hfits
      | woken => simp [WaiterState.Fits]
      | cancelled => rfl
    · exact ⟨sg, by rwa [Function.update_of_ne hut], hfits⟩
  · intro u hu
    by_cases hut : u = t
    · subst hut
      exact h.queued (Footing.waitsFor_eq_some.mpr ⟨_, hwait⟩)
    · rw [Function.update_of_ne hut] at hu
      exact h.queued hu

end LockSound

end SyntaxForest
