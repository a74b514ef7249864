import SyntaxForest.Proofs.Service.Locking
import SyntaxForest.Proofs.Service.Moves

/-!
# Tasks and what they wait for

The locks, the gates and the workers of a service agree with where its tasks stand, and moves keep
it so. A task is woken by nothing but the thing that it waits for.

* **`Undisturbed`** — a move of one task leaves the others at their points; it may give them a
  signal.
* **`Orderly`** — the agreement: `LockSound` for every lock, and only tasks at a gate or a worker in
  their lists.
* **`Orderly.move`**, **`Orderly.deal`** — kept by whatever a running task does.
* **`Orderly.cancel`**, **`Orderly.openGate`**, **`Orderly.finishWork`** — kept by whatever ends a
  wait.
-/

namespace SyntaxForest

/-! ## Nobody else moves -/

/-- The same call at the same point; a signal may have come, or another one. -/
inductive TaskStatus.Alike : TaskStatus → TaskStatus → Prop
  | fresh (call : Call) (cancelled cancelled' : Bool) :
      Alike (.fresh call cancelled) (.fresh call cancelled')
  | waiting (frame : Frame) (wait : Wait) (signal signal' : Option Signal) :
      Alike (.waiting frame wait signal) (.waiting frame wait signal')
  | finished (result : Except Fault Outcome) : Alike (.finished result) (.finished result)

theorem TaskStatus.Alike.refl (status : TaskStatus) : Alike status status := by
  cases status with
  | fresh call cancelled => exact .fresh ..
  | waiting frame wait signal => exact .waiting ..
  | finished result => exact .finished result

theorem TaskStatus.Alike.trans {a b c : TaskStatus} (h : Alike a b) (h' : Alike b c) :
    Alike a c := by
  cases h with
  | fresh =>
    cases h'
    exact .fresh ..
  | waiting =>
    cases h'
    exact .waiting ..
  | finished => exact h'

/-- Every task is where it was. -/
structure Undisturbed (s s' : Service) : Prop where
  size : s'.tasks.size = s.tasks.size
  alike : ∀ {u : TaskId} {a : TaskStatus}, s.tasks[u]? = some a →
    ∃ b, s'.tasks[u]? = some b ∧ a.Alike b

/-- Nothing happened to locks and waits. -/
structure SameTraffic (s s' : Service) : Prop where
  locks : s'.locks = s.locks
  tasks : s'.tasks = s.tasks
  atGates : s'.atGates = s.atGates
  atWorkers : s'.atWorkers = s.atWorkers

theorem Quiet.traffic {s s' : Service} (h : Quiet s s') : SameTraffic s s' :=
  ⟨h.locks, h.tasks, h.atGates, h.atWorkers⟩

theorem Change.traffic {s s' : Service} (h : Change s s') : SameTraffic s s' := by
  cases h <;> exact ⟨rfl, rfl, rfl, rfl⟩

namespace Undisturbed

variable {s s' s'' : Service}

theorem of_tasks (h : s'.tasks = s.tasks) : Undisturbed s s' :=
  ⟨congrArg Array.size h, fun {_ a} ha => ⟨a, h ▸ ha, .refl a⟩⟩

theorem trans (h : Undisturbed s s') (h' : Undisturbed s' s'') : Undisturbed s s'' := by
  refine ⟨h'.size.trans h.size, fun ha => ?_⟩
  obtain ⟨b, hb, hab⟩ := h.alike ha
  obtain ⟨c, hc, hbc⟩ := h'.alike hb
  exact ⟨c, hc, hab.trans hbc⟩

theorem wake (s : Service) (u : TaskId) (sg : Signal) : Undisturbed s (s.wake u sg) := by
  rw [Service.wake]
  split
  · rename_i frame wait hu
    refine ⟨Array.size_modify, fun {v a} ha => ?_⟩
    by_cases huv : u = v
    · subst huv
      rw [hu, Option.some.injEq] at ha
      subst ha
      exact ⟨.waiting frame wait (some sg), by simp [Array.getElem?_modify, hu], .waiting ..⟩
    · exact ⟨a, by rw [Array.getElem?_modify, if_neg huv, ha], .refl a⟩
  · exact of_tasks rfl

theorem setLockAndWake (s : Service) (id : LockId) (l : Lock × Option TaskId) :
    Undisturbed s (s.setLockAndWake id l) := by
  have hset : Undisturbed s (s.setLock id l.1) := of_tasks rfl
  rw [Service.setLockAndWake]
  split
  · exact hset.trans (wake _ _ _)
  · exact hset

theorem setTask {s : Service} {t : TaskId} {a b : TaskStatus} (ha : s.tasks[t]? = some a)
    (hab : a.Alike b) : Undisturbed s (s.setTask t b) := by
  refine ⟨Array.size_modify, fun {u c} hc => ?_⟩
  by_cases hu : t = u
  · subst hu
    rw [ha, Option.some.injEq] at hc
    subst hc
    exact ⟨b, by simp [Service.setTask, Array.getElem?_modify, ha], hab⟩
  · exact ⟨c, by rw [Service.setTask, Array.getElem?_modify, if_neg hu, hc], .refl c⟩

/-- Cancelling a task marks it or gives it a signal; it is not taken from its point before it
runs. -/
theorem cancel (s : Service) (t : TaskId) : Undisturbed s (s.cancel t) := by
  rw [Service.cancel]
  split
  · rename_i call cancelled ht
    exact setTask ht (.fresh ..)
  · rename_i frame wait ht
    refine trans (of_tasks ?_) (wake _ _ _)
    split <;> rfl
  · rename_i frame wait ht
    exact setTask ht (.waiting ..)
  · exact of_tasks rfl

theorem wakeAll (s : Service) (entries : List (String × TaskId)) (sg : Signal) :
    Undisturbed s (entries.foldl (fun acc entry => acc.wake entry.2 sg) s) := by
  induction entries generalizing s with
  | nil => exact of_tasks rfl
  | cons entry rest ih => exact (wake s entry.2 sg).trans (ih _)

theorem openGate (s : Service) (name : String) : Undisturbed s (s.openGate name) := by
  have hopened : Undisturbed s { s with openGates := if s.openGates.contains name then s.openGates
      else name :: s.openGates } := of_tasks rfl
  exact hopened.trans (wakeAll _ _ _)

theorem finishWork (s : Service) (t : TaskId) : Undisturbed s (s.finishWork t) := by
  rw [Service.finishWork]
  split
  · have herased : Undisturbed s { s with atWorkers := s.atWorkers.erase t } := of_tasks rfl
    exact herased.trans (wake _ _ _)
  · exact of_tasks rfl

theorem endWait (s : Service) (t : TaskId) (wait : Wait) (signal : Signal) :
    Undisturbed s (s.endWait t wait signal) := by
  cases wait with
  | gate name => exact of_tasks rfl
  | worker => exact of_tasks rfl
  | lock id =>
    cases signal with
    | proceed => exact of_tasks rfl
    | cancel =>
      rw [Service.endWait]
      split
      · exact of_tasks rfl
      · exact setLockAndWake ..

theorem footing (h : Undisturbed s s') (u : TaskId) :
    (s'.footing u).duties = (s.footing u).duties
      ∧ (s'.footing u).waitsFor = (s.footing u).waitsFor := by
  cases ha : s.tasks[u]? with
  | none =>
    have hle : s'.tasks.size ≤ u := h.size ▸ Array.getElem?_eq_none_iff.mp ha
    rw [Service.footing, Service.footing, ha, Array.getElem?_eq_none hle]
    exact ⟨rfl, rfl⟩
  | some a =>
    obtain ⟨b, hb, halike⟩ := h.alike ha
    rw [Service.footing, Service.footing, ha, hb]
    cases halike <;> exact ⟨rfl, rfl⟩

theorem standing (h : Undisturbed s s') (t : TaskId) (F F' : Footing) {u : TaskId} (hu : u ≠ t) :
    (s'.standing t F' u).duties = (s.standing t F u).duties
      ∧ (s'.standing t F' u).waitsFor = (s.standing t F u).waitsFor := by
  rw [Service.standing_of_ne _ _ hu, Service.standing_of_ne _ _ hu]
  exact h.footing u

end Undisturbed

/-- **A move of one task leaves the others at their points.** -/
theorem Move.undisturbed {t : TaskId} {x y : Stance} (h : Move t x y) : Undisturbed x.1 y.1 := by
  cases h with
  | quiet h => exact .of_tasks h.tasks
  | arrive => exact .endWait _ t (.lock _) .proceed
  | goOn => exact .endWait _ t _ _
  | release => exact .setLockAndWake ..
  | retire => exact .of_tasks rfl
  | take => exact .of_tasks rfl
  | queue => exact .of_tasks rfl
  | gate => exact .of_tasks rfl
  | work => exact .of_tasks rfl
  | beginLoad => exact .of_tasks rfl
  | endLoad => exact .of_tasks rfl
  | startParse => exact .of_tasks rfl
  | endParse => exact .of_tasks rfl

theorem Deal.undisturbed {t : TaskId} {x y : Stance} (h : Deal t x y) : Undisturbed x.1 y.1 := by
  cases h with
  | move h => exact h.undisturbed
  | change h => exact .of_tasks h.traffic.tasks
  | build => exact .of_tasks rfl
  | keep => exact .of_tasks rfl
  | abandon => exact .of_tasks rfl

theorem Deals.undisturbed {t : TaskId} {x y : Stance} (h : Deals t x y) : Undisturbed x.1 y.1 := by
  induction h with
  | refl => exact .of_tasks rfl
  | tail _ hdeal ih => exact ih.trans hdeal.undisturbed

namespace Service

theorem standing_of_tasks {s s' : Service} (h : s'.tasks = s.tasks) (t : TaskId) (F : Footing) :
    s'.standing t F = s.standing t F := by
  rw [standing_congr h t F F, standing, Function.update_idem]

theorem standing_wake (s : Service) {t u : TaskId} (h : u ≠ t) (F : Footing) (sg : Signal) :
    (s.wake u sg).standing t F
      = Function.update (s.standing t F) u ((s.standing t F u).signal sg) := by
  rw [standing, footing_wake, standing_of_ne _ _ h, standing, Function.update_comm h]

theorem standing_setLockAndWake (s : Service) (id : LockId) (l : Lock) {t : TaskId}
    {next : Option TaskId} (h : next ≠ some t) (F : Footing) :
    (s.setLockAndWake id (l, next)).standing t F = LockSound.woken (s.standing t F) next := by
  cases next with
  | none => exact standing_of_tasks rfl t F
  | some u =>
    have hu : u ≠ t := fun heq => h (heq ▸ rfl)
    have hset : (s.setLock id l).standing t F = s.standing t F := standing_of_tasks rfl t F
    rw [setLockAndWake, standing_wake _ hu, hset, LockSound.woken]

theorem stock_cancel (s : Service) (t : TaskId) :
    (s.cancel t).parsers = s.parsers ∧ (s.cancel t).registries = s.registries := by
  rw [cancel]
  split
  · exact ⟨rfl, rfl⟩
  · rw [parsers_wake, registries_wake]
    split <;> exact ⟨rfl, rfl⟩
  · exact ⟨rfl, rfl⟩
  · exact ⟨rfl, rfl⟩

theorem stock_finishWork (s : Service) (t : TaskId) :
    (s.finishWork t).parsers = s.parsers ∧ (s.finishWork t).registries = s.registries := by
  rw [finishWork]
  split
  · exact ⟨parsers_wake .., registries_wake ..⟩
  · exact ⟨rfl, rfl⟩

theorem stock_wakeAll (s : Service) (entries : List (String × TaskId)) (sg : Signal) :
    (entries.foldl (fun acc entry => acc.wake entry.2 sg) s).parsers = s.parsers
      ∧ (entries.foldl (fun acc entry => acc.wake entry.2 sg) s).registries = s.registries := by
  induction entries generalizing s with
  | nil => exact ⟨rfl, rfl⟩
  | cons entry rest ih =>
    obtain ⟨hparsers, hregistries⟩ := ih (s.wake entry.2 sg)
    exact ⟨hparsers.trans (parsers_wake ..), hregistries.trans (registries_wake ..)⟩

theorem lock_wake (s : Service) (u : TaskId) (sg : Signal) (id : LockId) :
    (s.wake u sg).lock id = s.lock id := by
  rw [wake]
  split <;> rfl

theorem lock_setLockAndWake (s : Service) (id other : LockId) (l : Lock × Option TaskId) :
    (s.setLockAndWake id l).lock other = (s.setLock id l.1).lock other := by
  rw [setLockAndWake]
  split
  · exact lock_wake ..
  · rfl

theorem atGates_wake (s : Service) (u : TaskId) (sg : Signal) :
    (s.wake u sg).atGates = s.atGates := by
  rw [wake]
  split <;> rfl

theorem atWorkers_wake (s : Service) (u : TaskId) (sg : Signal) :
    (s.wake u sg).atWorkers = s.atWorkers := by
  rw [wake]
  split <;> rfl

theorem atGates_setLockAndWake (s : Service) (id : LockId) (l : Lock × Option TaskId) :
    (s.setLockAndWake id l).atGates = s.atGates := by
  rw [setLockAndWake]
  split
  · exact atGates_wake ..
  · rfl

theorem atWorkers_setLockAndWake (s : Service) (id : LockId) (l : Lock × Option TaskId) :
    (s.setLockAndWake id l).atWorkers = s.atWorkers := by
  rw [setLockAndWake]
  split
  · exact atWorkers_wake ..
  · rfl

end Service

theorem LockSound.waitsFor_woken (foot : TaskId → Footing) (next : Option TaskId) (u : TaskId) :
    (LockSound.woken foot next u).waitsFor = (foot u).waitsFor := by
  cases next with
  | none => rfl
  | some v =>
    by_cases hu : u = v
    · subst hu
      rw [woken, Function.update_self, Footing.waitsFor_signal]
    · rw [woken, Function.update_of_ne hu]

theorem LockSound.locks_woken (foot : TaskId → Footing) (next : Option TaskId) (u : TaskId) :
    (LockSound.woken foot next u).locks = (foot u).locks := by
  cases next with
  | none => rfl
  | some v =>
    by_cases hu : u = v
    · subst hu
      rw [woken, Function.update_self, Footing.locks_signal]
    · rw [woken, Function.update_of_ne hu]

/-! ## Locks, gates and workers agree with the tasks -/

/-- Locks, gates and workers agree with the tasks. For gates and workers one direction is enough: a
task in their lists waits for them. Whether a waiting task is in a list shows only in whether it can
go on. -/
structure Orderly (s : Service) (foot : TaskId → Footing) : Prop where
  locks : ∀ id, LockSound (s.lock id) id foot
  gates : ∀ {name : String} {u : TaskId}, (name, u) ∈ s.atGates →
    (foot u).waitsFor = some (.gate name)
  workers : ∀ {u : TaskId}, u ∈ s.atWorkers → (foot u).waitsFor = some .worker

namespace Orderly

variable {s s' : Service} {foot foot' : TaskId → Footing} {t : TaskId} {F F' : Footing}

theorem congr (h : Orderly s foot) (hsame : SameTraffic s s')
    (hlocks : ∀ u, (foot' u).locks = (foot u).locks) (hwait : ∀ u, (foot' u).wait = (foot u).wait) :
    Orderly s' foot' := by
  have hfor : ∀ u, (foot' u).waitsFor = (foot u).waitsFor := fun u => by
    rw [Footing.waitsFor, Footing.waitsFor, hwait]
  refine ⟨fun id => ?_, fun {name u} hu => ?_, fun {u} hu => ?_⟩
  · rw [Service.lock, hsame.locks]
    exact (h.locks id).congr (fun u => by rw [hlocks]) fun u sg => by rw [hwait]
  · rw [hfor]
    exact h.gates (hsame.atGates ▸ hu)
  · rw [hfor]
    exact h.workers (hsame.atWorkers ▸ hu)

theorem shift (h : Orderly s (s.standing t F)) (hsame : SameTraffic s s')
    (hlocks : F'.locks = F.locks) (hwait : F'.wait = F.wait) : Orderly s' (s'.standing t F') := by
  rw [Service.standing_congr hsame.tasks t F F']
  refine h.congr hsame (fun u => ?_) fun u => ?_
  · by_cases hu : u = t
    · subst hu
      rw [Function.update_self, Service.standing_self, hlocks]
    · rw [Function.update_of_ne hu]
  · by_cases hu : u = t
    · subst hu
      rw [Function.update_self, Service.standing_self, hwait]
    · rw [Function.update_of_ne hu]

theorem not_held_below (h : Orderly s (s.standing t F)) {id : LockId} {D : List Duty}
    (hF : F.locks = id :: (⟨D, none⟩ : Footing).locks) : .hold id ∉ D := by
  intro hmem
  have honce := (h.locks id).once t
  rw [Service.standing_self, hF, List.count_cons_self] at honce
  have hlocks : id ∈ (⟨D, none⟩ : Footing).locks := Footing.mem_locks.mpr hmem
  have := List.count_pos_iff.mpr hlocks
  omega

theorem not_at_gate (h : Orderly s (s.standing t F)) (hF : ∀ name, F.waitsFor ≠ some (.gate name))
    {name : String} {u : TaskId} (hu : (name, u) ∈ s.atGates) : u ≠ t := by
  rintro rfl
  have := h.gates hu
  rw [Service.standing_self] at this
  exact hF name this

theorem not_at_worker (h : Orderly s (s.standing t F)) (hF : F.waitsFor ≠ some .worker) {u : TaskId}
    (hu : u ∈ s.atWorkers) : u ≠ t := by
  rintro rfl
  have := h.workers hu
  rw [Service.standing_self] at this
  exact hF this

/-- The running task does something to one lock. What is new has to be shown of that lock alone; the
others see the same holders and the same waits. -/
theorem setLock (h : Orderly s (s.standing t F)) {id : LockId} {l : Lock}
    (hl : LockSound l id (Function.update (s.standing t F) t F'))
    (hlocks : ∀ other, other ≠ id → F'.locks.count other = F.locks.count other)
    (hwait : ∀ other, other ≠ id → F.waitsFor ≠ some (.lock other)
      ∧ F'.waitsFor ≠ some (.lock other))
    (hgate : ∀ name, F.waitsFor ≠ some (.gate name)) (hworker : F.waitsFor ≠ some .worker) :
    Orderly (s.setLock id l) ((s.setLock id l).standing t F') := by
  have htasks : (s.setLock id l).tasks = s.tasks := rfl
  rw [Service.standing_congr htasks t F F']
  refine ⟨fun other => ?_, fun {name u} hu => ?_, fun {u} hu => ?_⟩
  · rw [Service.lock_setLock]
    split
    · rename_i heq
      exact heq ▸ hl
    · rename_i hne
      have hne : other ≠ id := fun heq => hne heq.symm
      -- another lock: the running task does not wait for it, before or after
      refine (h.locks other).congr_update ?_ fun sg => ?_
      · rw [Service.standing_self, hlocks other hne]
      · rw [Service.standing_self]
        constructor
        · intro hsg
          exact absurd (Footing.waitsFor_eq_some.mpr ⟨sg, hsg⟩) (hwait other hne).2
        · intro hsg
          exact absurd (Footing.waitsFor_eq_some.mpr ⟨sg, hsg⟩) (hwait other hne).1
  · rw [Function.update_of_ne (h.not_at_gate hgate hu)]
    exact h.gates hu
  · rw [Function.update_of_ne (h.not_at_worker hworker hu)]
    exact h.workers hu

/-- The next task of a lock is woken when the lock is free. It is another task than the one that
runs, which waits for nothing. -/
theorem wakeFirst {id : LockId} {l : Lock}
    (h : Orderly (s.setLock id l) ((s.setLock id l).standing t F)) (hfree : l.held = false)
    (hrun : F.wait = none) :
    Orderly (s.setLockAndWake id l.wakeFirst) ((s.setLockAndWake id l.wakeFirst).standing t F) := by
  have hstand : (s.setLock id l).standing t F = s.standing t F := Service.standing_of_tasks rfl t F
  rw [hstand] at h
  have hl : LockSound l id (s.standing t F) := by
    have := h.locks id
    rwa [Service.lock_setLock, if_pos rfl] at this
  -- whoever is woken waits for the lock, so it is not the running task
  have hnext : ∀ u, l.wakeFirst.2 = some u → (s.standing t F u).waitsFor = some (.lock id) := by
    intro u hu
    rw [Lock.wakeFirst] at hu
    split at hu
    · rename_i v rest hwaiters
      cases hu
      have hmem : (u, WaiterState.queued) ∈ l.waiters := by
        rw [hwaiters]; exact List.mem_cons_self ..
      exact hl.waitsFor_of_mem hmem
    · cases hu
  have hother : l.wakeFirst.2 ≠ some t := fun heq => by
    have := hnext t heq
    rw [Service.standing_self, Footing.waitsFor, hrun] at this
    cases this
  have hstand' : (s.setLockAndWake id l.wakeFirst).standing t F
      = LockSound.woken (s.standing t F) l.wakeFirst.2 :=
    Service.standing_setLockAndWake s id l.wakeFirst.1 hother F
  rw [hstand']
  refine ⟨fun other => ?_, fun {name u} hu => ?_, fun {u} hu => ?_⟩
  · rw [Service.lock_setLockAndWake, Service.lock_setLock]
    split
    · rename_i heq
      exact heq ▸ hl.wakeFirst hfree
    · rename_i hne
      have hsound := h.locks other
      rw [Service.lock_setLock, if_neg hne] at hsound
      refine hsound.congr (fun u => by rw [LockSound.locks_woken]) fun u sg => ?_
      -- the woken task waits for `id`, so for any other lock its signal makes no difference
      cases hwoken : l.wakeFirst.2 with
      | none => rfl
      | some v =>
        by_cases huv : u = v
        · subst huv
          have hfor := hnext u hwoken
          have hfor' : ((s.standing t F u).signal .proceed).waitsFor = some (.lock id) := by
            rw [Footing.waitsFor_signal, hfor]
          rw [LockSound.woken, Function.update_self]
          constructor
          · intro hsg
            rw [Footing.waitsFor_eq_some.mpr ⟨sg, hsg⟩] at hfor'
            simp only [Option.some.injEq, Wait.lock.injEq] at hfor'
            exact absurd hfor'.symm hne
          · intro hsg
            rw [Footing.waitsFor_eq_some.mpr ⟨sg, hsg⟩] at hfor
            simp only [Option.some.injEq, Wait.lock.injEq] at hfor
            exact absurd hfor.symm hne
        · rw [LockSound.woken, Function.update_of_ne huv]
  · rw [LockSound.waitsFor_woken]
    exact h.gates (by rwa [Service.atGates_setLockAndWake] at hu)
  · rw [LockSound.waitsFor_woken]
    exact h.workers (by rwa [Service.atWorkers_setLockAndWake] at hu)

/-! ## What a running task does -/

theorem release {D : List Duty} {id : LockId}
    (h : Orderly s (s.standing t ⟨.hold id :: D, none⟩)) :
    Orderly (s.release id) ((s.release id).standing t ⟨D, none⟩) := by
  have hheld : id ∈ (s.standing t ⟨.hold id :: D, none⟩ t).locks := by
    rw [Service.standing_self]
    exact Footing.mem_locks.mpr (List.mem_cons_self ..)
  have hgone : id ∉ (⟨D, none⟩ : Footing).locks := fun hmem =>
    h.not_held_below rfl (Footing.mem_locks.mp hmem)
  have hset := h.setLock ((h.locks id).letGo (F := ⟨D, none⟩) hheld hgone
    (by rw [Service.standing_self]) rfl) (fun other hne => ?_)
    (fun _ _ => ⟨Footing.not_waiting _ _, Footing.not_waiting _ _⟩)
      (fun _ => Footing.not_waiting _ _)
    (Footing.not_waiting _ _)
  · exact hset.wakeFirst rfl rfl
  · exact (List.count_cons_of_ne (Ne.symm hne)).symm

theorem leaveQueue {D : List Duty} {id : LockId}
    (h : Orderly s (s.standing t ⟨D, some (.lock id, some .cancel)⟩)) :
    Orderly (s.endWait t (.lock id) .cancel)
      ((s.endWait t (.lock id) .cancel).standing t ⟨D, none⟩) := by
  have hset := h.setLock ((h.locks id).leave (t := t) (F := ⟨D, none⟩)
    (by rw [Service.standing_self]; rfl) rfl) (fun _ _ => rfl)
    (fun other hne => ⟨fun hfor => ?_, Footing.not_waiting _ _⟩) (fun _ h => by cases h)
      (fun h => by cases h)
  · rw [Service.endWait]
    split
    · exact hset
    · rename_i hfree
      exact hset.wakeFirst (Bool.eq_false_iff.mpr hfree) rfl
  · cases hfor
    exact hne rfl

theorem endGate {D : List Duty} {name : String} {signal : Signal}
    (h : Orderly s (s.standing t ⟨D, some (.gate name, some signal)⟩)) :
    Orderly (s.endWait t (.gate name) signal)
      ((s.endWait t (.gate name) signal).standing t ⟨D, none⟩) := by
  have htasks : (s.endWait t (.gate name) signal).tasks = s.tasks := rfl
  rw [Service.standing_congr htasks t ⟨D, some (.gate name, some signal)⟩]
  refine ⟨fun id => ?_, fun {name' u} hu => ?_, fun {u} hu => ?_⟩
  · refine (h.locks id).congr_update (by rw [Service.standing_self]; rfl) fun sg => ?_
    rw [Service.standing_self]
    exact ⟨(fun h => by cases h), (fun h => by cases h)⟩
  · obtain ⟨hu, hut⟩ := List.mem_filter.mp hu
    rw [Function.update_of_ne (by simpa using hut)]
    exact h.gates hu
  · rw [Function.update_of_ne (h.not_at_worker (fun h => by cases h) hu)]
    exact h.workers hu

theorem endWork {D : List Duty} {signal : Signal}
    (h : Orderly s (s.standing t ⟨D, some (.worker, some signal)⟩)) :
    Orderly (s.endWait t .worker signal) ((s.endWait t .worker signal).standing t ⟨D, none⟩) := by
  have htasks : (s.endWait t .worker signal).tasks = s.tasks := rfl
  rw [Service.standing_congr htasks t ⟨D, some (.worker, some signal)⟩]
  refine ⟨fun id => ?_, fun {name' u} hu => ?_, fun {u} hu => ?_⟩
  · refine (h.locks id).congr_update (by rw [Service.standing_self]; rfl) fun sg => ?_
    rw [Service.standing_self]
    exact ⟨(fun h => by cases h), (fun h => by cases h)⟩
  · rw [Function.update_of_ne (h.not_at_gate (fun _ h => by cases h) hu)]
    exact h.gates hu
  · obtain ⟨hu, hut⟩ := List.mem_filter.mp hu
    rw [Function.update_of_ne (by simpa using hut)]
    exact h.workers hu

/-- The running task begins to wait at a gate or for a worker. -/
theorem pause {D : List Duty} {wait : Wait} (h : Orderly s (s.standing t ⟨D, none⟩))
    (hlocks : s'.locks = s.locks) (htasks : s'.tasks = s.tasks) (hwait : ∀ id, wait ≠ .lock id)
    (hgates : ∀ name u, (name, u) ∈ s'.atGates → (name, u) ∈ s.atGates ∨ u = t ∧ wait = .gate name)
    (hworkers : ∀ u, u ∈ s'.atWorkers → u ∈ s.atWorkers ∨ u = t ∧ wait = .worker) :
    Orderly s' (s'.standing t ⟨D, some (wait, none)⟩) := by
  -- the running task was on no list, so its new entry is the only one it has
  rw [Service.standing_congr htasks t ⟨D, none⟩]
  refine ⟨fun id => ?_, fun {name u} hu => ?_, fun {u} hu => ?_⟩
  · rw [Service.lock, hlocks]
    refine (h.locks id).congr_update (by rw [Service.standing_self]; rfl) fun sg => ?_
    rw [Service.standing_self]
    refine ⟨fun heq => ?_, (fun h => by cases h)⟩
    cases heq
    exact absurd rfl (hwait id)
  · rcases hgates name u hu with hold | ⟨rfl, rfl⟩
    · rw [Function.update_of_ne (h.not_at_gate (fun _ h => by cases h) hold)]
      exact h.gates hold
    · rw [Function.update_self]
      rfl
  · rcases hworkers u hu with hold | ⟨rfl, rfl⟩
    · rw [Function.update_of_ne (h.not_at_worker (fun h => by cases h) hold)]
      exact h.workers hold
    · rw [Function.update_self]
      rfl

/-- **What a task does with locks and parsers keeps the agreement.** Moves that concern parsers only
are a `shift`; each move of a lock has its lemma in `LockSound`. -/
theorem move {x y : Stance} (hmove : Move t x y) (h : Orderly x.1 (x.1.standing t x.2)) :
    Orderly y.1 (y.1.standing t y.2) := by
  cases hmove with
  | quiet hquiet => exact h.shift hquiet.traffic rfl rfl
  | retire p => exact h.shift ⟨rfl, rfl, rfl, rfl⟩ rfl rfl
  -- the lock was handed over to the task, which leaves the queue and holds it
  | arrive =>
    rename_i s D id
    refine h.setLock ((h.locks id).arrive (by rw [Service.standing_self])
      (by rw [Service.standing_self]; rfl) rfl) (fun other hne => ?_)
      (fun other hne => ⟨fun hfor => ?_, Footing.not_waiting _ _⟩) (fun _ h => by cases h)
        (fun h => by cases h)
    · exact List.count_cons_of_ne (Ne.symm hne)
    · cases hfor
      exact hne rfl
  | goOn hsignal =>
    rename_i s D wait signal
    cases wait with
    | lock id =>
      cases hsignal id rfl
      exact h.leaveQueue
    | gate name => exact h.endGate
    | worker => exact h.endWork
  -- nobody held the lock, so the task need not queue
  | take hfree hid =>
    rename_i s D id
    refine h.setLock ((h.locks id).take hfree (by rw [Service.standing_self])
      (by rw [Service.standing_self]; rfl) rfl) (fun other hne => ?_)
      (fun _ _ => ⟨Footing.not_waiting _ _, Footing.not_waiting _ _⟩)
        (fun _ => Footing.not_waiting _ _)
      (Footing.not_waiting _ _)
    exact List.count_cons_of_ne (Ne.symm hne)
  | queue hid =>
    rename_i s D id
    refine h.setLock ((h.locks id).enqueue (F := ⟨D, some (.lock id, none)⟩)
      (by rw [Service.standing_self]) (by rw [Service.standing_self]; rfl) rfl) (fun _ _ => rfl)
      (fun other hne => ⟨Footing.not_waiting _ _, fun hfor => ?_⟩)
        (fun _ => Footing.not_waiting _ _)
      (Footing.not_waiting _ _)
    cases hfor
    exact hne rfl
  | release => exact h.release
  | gate =>
    refine h.pause rfl rfl (fun _ h => by cases h) (fun name u hu => ?_) fun u hu => Or.inl hu
    rcases List.mem_append.mp hu with hold | hnew
    · exact Or.inl hold
    · cases List.mem_singleton.mp hnew
      exact Or.inr ⟨rfl, rfl⟩
  | work =>
    refine h.pause rfl rfl (fun _ h => by cases h) (fun name u hu => Or.inl hu) fun u hu => ?_
    rcases List.mem_append.mp hu with hold | hnew
    · exact Or.inl hold
    · exact Or.inr ⟨List.mem_singleton.mp hnew, rfl⟩
  | beginLoad => exact h.shift ⟨rfl, rfl, rfl, rfl⟩ rfl rfl
  | endLoad => exact h.shift ⟨rfl, rfl, rfl, rfl⟩ rfl rfl
  | startParse => exact h.shift ⟨rfl, rfl, rfl, rfl⟩ rfl rfl
  | endParse => exact h.shift ⟨rfl, rfl, rfl, rfl⟩ rfl rfl

theorem deal {x y : Stance} (hdeal : Deal t x y) (h : Orderly x.1 (x.1.standing t x.2)) :
    Orderly y.1 (y.1.standing t y.2) := by
  cases hdeal with
  | move hmove => exact h.move hmove
  | change hchange => exact h.shift hchange.traffic rfl rfl
  | build => exact h.shift ⟨rfl, rfl, rfl, rfl⟩ rfl rfl
  | keep => exact h.shift ⟨rfl, rfl, rfl, rfl⟩ rfl rfl
  | abandon => exact h.shift ⟨rfl, rfl, rfl, rfl⟩ rfl rfl

/-! ## What ends a wait -/

theorem waitsFor_signalled (foot : TaskId → Footing) (u v : TaskId) (sg : Signal) :
    (Function.update foot u ((foot u).signal sg) v).waitsFor = (foot v).waitsFor := by
  by_cases hv : v = u
  · subst hv
    rw [Function.update_self, Footing.waitsFor_signal]
  · rw [Function.update_of_ne hv]

theorem wake (h : Orderly s s.footing) {u : TaskId}
    (hu : ∀ id, (s.footing u).waitsFor ≠ some (.lock id)) (sg : Signal) :
    Orderly (s.wake u sg) (s.wake u sg).footing := by
  rw [Service.footing_wake]
  refine ⟨fun id => ?_, fun {name v} hv => ?_, fun {v} hv => ?_⟩
  · rw [Service.lock_wake]
    refine (h.locks id).congr_update (by rw [Footing.locks_signal]) fun sg' => ?_
    constructor
    · intro hsg
      have := Footing.waitsFor_eq_some.mpr ⟨sg', hsg⟩
      rw [Footing.waitsFor_signal] at this
      exact absurd this (hu id)
    · intro hsg
      exact absurd (Footing.waitsFor_eq_some.mpr ⟨sg', hsg⟩) (hu id)
  · rw [waitsFor_signalled]
    exact h.gates (by rwa [Service.atGates_wake] at hv)
  · rw [waitsFor_signalled]
    exact h.workers (by rwa [Service.atWorkers_wake] at hv)

theorem of_traffic (h : Orderly s s.footing) (hsame : SameTraffic s s') :
    Orderly s' s'.footing := by
  have hfoot : s'.footing = s.footing := by
    funext u
    rw [Service.footing, Service.footing, hsame.tasks]
  rw [hfoot]
  exact h.congr hsame (fun _ => rfl) fun _ => rfl

theorem wakeAll (h : Orderly s s.footing) (name : String) {entries : List (String × TaskId)}
    (hentries : ∀ entry ∈ entries, (s.footing entry.2).waitsFor = some (.gate name)) :
    Orderly (entries.foldl (fun acc entry => acc.wake entry.2 .proceed) s)
      (entries.foldl (fun acc entry => acc.wake entry.2 .proceed) s).footing := by
  induction entries generalizing s with
  | nil => exact h
  | cons entry rest ih =>
    have hfirst := hentries entry (List.mem_cons_self ..)
    refine ih (h.wake (u := entry.2) (by simp [hfirst]) .proceed) fun entry' hentry' => ?_
    rw [((Undisturbed.wake s entry.2 .proceed).footing entry'.2).2]
    exact hentries entry' (List.mem_cons_of_mem _ hentry')

theorem openGate (h : Orderly s s.footing) (name : String) :
    Orderly (s.openGate name) (s.openGate name).footing := by
  have hopened : Orderly { s with openGates := if s.openGates.contains name then s.openGates
      else name :: s.openGates } s.footing := ⟨h.locks, h.gates, h.workers⟩
  refine wakeAll hopened name fun entry hentry => ?_
  obtain ⟨hmem, hname⟩ := List.mem_filter.mp hentry
  rw [← of_decide_eq_true hname]
  exact h.gates hmem

theorem finishWork (h : Orderly s s.footing) (t : TaskId) :
    Orderly (s.finishWork t) (s.finishWork t).footing := by
  rw [Service.finishWork]
  split
  · rename_i hmem
    have hfor := h.workers (List.contains_iff_mem.mp hmem)
    have herased : Orderly { s with atWorkers := s.atWorkers.erase t } s.footing :=
      ⟨h.locks, h.gates, fun hu => h.workers (List.mem_of_mem_erase hu)⟩
    refine wake (s := { s with atWorkers := s.atWorkers.erase t }) herased (fun id hid => ?_)
      .proceed
    have hid : (s.footing t).waitsFor = some (.lock id) := hid
    rw [hfor] at hid
    cases hid
  · exact h

/-- A task in the queue of a lock is cancelled. -/
theorem cancelQueued (h : Orderly s s.footing) {id : LockId}
    (hwait : (s.footing t).wait = some (.lock id, none)) :
    Orderly ((s.setLock id ((s.lock id).cancel t)).wake t .cancel)
      ((s.setLock id ((s.lock id).cancel t)).wake t .cancel).footing := by
  have hfoot : ((s.setLock id ((s.lock id).cancel t)).wake t .cancel).footing
      = Function.update s.footing t ((s.footing t).signal .cancel) := Service.footing_wake _ _ _
  have hfor : (s.footing t).waitsFor = some (.lock id) := Footing.waitsFor_eq_some.mpr ⟨_, hwait⟩
  rw [hfoot]
  refine ⟨fun other => ?_, fun {name v} hv => ?_, fun {v} hv => ?_⟩
  · rw [Service.lock_wake, Service.lock_setLock]
    split
    · rename_i heq
      exact heq ▸ (h.locks id).cancel hwait
    · rename_i hne
      refine (h.locks other).congr_update (by rw [Footing.locks_signal]) fun sg => ?_
      -- the task waits for this lock, and so for no other
      have hnot : ∀ F : Footing, F.waitsFor = some (.lock id) →
          F.wait ≠ some (.lock other, sg) := by
        intro F hF heq
        rw [Footing.waitsFor_eq_some.mpr ⟨sg, heq⟩] at hF
        simp only [Option.some.injEq, Wait.lock.injEq] at hF
        exact hne hF.symm
      exact ⟨fun heq => absurd heq (hnot _ (by rw [Footing.waitsFor_signal, hfor])),
        fun heq => absurd heq (hnot _ hfor)⟩
  · rw [waitsFor_signalled]
    exact h.gates (by rwa [Service.atGates_wake] at hv)
  · rw [waitsFor_signalled]
    exact h.workers (by rwa [Service.atWorkers_wake] at hv)

/-- A task that may go on is cancelled before it runs: the later signal replaces the one to
proceed. -/
theorem cancelWoken (h : Orderly s s.footing) {frame : Frame} {wait : Wait}
    (ht : s.tasks[t]? = some (.waiting frame wait (some .proceed))) :
    Orderly (s.setTask t (.waiting frame wait (some .cancel)))
      (s.setTask t (.waiting frame wait (some .cancel))).footing := by
  have hlt : t < s.tasks.size := (Array.getElem?_eq_some_iff.mp ht).1
  have hfoot : s.footing t = ⟨frame.duties, some (wait, some .proceed)⟩ := by
    rw [Service.footing, ht]
    rfl
  have hsame : ∀ u, (s.standing t ⟨frame.duties, some (wait, some .cancel)⟩ u).waitsFor
      = (s.footing u).waitsFor := fun u => by
    by_cases hu : u = t
    · subst hu
      rw [Service.standing_self, hfoot]
      rfl
    · rw [Service.standing_of_ne _ _ hu]
  rw [Service.footing_setTask s hlt]
  refine ⟨fun id => ?_, fun {name u} hu => ?_, fun {u} hu => ?_⟩
  -- it may have been woken by a lock, which keeps it at the head of its queue
  · by_cases hid : wait = .lock id
    · subst hid
      have := (h.locks id).cancelWoken (t := t) (by rw [hfoot])
      rwa [hfoot] at this
    · refine (h.locks id).congr_update (by rw [hfoot]; rfl) fun sg => ?_
      rw [hfoot]
      constructor
      · intro heq
        cases heq
        exact absurd rfl hid
      · intro heq
        cases heq
        exact absurd rfl hid
  · exact (hsame u).trans (h.gates hu)
  · exact (hsame u).trans (h.workers hu)

/-- **Cancelling a task keeps the agreement**, wherever the task stands. -/
theorem cancel (h : Orderly s s.footing) (t : TaskId) :
    Orderly (s.cancel t) (s.cancel t).footing := by
  rw [Service.cancel]
  split
  -- a task that has not begun waits for nothing, so the mark changes nothing for the others
  · rename_i call cancelled ht
    have hlt : t < s.tasks.size := (Array.getElem?_eq_some_iff.mp ht).1
    have hfoot : s.footing t = {} := by
      rw [Service.footing, ht]
      rfl
    rw [Service.footing_setTask s hlt]
    have hsame : s.standing t (TaskStatus.fresh call true).footing = s.footing :=
      Service.standing_eq_footing hfoot
    rw [hsame]
    exact ⟨h.locks, h.gates, h.workers⟩
  · rename_i frame wait ht
    have hfoot : s.footing t = ⟨frame.duties, some (wait, none)⟩ := by
      rw [Service.footing, ht]
      rfl
    cases wait with
    | lock id => exact h.cancelQueued (by rw [hfoot])
    | gate name => exact h.wake (by simp [hfoot, Footing.waitsFor]) .cancel
    | worker => exact h.wake (by simp [hfoot, Footing.waitsFor]) .cancel
  · rename_i frame wait ht
    -- it was woken already, and gets the other signal instead
    exact h.cancelWoken ht
  · exact h

end Orderly

end SyntaxForest
