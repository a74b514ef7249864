import Mathlib.Logic.Function.Basic
import SyntaxForest.Proofs.Data.Assoc
import SyntaxForest.Proofs.Data.Basic
import SyntaxForest.Service.Schedule

/-!
# Where a task stands

A task that waits has begun things that it has to end: it holds locks, a grammar is being loaded for
it, an engine is at work for it, or it builds a parser for a registry. These are its *duties*, the
latest one first. They can be read off the point at which its call waits.

* **`Duty`**, **`Footing`** — what a task has begun, and what it waits for.
* **`Frame.duties`** — the duties of a call by the point where it stands.
* **`Service.footing`** — the footing of every task of a service. The footing of a task in the
  middle of a step is not in the service yet, so statements about steps replace it
  (`Service.standing`).
* **`Quiet`** — two services that differ in nothing that tasks can run into.
-/

namespace SyntaxForest

/-- Something that a task has begun and has to end. -/
inductive Duty where
  | hold (id : LockId)
  /-- The grammar of the parser is being loaded. -/
  | load (p : ParserId)
  /-- The engine of the parser is at work. -/
  | engine (p : ParserId)
  /-- The parser is being built for this entry of the registry. -/
  | build (r : RegistryId) (entry : Registration) (p : ParserId)

/-- What a task has begun, the latest first, and what it waits for, with the signal that ends the
wait. -/
structure Footing where
  duties : List Duty := []
  wait : Option (Wait × Option Signal) := none

namespace Footing

/-- The locks that the task holds. -/
def locks (F : Footing) : List LockId :=
  F.duties.filterMap fun
    | .hold id => some id
    | _ => none

/-- What the task waits for. -/
def waitsFor (F : Footing) : Option Wait := F.wait.map (·.1)

/-- The wait of the task ends, unless it has ended already. -/
def signal (F : Footing) (sg : Signal) : Footing :=
  match F.wait with
  | some (wait, none) => { F with wait := some (wait, some sg) }
  | _ => F

@[simp] theorem duties_signal (F : Footing) (sg : Signal) : (F.signal sg).duties = F.duties := by
  rw [signal]
  split <;> rfl

@[simp] theorem locks_signal (F : Footing) (sg : Signal) : (F.signal sg).locks = F.locks := by
  rw [locks, locks, duties_signal]

@[simp] theorem waitsFor_signal (F : Footing) (sg : Signal) :
    (F.signal sg).waitsFor = F.waitsFor := by
  rw [signal]
  split
  · rename_i h
    simp [waitsFor, h]
  · rfl

theorem not_waiting (D : List Duty) (w : Wait) : (⟨D, none⟩ : Footing).waitsFor ≠ some w := by
  intro h
  cases h

theorem waitsFor_eq_some {F : Footing} {w : Wait} :
    F.waitsFor = some w ↔ ∃ sg, F.wait = some (w, sg) := by
  rw [waitsFor, Option.map_eq_some_iff]
  constructor
  · rintro ⟨⟨_, sg⟩, hwait, rfl⟩
    exact ⟨sg, hwait⟩
  · rintro ⟨sg, hwait⟩
    exact ⟨_, hwait, rfl⟩

theorem mem_locks {F : Footing} {id : LockId} : id ∈ F.locks ↔ .hold id ∈ F.duties := by
  rw [locks, List.mem_filterMap]
  constructor
  · rintro ⟨d, hd, heq⟩
    cases d with
    | hold other =>
      cases heq
      exact hd
    | _ => cases heq
  · intro h
    exact ⟨_, h, rfl⟩

end Footing

/-! ## Duties of calls -/

/-- An initialization that waits for its lock has begun nothing; one that waits for the load holds
the lock. -/
def InitPoint.duties (p : ParserId) : InitPoint → List Duty
  | .lock => []
  | .load => [.load p, .hold (.lifecycle p)]

/-- A parse that waits for the engine holds the lock of parsing. One that waits for that lock has no
duties: the initialization that came before it has let go of its own. -/
def ParsePoint.duties (p : ParserId) : ParsePoint → List Duty
  | .init point => point.duties p
  | .lock => []
  | .engine => [.engine p, .hold (.parsing p)]

/-- Who builds a parser holds the lock of the registry all the time, also while the grammar of the
parser loads. -/
def GetPoint.duties (r : RegistryId) : GetPoint → List Duty
  | .lock => []
  | .init entry p point => point.duties p ++ [.build r entry p, .hold (.registry r)]

/-- A facade has no duties of its own, only those of asking the registry or of the parse. -/
def FacadePoint.duties (r : RegistryId) : FacadePoint → List Duty
  | .get point => point.duties r
  | .parse p point => point.duties p

/-- The duties of a call, whichever call it is, by the point where it stands. They are a function of
the point, so that nothing has to be remembered besides it. -/
def Frame.duties : Frame → List Duty
  | .init p _ point => point.duties p
  | .parse p _ point => point.duties p
  | .scoped p _ point => point.duties p
  | .getParser r _ point => point.duties r
  | .facade f _ _ point => point.duties f.registry

/-- A task that has not begun, and one that has ended, have no duties and wait for nothing. So only
waiting tasks have to be looked at between steps. -/
def TaskStatus.footing : TaskStatus → Footing
  | .waiting frame wait signal => { duties := frame.duties, wait := some (wait, signal) }
  | .fresh _ _ | .finished _ => {}

namespace Service

/-- Where each task stands. -/
def footing (s : Service) (task : TaskId) : Footing :=
  ((s.tasks[task]?).map TaskStatus.footing).getD {}

/-- Where each task stands while one of them runs. -/
def standing (s : Service) (task : TaskId) (F : Footing) : TaskId → Footing :=
  Function.update s.footing task F

@[simp] theorem standing_self (s : Service) (task : TaskId) (F : Footing) :
    s.standing task F task = F := Function.update_self ..

theorem standing_of_ne (s : Service) {task u : TaskId} (F : Footing) (h : u ≠ task) :
    s.standing task F u = s.footing u := Function.update_of_ne h ..

theorem standing_eq_footing {s : Service} {task : TaskId} {F : Footing} (h : s.footing task = F) :
    s.standing task F = s.footing := by
  subst h
  exact Function.update_eq_self ..

theorem standing_congr {s s' : Service} (h : s'.tasks = s.tasks) (task : TaskId) (F F' : Footing) :
    s'.standing task F' = Function.update (s.standing task F) task F' := by
  have hfooting : s'.footing = s.footing := by
    funext u
    rw [footing, footing, h]
  rw [standing, standing, hfooting, Function.update_idem]

/-! ## What primitive operations change -/

@[simp] theorem lock_setLock (s : Service) (id other : LockId) (l : Lock) :
    (s.setLock id l).lock other = if id = other then l else s.lock other := by
  rw [lock, setLock, Assoc.get?_set]
  split <;> rfl

theorem parser?_modifyParser (s : Service) (p q : ParserId) (change : Parser → Parser) :
    (s.modifyParser p change).parser? q
      = if p = q then (s.parser? q).map change else s.parser? q :=
  Array.getElem?_modify

theorem parser?_modifyParser_self {s : Service} {p : ParserId} {parser : Parser}
    (h : s.parser? p = some parser) (change : Parser → Parser) :
    (s.modifyParser p change).parser? p = some (change parser) := by
  rw [parser?_modifyParser, if_pos rfl, h]
  rfl

theorem parser?_modifyParser_of_ne (s : Service) {p q : ParserId} (h : p ≠ q)
    (change : Parser → Parser) : (s.modifyParser p change).parser? q = s.parser? q := by
  rw [parser?_modifyParser, if_neg h]

theorem modifyParser_modifyParser (s : Service) (p : ParserId) (f g : Parser → Parser) :
    (s.modifyParser p f).modifyParser p g = s.modifyParser p fun q => g (f q) := by
  simp only [modifyParser, modify_modify]

theorem modifyParser_congr {s : Service} {p : ParserId} {parser : Parser} {f g : Parser → Parser}
    (h : s.parser? p = some parser) (hfg : f parser = g parser) :
    s.modifyParser p f = s.modifyParser p g := by
  have hparsers : s.parsers.modify p f = s.parsers.modify p g := by
    apply Array.ext_getElem?
    intro i
    rw [Array.getElem?_modify, Array.getElem?_modify]
    split
    · rename_i heq
      subst heq
      have h' : s.parsers[p]? = some parser := h
      rw [h', Option.map_some, Option.map_some, hfg]
    · rfl
  simp only [modifyParser, hparsers]

/-- Waking a task is a signal to its footing, and to no other. The first signal counts, so waking a
task that has one already is nothing, on both sides. -/
theorem footing_wake (s : Service) (task : TaskId) (sg : Signal) :
    (s.wake task sg).footing = Function.update s.footing task ((s.footing task).signal sg) := by
  funext u
  rw [wake]
  split
  · rename_i frame wait h
    by_cases hu : u = task
    · subst hu
      rw [Function.update_self]
      simp [footing, Array.getElem?_modify, h, TaskStatus.footing, Footing.signal]
    · rw [Function.update_of_ne hu]
      simp only [footing]
      rw [Array.getElem?_modify, if_neg (Ne.symm hu)]
  · rename_i h
    -- there is no wait without a signal, so the footing is left as it is
    have hsame : (s.footing task).signal sg = s.footing task := by
      rw [footing, Footing.signal]
      cases htask : s.tasks[task]? with
      | none => rfl
      | some status =>
        cases status with
        | fresh call cancelled => rfl
        | finished result => rfl
        | waiting frame wait signal =>
          cases signal with
          | none => exact absurd htask (h frame wait)
          | some given => rfl
    rw [hsame, Function.update_eq_self]

theorem footing_setTask (s : Service) {task : TaskId} (h : task < s.tasks.size)
    (status : TaskStatus) :
    (s.setTask task status).footing = s.standing task status.footing := by
  funext u
  simp only [footing, setTask, Array.getElem?_modify]
  by_cases hu : u = task
  · subst hu
    rw [standing_self, if_pos rfl, Array.getElem?_eq_getElem h]
    rfl
  · rw [standing_of_ne _ _ hu, if_neg (Ne.symm hu), footing]

theorem footing_of_size_le (s : Service) {task : TaskId} (h : s.tasks.size ≤ task) :
    s.footing task = {} := by
  rw [footing, Array.getElem?_eq_none h]
  rfl

end Service

/-! ## Quiet changes -/

/-- The two services differ in nothing that tasks can run into: in logs, counts, events, the clock,
and the order in which tasks are ready. -/
structure Quiet (s s' : Service) : Prop where
  parsers : s'.parsers = s.parsers
  registries : s'.registries = s.registries
  locks : s'.locks = s.locks
  tasks : s'.tasks = s.tasks
  atGates : s'.atGates = s.atGates
  atWorkers : s'.atWorkers = s.atWorkers

namespace Quiet

variable {s s' s'' : Service}

theorem refl (s : Service) : Quiet s s := ⟨rfl, rfl, rfl, rfl, rfl, rfl⟩

theorem trans (h : Quiet s s') (h' : Quiet s' s'') : Quiet s s'' :=
  ⟨h'.parsers.trans h.parsers, h'.registries.trans h.registries, h'.locks.trans h.locks,
    h'.tasks.trans h.tasks, h'.atGates.trans h.atGates, h'.atWorkers.trans h.atWorkers⟩

theorem write (s : Service) (record : LogRecord) : Quiet s (s.write record) :=
  ⟨rfl, rfl, rfl, rfl, rfl, rfl⟩

theorem note (s : Service) (level : Int) (logger message : String) :
    Quiet s (s.note level logger message) := write _ _

theorem count (s : Service) (p : Parser) (change : Collector → Collector) :
    Quiet s (s.count p change) := by
  rw [Service.count]
  split
  · exact ⟨rfl, rfl, rfl, rfl, rfl, rfl⟩
  · exact refl s

theorem modifyParser (h : Quiet s s') (p : ParserId) (change : Parser → Parser) :
    Quiet (s.modifyParser p change) (s'.modifyParser p change) :=
  ⟨by simp only [Service.modifyParser, h.parsers], h.registries, h.locks, h.tasks, h.atGates,
    h.atWorkers⟩

theorem parser? (h : Quiet s s') (p : ParserId) : s'.parser? p = s.parser? p := by
  rw [Service.parser?, Service.parser?, h.parsers]

end Quiet

end SyntaxForest
