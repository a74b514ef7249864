import SyntaxForest.Proofs.Service.Effects
import SyntaxForest.Proofs.Service.Faults
import SyntaxForest.Proofs.Service.Runs

/-!
# What callers want to know

Whoever calls through a facade says what they want to know of the text: its tree, its declarations,
whether there are errors, or which. The service looks at that when the call ends, and not before.

* **`Service.withGoal`** — the same service, but for what the call of one task wants to know.
* **`beginGet_withGoal`**, **`beginParse_withGoal`** and their like — every part of the service
  takes the same course with another goal.
* **`Service.act_withGoal`** — so does all that happens to the service, as long as the call goes on.
-/

namespace SyntaxForest

/-! ## Other goals -/

/-- The call with another goal; calls that are not made through a facade have none and stay as they
are. -/
def Call.withGoal (goal : FacadeGoal) : Call → Call
  | .facade f _ request => .facade f goal request
  | call => call

/-- The point of a waiting call does not depend on its goal, so the frame differs in the goal
alone. -/
def Frame.withGoal (goal : FacadeGoal) : Frame → Frame
  | .facade f _ request point => .facade f goal request point
  | frame => frame

/-- A task that has ended has its answer, and another goal comes too late for it. Otherwise the
signal and the wait stay as they are. -/
def TaskStatus.withGoal (goal : FacadeGoal) : TaskStatus → TaskStatus
  | .fresh call cancelled => .fresh (call.withGoal goal) cancelled
  | .waiting frame wait signal => .waiting (frame.withGoal goal) wait signal
  | .finished result => .finished result

namespace Service

/-- The service in which the call of a task wants to know something else. -/
def withGoal (s : Service) (t : TaskId) (goal : FacadeGoal) : Service :=
  { s with tasks := s.tasks.modify t (TaskStatus.withGoal goal) }

/-- A run that comes to the same in such a service. -/
def runWithGoal {α : Type} (t : TaskId) (goal : FacadeGoal) (y : Service × α) : Service × α :=
  (y.1.withGoal t goal, y.2)

variable (s : Service) (t : TaskId) (goal : FacadeGoal)

theorem task_withGoal (u : TaskId) :
    (s.withGoal t goal).tasks[u]? = if t = u then (s.tasks[u]?).map (TaskStatus.withGoal goal)
      else s.tasks[u]? :=
  Array.getElem?_modify

theorem result?_withGoal : (s.withGoal t goal).result? t = s.result? t := by
  rw [result?, result?, task_withGoal, if_pos rfl]
  cases s.tasks[t]? with
  | none => rfl
  | some status => cases status <;> rfl

/-! Tasks apart, the service is the same. -/

theorem parser?_withGoal (p : ParserId) : (s.withGoal t goal).parser? p = s.parser? p := rfl

theorem lock_withGoal (id : LockId) : (s.withGoal t goal).lock id = s.lock id := rfl

theorem isSet_withGoal (event : Option String) : (s.withGoal t goal).isSet event = s.isSet event :=
  rfl

theorem modifyParser_withGoal (p : ParserId) (change : Parser → Parser) :
    (s.withGoal t goal).modifyParser p change = (s.modifyParser p change).withGoal t goal := rfl

theorem write_withGoal (record : LogRecord) :
    (s.withGoal t goal).write record = (s.write record).withGoal t goal := rfl

theorem note_withGoal (level : Int) (logger message : String) :
    (s.withGoal t goal).note level logger message = (s.note level logger message).withGoal t goal :=
  rfl

theorem modifyRegistry_withGoal (r : RegistryId) (change : Registry → Registry) :
    (s.withGoal t goal).modifyRegistry r change = (s.modifyRegistry r change).withGoal t goal := rfl

theorem count_withGoal (q : Parser) (change : Collector → Collector) :
    (s.withGoal t goal).count q change = (s.count q change).withGoal t goal := by
  unfold count
  split <;> rfl

/-! ## Tasks, locks and pauses -/

theorem setTask_withGoal {u : TaskId} (hu : u ≠ t) (status : TaskStatus) :
    (s.withGoal t goal).setTask u status = (s.setTask u status).withGoal t goal := by
  simp only [setTask, withGoal, modify_comm hu]

theorem setTask_withGoal_self (status : TaskStatus) :
    (s.withGoal t goal).setTask t (status.withGoal goal) = (s.setTask t status).withGoal
      t goal := by
  simp only [setTask, withGoal, modify_modify]

/-- Waking a task does not look at its goal, not even if it is the task in question. -/
theorem wake_withGoal (u : TaskId) (signal : Signal) :
    (s.withGoal t goal).wake u signal = (s.wake u signal).withGoal t goal := by
  rw [wake, wake, task_withGoal]
  by_cases hu : t = u
  · -- the task itself is woken: the signal is set beside the frame that holds the goal
    subst hu
    rw [if_pos rfl]
    cases s.tasks[t]? with
    | none => rfl
    | some status =>
      cases status with
      | fresh call cancelled => rfl
      | finished result => rfl
      | waiting frame wait sg =>
        cases sg with
        | some sg => rfl
        | none => simp only [Option.map_some, TaskStatus.withGoal, withGoal, modify_modify]
  · rw [if_neg hu]
    split
    · simp only [withGoal, modify_comm (Ne.symm hu)]
    · rfl

theorem setLockAndWake_withGoal (id : LockId) (l : Lock × Option TaskId) :
    (s.withGoal t goal).setLockAndWake id l = (s.setLockAndWake id l).withGoal t goal := by
  rw [setLockAndWake, setLockAndWake]
  split
  · exact wake_withGoal (s.setLock id l.1) ..
  · rfl

theorem release_withGoal (id : LockId) :
    (s.withGoal t goal).release id = (s.release id).withGoal t goal :=
  setLockAndWake_withGoal ..

theorem acquire_withGoal (id : LockId) (u : TaskId) :
    (s.withGoal t goal).acquire id u = runWithGoal t goal (s.acquire id u) := by
  rw [acquire, acquire, lock_withGoal]
  split <;> rfl

theorem endWait_withGoal (u : TaskId) (wait : Wait) (signal : Signal) :
    (s.withGoal t goal).endWait u wait signal = (s.endWait u wait signal).withGoal t goal := by
  cases wait with
  | gate name => rfl
  | worker => rfl
  | lock id =>
    cases signal with
    | proceed => rfl
    | cancel =>
      rw [endWait, endWait, lock_withGoal]
      split
      · rfl
      · exact setLockAndWake_withGoal ..

theorem pauseAt_withGoal (u : TaskId) (pause : Pause) :
    (s.withGoal t goal).pauseAt u pause = runWithGoal t goal (s.pauseAt u pause) := by
  cases pause with
  | none => rfl
  | worker => rfl
  | gate name =>
    have hopen : (s.withGoal t goal).openGates = s.openGates := rfl
    simp only [pauseAt, hopen]
    split <;> rfl

/-! ## Initializing -/

theorem moveParser_withGoal (p : ParserId) (target : Stage) :
    (s.withGoal t goal).moveParser p target = (s.moveParser p target).map (withGoal · t goal) := by
  rw [moveParser, moveParser, parser?_withGoal]
  split
  · rfl
  · split <;> rfl

theorem disposeParser_withGoal (p : ParserId) :
    (s.withGoal t goal).disposeParser p = (s.disposeParser p).withGoal t goal := by
  rw [disposeParser, disposeParser, parser?_withGoal, moveParser_withGoal]
  split
  · rfl
  · split
    · rfl
    · cases s.moveParser p .disposed with
      | error e => rfl
      | ok moved =>
        dsimp only [Except.map]
        split <;> rfl

theorem leaveInit_withGoal (p : ParserId) (result : Except Fault Unit) :
    (s.withGoal t goal).leaveInit p result = runWithGoal t goal (s.leaveInit p result) := by
  rw [leaveInit, release_withGoal]
  rfl

theorem failLoad_withGoal (p : ParserId) (q : Parser) (fault : Fault) :
    (s.withGoal t goal).failLoad p q fault = runWithGoal t goal (s.failLoad p q fault) := by
  simp only [failLoad, moveParser_withGoal]
  -- whether the stage can go back and whether there is a record does not depend on the goal
  cases s.moveParser p .uninitialized
  all_goals
    dsimp only [Except.map]
    repeat' split
    all_goals simp only [write_withGoal, leaveInit_withGoal]

theorem finishLoad_withGoal (p : ParserId) (q : Parser) (event : Option String) :
    (s.withGoal t goal).finishLoad p q event = runWithGoal t goal (s.finishLoad p q event) := by
  simp only [finishLoad, moveParser_withGoal]
  split
  · simp only [modifyParser_withGoal, leaveInit_withGoal]
  · cases s.moveParser p .initialized with
    | error e => exact leaveInit_withGoal ..
    | ok moved => exact leaveInit_withGoal (moved.write _) ..

theorem endLoad_withGoal (p : ParserId) (event : Option String) (signal : Signal) :
    (s.withGoal t goal).endLoad p event signal = runWithGoal t goal (s.endLoad p event signal) := by
  have helapsed : (s.withGoal t goal).elapsed = s.elapsed := rfl
  simp only [endLoad, parser?_withGoal, count_withGoal, modifyParser_withGoal, helapsed]
  split
  · exact leaveInit_withGoal ..
  · split
    · exact failLoad_withGoal ..
    · exact finishLoad_withGoal ..

theorem startLoad_withGoal (u : TaskId) (p : ParserId) (q : Parser) (event : Option String) :
    (s.withGoal t goal).startLoad u p q event = runWithGoal t goal (s.startLoad u p q event) := by
  rw [startLoad, startLoad, modifyParser_withGoal, pauseAt_withGoal]
  rcases (s.modifyParser p Parser.startLoad).pauseAt u q.engine.loadPause with ⟨s₁, _ | wait⟩
  · exact endLoad_withGoal ..
  · rfl

theorem initLocked_withGoal (u : TaskId) (p : ParserId) (event : Option String) :
    (s.withGoal t goal).initLocked u p event = runWithGoal t goal (s.initLocked u p event) := by
  simp only [initLocked, parser?_withGoal, isSet_withGoal, moveParser_withGoal]
  split
  · exact leaveInit_withGoal ..
  · split
    · exact leaveInit_withGoal ..
    · split
      · exact leaveInit_withGoal ..
      · split
        · exact leaveInit_withGoal ..
        · cases s.moveParser p .initializing with
          | error e => exact leaveInit_withGoal ..
          | ok moved => simp only [Except.map, write_withGoal, startLoad_withGoal]

/-- **An initialization takes the same course**: no goal is looked at on the way. -/
theorem beginInit_withGoal (u : TaskId) (p : ParserId) (event : Option String) :
    (s.withGoal t goal).beginInit u p event = runWithGoal t goal (s.beginInit u p event) := by
  rw [beginInit, beginInit, parser?_withGoal, acquire_withGoal]
  split
  · rfl
  · split
    · rfl
    · split
      · rfl
      · rcases s.acquire (.lifecycle p) u with ⟨s₁, _ | _⟩
        · rfl
        · exact initLocked_withGoal ..

theorem resumeInit_withGoal (u : TaskId) (p : ParserId) (event : Option String) (point : InitPoint)
    (signal : Signal) :
    (s.withGoal t goal).resumeInit u p event point signal = runWithGoal t goal
      (s.resumeInit u p event point signal) := by
  cases point with
  | load => exact endLoad_withGoal ..
  | lock =>
    cases signal with
    | proceed => exact initLocked_withGoal ..
    | cancel => rfl

/-! ## Parsing -/

theorem endEngine_withGoal (p : ParserId) (q : Parser) (request : ParseRequest)
    (result : Except Fault Forest) :
    (s.withGoal t goal).endEngine p q request result = runWithGoal t goal
      (s.endEngine p q request result) := by
  simp only [endEngine, modifyParser_withGoal, release_withGoal]
  -- from here on only the service without the lock matters
  generalize (s.modifyParser p Parser.endParse).release (.parsing p) = free
  have helapsed : (free.withGoal t goal).elapsed = free.elapsed := rfl
  cases result with
  | error fault =>
    simp only [failEngine, count_withGoal, write_withGoal, helapsed]
    split
    · rfl
    · split <;> rfl
  | ok forest =>
    simp only [finishEngine, count_withGoal, write_withGoal, isSet_withGoal, helapsed]
    split
    · rfl
    · split <;> rfl

theorem parseLocked_withGoal (u : TaskId) (p : ParserId) (request : ParseRequest) :
    (s.withGoal t goal).parseLocked u p request = runWithGoal t goal
      (s.parseLocked u p request) := by
  simp only [parseLocked, parser?_withGoal, release_withGoal, modifyParser_withGoal,
    pauseAt_withGoal]
  split
  · rfl
  · rename_i q hq
    split
    · rfl
    · split
      · exact endEngine_withGoal ..
      · rcases (s.modifyParser p Parser.startParse).pauseAt u q.engine.parsePause with
          ⟨s₁, _ | wait⟩
        · exact endEngine_withGoal ..
        · rfl

theorem parseReady_withGoal (u : TaskId) (p : ParserId) (request : ParseRequest) :
    (s.withGoal t goal).parseReady u p request = runWithGoal t goal (s.parseReady u p request) := by
  simp only [parseReady, isSet_withGoal, acquire_withGoal]
  split
  · rfl
  · rcases s.acquire (.parsing p) u with ⟨s₁, _ | _⟩
    · rfl
    · exact parseLocked_withGoal ..

theorem parseInitialized_withGoal (u : TaskId) (p : ParserId) (request : ParseRequest)
    (run : Run InitPoint Unit) :
    (s.withGoal t goal).parseInitialized u p request run = runWithGoal t goal
      (s.parseInitialized u p request run) := by
  cases run with
  | waiting point wait => rfl
  | finished result =>
    cases result with
    | ok _ => exact parseReady_withGoal ..
    | error fault =>
      rw [parseInitialized, parseInitialized, parser?_withGoal]
      split
      · rfl
      · split <;> rfl

/-- **A parse takes the same course.** -/
theorem beginParse_withGoal (u : TaskId) (p : ParserId) (request : ParseRequest) :
    (s.withGoal t goal).beginParse u p request = runWithGoal t goal (s.beginParse u p request) := by
  rw [beginParse, beginParse, parser?_withGoal, beginInit_withGoal]
  split
  · rfl
  · split
    · rfl
    · split
      · rfl
      · split
        · rfl
        · split
          · exact parseReady_withGoal ..
          · exact parseInitialized_withGoal ..

theorem resumeParse_withGoal (u : TaskId) (p : ParserId) (request : ParseRequest)
    (point : ParsePoint) (signal : Signal) :
    (s.withGoal t goal).resumeParse u p request point signal
      = runWithGoal t goal (s.resumeParse u p request point signal) := by
  cases point with
  | init point =>
    rw [resumeParse, resumeParse, resumeInit_withGoal]
    exact parseInitialized_withGoal ..
  | lock =>
    cases signal with
    | proceed => exact parseLocked_withGoal ..
    | cancel => rfl
  | engine =>
    rw [resumeParse, resumeParse, parser?_withGoal]
    split
    · rfl
    · exact endEngine_withGoal ..

/-! ## Registries -/

theorem registry_withGoal (r : RegistryId) :
    (s.withGoal t goal).registries[r]? = s.registries[r]? := rfl

theorem unregister_withGoal (r : RegistryId) (language : String) :
    (s.withGoal t goal).unregister r language = runWithGoal t goal (s.unregister r language) := by
  rw [unregister, unregister, registry_withGoal]
  split
  · rfl
  · rename_i registry config kept heq
    cases kept with
    | none => rfl
    | some p =>
      simp only [modifyRegistry_withGoal, disposeParser_withGoal]
      rfl

theorem replaceEarlier_withGoal (r : RegistryId) (config : LanguageConfig) :
    (s.withGoal t goal).replaceEarlier r config = (s.replaceEarlier r config).withGoal t goal := by
  rw [replaceEarlier, replaceEarlier, registry_withGoal, note_withGoal, unregister_withGoal]
  split <;> rfl

theorem noteAll_withGoal (messages : List WideText) (level : Int) (logger : String) :
    messages.foldl (fun acc message => acc.noteData level logger (.ofWide message))
      (s.withGoal t goal)
      = (messages.foldl (fun acc message => acc.noteData level logger (.ofWide message)) s).withGoal
        t goal := by
  induction messages generalizing s with
  | nil => rfl
  | cons message rest ih => exact ih (s.noteData level logger (.ofWide message))

theorem register_withGoal (r : RegistryId) (config : LanguageConfig) :
    (s.withGoal t goal).register r config = (s.register r config).withGoal t goal := by
  rw [register, register, replaceEarlier_withGoal, registry_withGoal, modifyRegistry_withGoal,
    noteAll_withGoal, note_withGoal]

theorem readTable_withGoal (path : FilePath) :
    (s.withGoal t goal).readTable path = runWithGoal t goal (s.readTable path) := by
  have htext : (s.withGoal t goal).configText path = s.configText path := rfl
  rw [readTable, readTable, htext]
  split
  · rfl
  · split <;> rfl

theorem loadTable_withGoal (r : RegistryId) (path : FilePath) :
    (s.withGoal t goal).loadTable r path = runWithGoal t goal (s.loadTable r path) := by
  rw [loadTable, loadTable, registry_withGoal, readTable_withGoal]
  split
  · rfl
  · rcases s.readTable path with ⟨s₁, _ | _⟩ <;> rfl

theorem registerAll_withGoal (r : RegistryId) (configs : List LanguageConfig) :
    configs.foldl (fun acc config => acc.register r config) (s.withGoal t goal)
      = (configs.foldl (fun acc config => acc.register r config) s).withGoal t goal := by
  induction configs generalizing s with
  | nil => rfl
  | cons config rest ih =>
    rw [List.foldl_cons, register_withGoal]
    exact ih (s.register r config)

/-- Making a registry takes the same course, table and all. -/
theorem newRegistry_withGoal (settings : Settings) (collector : CollectorId) (withTable : Bool) :
    (s.withGoal t goal).newRegistry settings collector withTable
      = runWithGoal t goal (s.newRegistry settings collector withTable) := by
  cases withTable with
  | false => rfl
  | true =>
    -- the registry is added first, and the service with it is the one whose table is loaded
    have hloaded :
        ({ s.withGoal t goal with
            registries := (s.withGoal t goal).registries.push { settings, collector } } :
          Service).loadTable (s.withGoal t goal).registries.size
          (settings.languagesPath.getD builtinPath)
        = runWithGoal t goal
          (({ s with registries := s.registries.push { settings, collector } } : Service).loadTable
            s.registries.size (settings.languagesPath.getD builtinPath)) :=
      loadTable_withGoal { s with registries := s.registries.push { settings, collector } } ..
    rw [newRegistry, newRegistry, hloaded]
    rcases ({ s with registries := s.registries.push { settings, collector } } : Service).loadTable
      s.registries.size (settings.languagesPath.getD builtinPath) with ⟨s₁, e | table⟩
    · rfl
    · exact Prod.ext (registerAll_withGoal ..) rfl

theorem disposeAll_withGoal (parsers : List ParserId) :
    parsers.foldl disposeParser (s.withGoal t goal) = (parsers.foldl disposeParser s).withGoal
      t goal := by
  induction parsers generalizing s with
  | nil => rfl
  | cons p rest ih =>
    rw [List.foldl_cons, disposeParser_withGoal]
    exact ih (s.disposeParser p)

theorem disposeRegistry_withGoal (r : RegistryId) :
    (s.withGoal t goal).disposeRegistry r = (s.disposeRegistry r).withGoal t goal := by
  rw [disposeRegistry, disposeRegistry, registry_withGoal]
  split
  · rfl
  · rw [disposeAll_withGoal, modifyRegistry_withGoal]

/-! ## Asking for parsers -/

theorem leaveGet_withGoal (r : RegistryId) (result : Except Fault (Option ParserId)) :
    (s.withGoal t goal).leaveGet r result = runWithGoal t goal (s.leaveGet r result) := by
  rw [leaveGet, release_withGoal]
  rfl

theorem failGet_withGoal (r : RegistryId) (config : LanguageConfig)
    (dispose : Service → Except Fault Service)
    (hdispose : ∀ s : Service, dispose (s.withGoal t goal) = (dispose s).map (withGoal · t goal))
    (fault : Fault) :
    (s.withGoal t goal).failGet r config dispose fault = runWithGoal t goal
      (s.failGet r config dispose fault) := by
  rw [failGet, failGet]
  dsimp only
  rw [write_withGoal, hdispose]
  split
  · exact leaveGet_withGoal ..
  · cases dispose (s.write (creationFailure config fault)) with
    | ok disposed => exact leaveGet_withGoal ..
    | error e => exact leaveGet_withGoal ..

theorem keepParser_withGoal (r : RegistryId) (config : LanguageConfig) (p : ParserId) :
    (s.withGoal t goal).keepParser r config p = runWithGoal t goal (s.keepParser r config p) := by
  have htime : ∀ registry language, (s.withGoal t goal).initializationTime registry language
    = s.initializationTime registry language := fun _ _ => rfl
  simp only [keepParser, registry_withGoal, parser?_withGoal, htime, modifyRegistry_withGoal,
    note_withGoal]
  split
  · split
    · exact leaveGet_withGoal (write _ _) ..
    · exact leaveGet_withGoal ..
  · exact leaveGet_withGoal ..

theorem getInitialized_withGoal (r : RegistryId) (entry : Registration) (p : ParserId)
    (run : Run InitPoint Unit) :
    (s.withGoal t goal).getInitialized r entry p run = runWithGoal t goal
      (s.getInitialized r entry p run) := by
  cases run with
  | waiting point wait => rfl
  | finished result =>
    cases result with
    | ok _ => exact keepParser_withGoal ..
    | error fault =>
      refine failGet_withGoal s t goal r entry.config (fun s => .ok (s.disposeParser p))
        (fun s => ?_) fault
      rw [disposeParser_withGoal]
      rfl

theorem buildParser_withGoal (g : Registry) (config : LanguageConfig) :
    (s.withGoal t goal).buildParser g config = runWithGoal t goal (s.buildParser g config) := by
  rw [buildParser, buildParser]
  split
  · rfl
  · split
    · rfl
    · rw [buildRegistry, buildRegistry, newRegistry_withGoal]
      rcases s.newRegistry g.settings g.collector true with ⟨s₁, _ | _⟩ <;> rfl
    · rfl

/-- Asking with the lock: the same parser is found, or the same one is built and begins the same
initialization. -/
theorem getLocked_withGoal (u : TaskId) (r : RegistryId) (language : String) :
    (s.withGoal t goal).getLocked u r language = runWithGoal t goal (s.getLocked u r language) := by
  have hkept : ∀ registry key, (s.withGoal t goal).keptParser? registry key
      = s.keptParser? registry key := fun _ _ => rfl
  rw [getLocked, getLocked, registry_withGoal]
  split
  · exact leaveGet_withGoal ..
  · dsimp only
    rw [hkept]
    split
    · exact leaveGet_withGoal ..
    · split
      · exact leaveGet_withGoal ..
      · rename_i g _ _ _ _ entry hentry
        rw [buildParser_withGoal]
        rcases s.buildParser g entry.config with ⟨s₁, fault | q⟩
        · -- what is done with the remains of a failed build does not touch tasks
          refine failGet_withGoal s₁ t goal r entry.config (disposeUnbuilt entry.config)
            (fun s => ?_) fault
          rw [disposeUnbuilt, disposeUnbuilt]
          split
          · split <;> rfl
          · rfl
        -- the parser is added and initialized, and no task is looked at for either
        · have hbegun := beginInit_withGoal (s₁.addParser { q with origin := some (r, entry) }).1
            t goal u s₁.parsers.size none
          change ((withGoal (s₁.addParser { q with origin := some (r, entry) }).1 t goal).beginInit
            u s₁.parsers.size
            none).1.getInitialized r entry s₁.parsers.size
              ((withGoal (s₁.addParser { q with origin := some (r, entry) }).1 t
            goal).beginInit u s₁.parsers.size none).2 = _
          rw [hbegun]
          exact getInitialized_withGoal ..

/-- **Asking a registry takes the same course.** -/
theorem beginGet_withGoal (u : TaskId) (r : RegistryId) (language : Option String) :
    (s.withGoal t goal).beginGet u r language = runWithGoal t goal (s.beginGet u r language) := by
  unfold beginGet
  rw [registry_withGoal, acquire_withGoal]
  split
  · split
    · rcases s.acquire (.registry r) u with ⟨s₁, _ | _⟩
      · rfl
      · exact getLocked_withGoal ..
    · rfl
  · rfl

theorem resumeGet_withGoal (u : TaskId) (r : RegistryId) (language : String) (point : GetPoint)
    (signal : Signal) :
    (s.withGoal t goal).resumeGet u r language point signal = runWithGoal t goal
      (s.resumeGet u r language point signal) := by
  cases point with
  | lock =>
    cases signal with
    | proceed => exact getLocked_withGoal ..
    | cancel => rfl
  | init entry p point =>
    rw [resumeGet, resumeGet, resumeInit_withGoal]
    exact getInitialized_withGoal ..

/-! ## Facades -/

theorem tellFault_withGoal {α : Type} (f : Facade) (request : ParseRequest) (work opening : String)
    (fault : Fault) :
    (s.withGoal t goal).tellFault (α := α) f request work opening fault
      = runWithGoal t goal (s.tellFault f request work opening fault) := by
  unfold tellFault
  split
  · rfl
  · split <;> rfl

theorem failFacade_withGoal (f : Facade) (request : ParseRequest) (fault : Fault) :
    (s.withGoal t goal).failFacade f request fault = runWithGoal t goal
      (s.failFacade f request fault) := by
  rw [failFacade, failFacade, tellFault_withGoal]
  rfl

theorem facadeParsed_withGoal (f : Facade) (request : ParseRequest) (p : ParserId)
    (run : Run ParsePoint (ParseResult SyntaxTree)) :
    (s.withGoal t goal).facadeParsed f request p run = runWithGoal t goal
      (s.facadeParsed f request p run) := by
  cases run with
  | waiting point wait => rfl
  | finished result =>
    cases result with
    | ok result => rfl
    | error fault => exact failFacade_withGoal ..

theorem facadeGot_withGoal (u : TaskId) (f : Facade) (request : ParseRequest)
    (run : Run GetPoint (Option ParserId)) :
    (s.withGoal t goal).facadeGot u f request run = runWithGoal t goal
      (s.facadeGot u f request run) := by
  cases run with
  | waiting point wait => rfl
  | finished result =>
    cases result with
    | error fault => exact failFacade_withGoal ..
    | ok found =>
      cases found with
      | none => rfl
      | some p =>
        rw [facadeGot, facadeGot, beginParse_withGoal]
        exact facadeParsed_withGoal ..

/-- **A parse through a facade takes the same course**: the goal is not an argument of it. -/
theorem beginFacadeParse_withGoal (u : TaskId) (f : Facade) (request : ParseRequest) :
    (s.withGoal t goal).beginFacadeParse u f request = runWithGoal t goal
      (s.beginFacadeParse u f request) := by
  rw [beginFacadeParse, beginFacadeParse]
  dsimp only
  rw [note_withGoal, beginGet_withGoal]
  split
  · rfl
  · exact facadeGot_withGoal ..

theorem resumeFacadeParse_withGoal (u : TaskId) (f : Facade) (request : ParseRequest)
    (point : FacadePoint) (signal : Signal) :
    (s.withGoal t goal).resumeFacadeParse u f request point signal
      = runWithGoal t goal (s.resumeFacadeParse u f request point signal) := by
  cases point with
  | get point =>
    rw [resumeFacadeParse, resumeFacadeParse, resumeGet_withGoal]
    exact facadeGot_withGoal ..
  | parse p point =>
    rw [resumeFacadeParse, resumeFacadeParse, resumeParse_withGoal]
    exact facadeParsed_withGoal ..

theorem declare_withGoal (f : Facade) (request : ParseRequest) (tree : SyntaxTree) :
    (s.withGoal t goal).declare f request tree = runWithGoal t goal (s.declare f request tree) := by
  have hnoted : (s.withGoal t goal).noteConverter tree = (s.noteConverter tree).withGoal
      t goal := by
    unfold noteConverter
    split
    · split <;> rfl
    · rfl
  rw [declare, declare, hnoted]
  split
  · rfl
  · exact tellFault_withGoal ..

theorem declarationsOf_withGoal (f : Facade) (request : ParseRequest)
    (result : ParseResult SyntaxTree) :
    (s.withGoal t goal).declarationsOf f request result = runWithGoal t goal
      (s.declarationsOf f request result) := by
  rw [declarationsOf, declarationsOf]
  split
  · rfl
  · split
    · exact declare_withGoal ..
    · exact tellFault_withGoal ..

theorem finishFacade_withGoal (f : Facade) (goal' : FacadeGoal) (request : ParseRequest)
    (result : Except Fault (ParseResult SyntaxTree)) :
    finishFacade f goal' request (s.withGoal t goal) result = runWithGoal t goal
      (finishFacade f goal' request s result) := by
  cases result with
  | error fault => rfl
  | ok parsed =>
    cases goal' with
    | tree => rfl
    | validity => rfl
    | errors => rfl
    | declarations =>
      rw [finishFacade, finishFacade, answerGoal, answerGoal, declarationsOf_withGoal]
      rfl

theorem finishScope_withGoal (p : ParserId) (body : Option Fault) (result : Except Fault Unit) :
    finishScope p body (s.withGoal t goal) result = runWithGoal t goal
      (finishScope p body s result) := by
  cases result with
  | error fault => rfl
  | ok _ =>
    change ((s.withGoal t goal).disposeParser p, _) = _
    rw [disposeParser_withGoal]
    rfl

/-! ## Steps -/

theorem settleRun_withGoal {π α : Type} {u : TaskId} (hu : u ≠ t) (frame : π → Frame)
    {finish : Service → Except Fault α → Service × Except Fault Outcome}
    (hfinish : ∀ s result, finish (withGoal s t goal) result = runWithGoal t goal (finish s result))
    (y : Service × Run π α) :
    settleRun u frame finish (runWithGoal t goal y) = (settleRun u frame finish y).withGoal
      t goal := by
  obtain ⟨s, run⟩ := y
  cases run with
  | waiting point wait => exact setTask_withGoal s t goal hu _
  | finished result =>
    rw [settleRun, settleRun]
    dsimp only [runWithGoal]
    rw [hfinish]
    exact setTask_withGoal _ t goal hu _

theorem start_withGoal {u : TaskId} (hu : u ≠ t) (call : Call) :
    (s.withGoal t goal).start u call = (s.start u call).withGoal t goal := by
  cases call with
  | init p event =>
    rw [start, start, beginInit_withGoal]
    exact settleRun_withGoal t goal hu _ (fun _ _ => rfl) _
  | parse p request =>
    rw [start, start, beginParse_withGoal]
    exact settleRun_withGoal t goal hu _ (fun _ _ => rfl) _
  | «scoped» p body =>
    rw [start, start, beginInit_withGoal]
    exact settleRun_withGoal t goal hu _ (fun s => finishScope_withGoal s t goal p body) _
  | getParser r language =>
    rw [start, start, beginGet_withGoal]
    exact settleRun_withGoal t goal hu _ (fun _ _ => rfl) _
  | facade f goal' request =>
    rw [start, start, beginFacadeParse_withGoal]
    exact settleRun_withGoal t goal hu _ (fun s => finishFacade_withGoal s t goal f goal' request) _

theorem resume_withGoal {u : TaskId} (hu : u ≠ t) (signal : Signal) (frame : Frame) :
    (s.withGoal t goal).resume u signal frame = (s.resume u signal frame).withGoal t goal := by
  cases frame with
  | init p event point =>
    rw [resume, resume, resumeInit_withGoal]
    exact settleRun_withGoal t goal hu _ (fun _ _ => rfl) _
  | parse p request point =>
    rw [resume, resume, resumeParse_withGoal]
    exact settleRun_withGoal t goal hu _ (fun _ _ => rfl) _
  | «scoped» p body point =>
    rw [resume, resume, resumeInit_withGoal]
    exact settleRun_withGoal t goal hu _ (fun s => finishScope_withGoal s t goal p body) _
  | getParser r language point =>
    rw [resume, resume, resumeGet_withGoal]
    exact settleRun_withGoal t goal hu _ (fun _ _ => rfl) _
  | facade f goal' request point =>
    rw [resume, resume, resumeFacadeParse_withGoal]
    exact settleRun_withGoal t goal hu _ (fun s => finishFacade_withGoal s t goal f goal' request) _

/-- **Other tasks take the same steps.** The cases are those of a step: what the task stands at
decides, and that is the same in both services. -/
theorem step_withGoal {u : TaskId} (hu : u ≠ t) :
    (s.withGoal t goal).step u = (s.step u).withGoal t goal := by
  -- it is another task that steps, so it is at the same point in both services
  have htask : (s.withGoal t goal).tasks[u]? = s.tasks[u]? := by
    rw [task_withGoal, if_neg (Ne.symm hu)]
  by_cases hready : u ∈ s.ready
  · have hready' : u ∈ (s.withGoal t goal).ready := hready
    cases hstatus : s.tasks[u]? with
    | none =>
      rw [step, step, if_neg (by simpa using hready'), if_neg (by simpa using hready)]
      simp only [hstatus, htask]
      rfl
    | some status =>
      rw [hstatus] at htask
      cases status with
      | fresh call cancelled =>
        cases cancelled with
        | true =>
          rw [step_of_cancelled hready hstatus, step_of_cancelled hready' htask]
          exact setTask_withGoal { s with ready := s.ready.erase u } t goal hu _
        | false =>
          rw [step_of_fresh hready hstatus, step_of_fresh hready' htask]
          exact start_withGoal { s with ready := s.ready.erase u } t goal hu call
      | waiting frame wait signal =>
        cases signal with
        | none =>
          rw [step_of_unsignalled hready hstatus, step_of_unsignalled hready' htask]
          rfl
        | some signal =>
          rw [step_of_waiting hready hstatus, step_of_waiting hready' htask]
          have hended := endWait_withGoal { s with ready := s.ready.erase u } t goal u wait signal
          exact (congrArg (resume · u signal frame) hended).trans
            (resume_withGoal _ t goal hu signal frame)
      | finished result =>
        rw [step, step, if_neg (by simpa using hready'), if_neg (by simpa using hready)]
        simp only [hstatus, htask]
        rfl
  · have hready' : u ∉ (s.withGoal t goal).ready := hready
    rw [step_of_not_ready hready, step_of_not_ready hready']

/-! ## Actions -/

theorem wakeAll_withGoal (entries : List (String × TaskId)) :
    entries.foldl (fun acc entry => acc.wake entry.2 .proceed) (s.withGoal t goal)
      = (entries.foldl (fun acc entry => acc.wake entry.2 .proceed) s).withGoal t goal := by
  induction entries generalizing s with
  | nil => rfl
  | cons entry rest ih =>
    rw [List.foldl_cons, wake_withGoal]
    exact ih (s.wake entry.2 .proceed)

theorem spawn_withGoal (ht : t < s.tasks.size) (call : Call) :
    (s.withGoal t goal).spawn call = runWithGoal t goal (s.spawn call) := by
  have hsize : (s.withGoal t goal).tasks.size = s.tasks.size := Array.size_modify
  have htasks : (s.withGoal t goal).tasks.push (.fresh call false)
      = (s.tasks.push (.fresh call false)).modify t (TaskStatus.withGoal goal) := by
    -- the new task stands behind all others, so it is not the one whose goal differs
    refine Array.ext_getElem? fun i => ?_
    rw [Array.getElem?_push, hsize, task_withGoal, Array.getElem?_modify, Array.getElem?_push]
    by_cases hi : i = s.tasks.size
    · rw [if_pos hi, if_pos hi, if_neg fun h => Nat.ne_of_lt ht (h.trans hi)]
    · rw [if_neg hi, if_neg hi]
  rw [spawn, spawn, htasks, hsize]
  rfl

theorem cancel_withGoal (u : TaskId) :
    (s.withGoal t goal).cancel u = (s.cancel u).withGoal t goal := by
  by_cases hu : u = t
  · -- a cancellation marks the status or wakes the task, and looks at the call in neither case
    subst hu
    rw [cancel, cancel, task_withGoal, if_pos rfl]
    cases s.tasks[u]? with
    | none => rfl
    | some status =>
      cases status with
      | fresh call cancelled => exact setTask_withGoal_self s u goal (.fresh call true)
      | finished result => rfl
      | waiting frame wait signal =>
        cases signal with
        | none =>
          cases wait with
          | lock id => exact wake_withGoal (s.setLock id _) ..
          | gate name => exact wake_withGoal ..
          | worker => exact wake_withGoal ..
        | some signal =>
          cases signal with
          | proceed => exact setTask_withGoal_self s u goal (.waiting frame wait (some .cancel))
          | cancel => rfl
  · rw [cancel, cancel, task_withGoal, if_neg fun h => hu h.symm]
    split
    · exact setTask_withGoal s t goal hu _
    · rename_i wait _
      cases wait with
      | lock id => exact wake_withGoal (s.setLock id _) ..
      | gate name => exact wake_withGoal ..
      | worker => exact wake_withGoal ..
    · exact setTask_withGoal s t goal hu _
    · rfl

/-- **Whatever else happens goes the same way.** The one action that is left out is the step of the
task itself, which may be its last. -/
theorem act_withGoal (ht : t < s.tasks.size) {a : Service.Action} (ha : a ≠ .step t) :
    (s.withGoal t goal).act a = (s.act a).withGoal t goal := by
  cases a with
  | addCollector => rfl
  | addParser blueprint collector =>
    rw [act, act]
    split <;> rfl
  | setEngine p engine => rfl
  | disposeParser p => exact disposeParser_withGoal ..
  | newRegistry settings collector withTable => exact congrArg Prod.fst (newRegistry_withGoal ..)
  | loadTable r path => exact congrArg Prod.fst (loadTable_withGoal ..)
  | register r config => exact register_withGoal ..
  | unregister r language => exact congrArg Prod.fst (unregister_withGoal ..)
  | disposeRegistry r => exact disposeRegistry_withGoal ..
  -- a new task comes after `t`, and is given the same place
  | spawn call =>
    have hoffers : (s.withGoal t goal).offers = s.offers := rfl
    rw [act, act, hoffers, spawn_withGoal s t goal ht]
    split <;> rfl
  | step u => exact step_withGoal s t goal fun hu => ha (hu ▸ rfl)
  | cancel u => exact cancel_withGoal ..
  | finishWork u =>
    have hworkers : (s.withGoal t goal).atWorkers = s.atWorkers := rfl
    rw [act, act, finishWork, finishWork, hworkers]
    split
    · exact wake_withGoal { s with atWorkers := s.atWorkers.erase u } ..
    · rfl
  | openGate name =>
    exact wakeAll_withGoal
      { s with openGates := if s.openGates.contains name then s.openGates else name :: s.openGates }
      t goal (s.atGates.filter (·.1 = name))
  | closeGate name => rfl
  | setEvent event => rfl
  | clearEvent event => rfl
  | setNative reply => rfl
  | setElapsed elapsed => rfl
  | writeConfig path text =>
    have hfolder : (s.withGoal t goal).folder = s.folder := rfl
    rw [act, act, writeConfig, writeConfig, hfolder]
    cases s.folder.write path text with
    | ok folder => rfl
    | error e => rfl

end Service

end SyntaxForest
