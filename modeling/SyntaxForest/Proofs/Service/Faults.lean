import SyntaxForest.Proofs.Service.Steps

/-!
# What calls come to

What the task of a call reports when a step ends it, and which faults can be among it. A fault of
transition says that a parser cannot move to a stage; callers should never see one that the engine
did not raise itself.

* **`TaskStatus.call?`**, **`result_of_step`** — the call that a task is busy with, and the step
  that ends it.
* **`beginInit_fault`**, **`resumeInit_fault`** — faults of an initialization come from a
  cancellation, a disposal or the engine, unless the parser was left in the middle of an
  initialization.
* **`beginParse_clean`**, **`resumeParse_clean`** — a parse reports no fault of transition.
-/

namespace SyntaxForest

/-- The call that a waiting task is busy with. -/
def Frame.call : Frame → Call
  | .init p event _ => .init p event
  | .parse p request _ => .parse p request
  | .scoped p body _ => .scoped p body
  | .getParser r language _ => .getParser r (some language)
  | .facade f goal request _ => .facade f goal request

/-- The call that a task is busy with, if it has not ended. -/
def TaskStatus.call? : TaskStatus → Option Call
  | .fresh call _ => some call
  | .waiting frame _ _ => some frame.call
  | .finished _ => none

namespace Fault

/-- The fault is not passed on to the caller and cannot be told them by its message either. -/
def isUntold (passes : Fault → Bool) (e : Fault) : Bool := !passes e && !e.isWritable

/-- The fault reaches a caller who is not used to it, as it is or by way of the fault of writing
it. -/
def strays (passes : Fault → Bool) (e : Fault) : Bool := e.isInterruption || e.isUntold passes

theorem isCancelled_of_not_isFailure {e : Fault} (h : e.isFailure = false)
    (hstays : e.isInterruption = false) :
    e.isCancelled = true := by
  cases e with
  | raised kind details => cases kind <;> simp_all [isFailure, isInterruption, isCancelled]
  | _ => cases h

theorem isFailure_of_isInterruption {e : Fault} (h : e.isInterruption = true) :
    e.isFailure = false := by
  cases e with
  | raised kind details => cases kind <;> first | rfl | cases h
  | _ => cases h

theorem of_isInterruption {e : Fault} (h : e.isInterruption = true) :
    e.isDisposed = false ∧ e.isOutOfMemory = false ∧ e.isCancelled = false := by
  cases e with
  | raised kind details => cases kind <;> first | exact ⟨rfl, rfl, rfl⟩ | cases h
  | _ => cases h

end Fault

/-- A fault that carries the least number with too many digits. -/
def unwritableFault : Fault := .raised .badValue [.nat (Nat.pow 10 Datum.digitLimit)]

/-- The word for the fault that a call has raised, if it has raised one. -/
def raisedKind? : Except Fault Outcome → Option String
  | .error e => some e.kindName
  | .ok _ => none

/-- The fault says that a parser cannot move to a stage. -/
def Fault.isTransition : Fault → Bool
  | .raised .badTransition _ => true
  | _ => false

theorem Fault.not_escapes_of_transition {e : Fault} (h : e.isTransition = true) :
    Service.escapes e = false := by
  cases e with
  | raised kind details => cases kind <;> first | rfl | cases h
  | _ => cases h

theorem Fault.not_transition_of_escapes {e : Fault} (h : Service.escapes e = true) :
    e.isTransition = false :=
  Bool.eq_false_iff.mpr fun htransition => by
    rw [not_escapes_of_transition htransition] at h
    cases h

theorem Fault.not_transition_of_written {e unwritten : Fault} (h : e.written = .error unwritten) :
    unwritten.isTransition = false := by
  rw [written] at h
  split at h
  · cases h
  · cases h
    rfl

theorem Parser.LoadFault.load_of_transition {q : Parser} {e : Fault} (h : q.LoadFault e)
    (htransition : e.isTransition = true) : q.engine.load = .error e := by
  rcases h with rfl | rfl | hload
  · cases htransition
  · cases htransition
  · exact hload

theorem Parser.LoadFault.load_of_strays {q : Parser} {e : Fault} (h : q.LoadFault e)
    (hstrays : e.strays Service.escapes = true) : q.engine.load = .error e := by
  rcases h with rfl | rfl | hload
  · cases hstrays
  · cases hstrays
  · exact hload

namespace Service

variable {t : TaskId} {s : Service} {p : ParserId} {q : Parser} {event : Option String} {e : Fault}
  {wait : Wait} {signal : Signal} {call : Call}

/-! ## The end of a call -/

theorem task_setTask (h : t < s.tasks.size) (status : TaskStatus) :
    (s.setTask t status).tasks[t]? = some status := by
  rw [setTask, Array.getElem?_modify, if_pos rfl, Array.getElem?_eq_getElem h]
  rfl

theorem status_of_setTask {status status' : TaskStatus}
    (h : (s.setTask t status).tasks[t]? = some status') : status' = status := by
  rw [setTask, Array.getElem?_modify, if_pos rfl, Option.map_eq_some_iff] at h
  obtain ⟨-, -, heq⟩ := h
  exact heq.symm

theorem result?_setTask {status : TaskStatus} {r : Except Fault Outcome}
    (h : (s.setTask t status).result? t = some r) : status = .finished r := by
  rw [result?, setTask, Array.getElem?_modify, if_pos rfl] at h
  cases ht : s.tasks[t]? with
  | none =>
    rw [ht] at h
    cases h
  | some old =>
    rw [ht, Option.map_some] at h
    cases status with
    | fresh call cancelled => cases h
    | waiting frame wait signal => cases h
    | finished result =>
      cases h
      rfl

theorem result?_settleRun {π α : Type} {frame : π → Frame}
    {finish : Service → Except Fault α → Service × Except Fault Outcome} {y : Service × Run π α}
    {r : Except Fault Outcome} (h : (settleRun t frame finish y).result? t = some r) :
    ∃ result, y.2 = .finished result ∧ (finish y.1 result).2 = r
      ∧ settleRun t frame finish y = (finish y.1 result).1.setTask t (.finished r) := by
  obtain ⟨s, run⟩ := y
  cases run with
  | waiting point wait => cases result?_setTask h
  | finished result =>
    cases result?_setTask h
    exact ⟨result, rfl, rfl, rfl⟩

theorem result?_settle {π α : Type} {frame : π → Frame}
    {finish : Service → Except Fault α → Service × Except Fault Outcome}
    {result : Except Fault α} (h : t < (finish s result).1.tasks.size) :
    (settleRun t frame finish (s, .finished result)).result? t = some (finish s result).2 := by
  change ((finish s result).1.setTask t (.finished (finish s result).2)).result? t = _
  rw [result?, setTask, Array.getElem?_modify, if_pos rfl, Array.getElem?_eq_getElem h]
  rfl

/-- **The call ends with what is made of its run**, if the task is there at all. -/
theorem result?_settleRun_iff {π α : Type} {frame : π → Frame}
    {finish : Service → Except Fault α → Service × Except Fault Outcome} {y : Service × Run π α}
    {last : TaskStatus} (hlast : (settleRun t frame finish y).tasks[t]? = some last)
    {outcome : Except Fault Outcome} :
    (settleRun t frame finish y).result? t = some outcome
      ↔ ∃ result, y.2 = .finished result ∧ (finish y.1 result).2 = outcome := by
  rw [result?, hlast]
  obtain ⟨s₁, run⟩ := y
  cases run with
  | waiting point wait =>
    rw [status_of_setTask hlast]
    simp
  | finished result =>
    rw [status_of_setTask hlast]
    simp

theorem result?_finishParse_iff {request : ParseRequest}
    {y : Service × Run ParsePoint (ParseResult SyntaxTree)} {last : TaskStatus}
    (hlast : (settleRun t (.parse p request) finishParse y).tasks[t]? = some last)
    {outcome : Except Fault Outcome} :
    (settleRun t (.parse p request) finishParse y).result? t = some outcome
      ↔ ∃ result, y.2 = .finished result ∧ outcome = result.map .parsed := by
  simp only [result?_settleRun_iff hlast, finishParse, eq_comm]

theorem step_of_waiting {frame : Frame}
    (hready : t ∈ s.ready) (ht : s.tasks[t]? = some (.waiting frame wait (some signal))) :
    s.step t = (({ s with ready := s.ready.erase t } : Service).endWait t wait signal).resume
      t signal frame := by
  rw [step, if_neg (by simpa using hready)]
  simp only [ht]

theorem step_of_not_ready (h : t ∉ s.ready) : s.step t = s := by
  rw [step, if_pos (by simpa using h)]

theorem step_of_finished {result : Except Fault Outcome}
    (ht : s.tasks[t]? = some (.finished result)) :
    (s.step t).tasks[t]? = some (.finished result) := by
  rw [step]
  split
  · exact ht
  · simp only [ht]

theorem step_of_cancelled (hready : t ∈ s.ready) (ht : s.tasks[t]? = some (.fresh call true)) :
    s.step t = ({ s with ready := s.ready.erase t } : Service).setTask t
      (.finished (.error .cancelled)) := by
  rw [step, if_neg (by simpa using hready)]
  simp only [ht]

theorem step_of_unsignalled {frame : Frame} (hready : t ∈ s.ready)
    (ht : s.tasks[t]? = some (.waiting frame wait none)) :
    s.step t = { s with ready := s.ready.erase t } := by
  rw [step, if_neg (by simpa using hready)]
  simp only [ht]

theorem step_of_fresh (hready : t ∈ s.ready) (ht : s.tasks[t]? = some (.fresh call false)) :
    s.step t = ({ s with ready := s.ready.erase t } : Service).start t call := by
  rw [step, if_neg (by simpa using hready)]
  simp only [ht]

/-- **The step that ends a call** cancels it before it begins, begins it or goes on with it. A step
that does none of these leaves the task as it was, without a result. -/
theorem result_of_step {status : TaskStatus} {r : Except Fault Outcome}
    (ht : s.tasks[t]? = some status) (hcall : status.call? = some call)
    (h : (s.step t).result? t = some r) :
    r = .error .cancelled
      ∨ (status = .fresh call false
        ∧ s.step t = ({ s with ready := s.ready.erase t } : Service).start t call)
      ∨ ∃ frame wait signal, status = .waiting frame wait (some signal) ∧ frame.call = call
        ∧ s.step t = (({ s with ready := s.ready.erase t } : Service).endWait t
          wait signal).resume t
            signal frame := by
  -- a service with the tasks of `s` has no result of this task, whose call has not ended
  have hopen : ∀ s' : Service, s'.tasks = s.tasks → s'.result? t = none := fun s' htasks => by
    rw [result?, htasks, ht]
    cases status with
    | fresh call cancelled => rfl
    | waiting frame wait signal => rfl
    | finished result => cases hcall
  rw [step] at h ⊢
  split at h
  · rw [hopen s rfl] at h
    cases h
  · rename_i hready
    rw [if_neg hready]
    simp only [ht] at h ⊢
    cases status with
    | finished result => cases hcall
    | fresh call' cancelled =>
      cases hcall
      cases cancelled with
      | true =>
        cases result?_setTask h
        exact Or.inl rfl
      | false => exact Or.inr (Or.inl ⟨rfl, rfl⟩)
    | waiting frame wait signal =>
      cases signal with
      | none =>
        have herased := hopen { s with ready := s.ready.erase t } rfl
        cases herased.symm.trans h
      | some signal =>
        cases hcall
        exact Or.inr (Or.inr ⟨frame, wait, signal, rfl, rfl, rfl⟩)

/-! ## Faults of an initialization -/

theorem beginInit_fault (hp : s.parser? p = some q)
    (h : (s.beginInit t p event).2 = .finished (.error e)) :
    q.LoadFault e ∨ (q.stage = .initializing ∧ (s.lock (.lifecycle p)).held = false) := by
  rcases acquire_cases s (.lifecycle p) t with ⟨hfree, -⟩ | ⟨-, heq⟩
  · refine ((beginInit_ends hp event).fault e h).imp_right fun hstage => ⟨hstage, ?_⟩
    rw [Lock.isFree, Bool.and_eq_true, Bool.not_eq_true'] at hfree
    exact hfree.1
  · rw [beginInit, hp] at h
    simp only [heq] at h
    split at h
    · cases h
      exact Or.inl (Or.inr (Or.inl rfl))
    · split at h <;> cases h

theorem resumeInit_fault (hp : s.parser? p = some q)
    {point : InitPoint} (hload : point = .load → q.stage = .initializing ∨ q.stage = .disposed)
    (h : (s.resumeInit t p event point signal).2 = .finished (.error e)) :
    q.LoadFault e ∨ (q.stage = .initializing ∧ point = .lock ∧ signal = .proceed) := by
  cases point with
  | lock =>
    cases signal with
    | proceed =>
      exact ((initLocked_ends hp event).fault e h).imp_right fun hstage => ⟨hstage, rfl, rfl⟩
    | cancel =>
      cases h
      exact Or.inl (Or.inl rfl)
  | load => exact Or.inl (endLoad_fault hp (hload rfl) h)

/-- The fault of an initialization that was left in the middle can be told. -/
theorem initLocked_told (hp : s.parser? p = some q) (hstage : q.stage = .initializing)
    (h : (s.initLocked t p event).2 = .finished (.error e)) : e.strays escapes = false := by
  have hmove : q.moveTo .initializing = .error (.ofText .badTransition
      (q.name ++ " cannot move from " ++ q.stage.name ++ " to " ++ Stage.initializing.name)) := by
    rw [Parser.moveTo, hstage]
    rfl
  rw [initLocked, hp] at h
  dsimp only at h
  split at h
  · cases h
    rfl
  · split at h
    · cases h
    · split at h
      · cases h
        rfl
      · rw [moveParser, hp] at h
        simp only [hmove] at h
        cases h
        rfl

/-- **A fault that strays out of an initialization that begins** comes from the load. -/
theorem load_of_beginInit_strays (hp : s.parser? p = some q)
    (h : (s.beginInit t p event).2 = .finished (.error e)) (hstrays : e.strays escapes = true) :
    q.engine.load = .error e := by
  rcases beginInit_fault hp h with hload | ⟨hstage, -⟩
  · exact hload.load_of_strays hstrays
  · -- the parser was left in the middle of an initialization, and its lock is free
    rw [beginInit, hp] at h
    simp only [Parser.isDisposed, Parser.isInitialized, hstage] at h
    rcases acquire_cases s (.lifecycle p) t with ⟨-, heq⟩ | ⟨-, heq⟩
    · rw [heq] at h
      have htold := initLocked_told (s := s.setLock (.lifecycle p) (s.lock (.lifecycle p)).take)
        hp hstage h
      rw [htold] at hstrays
      cases hstrays
    · rw [heq] at h
      cases h

/-- **A fault that strays out of an initialization that goes on** comes from the load. -/
theorem load_of_resumeInit_strays (hp : s.parser? p = some q) {point : InitPoint}
    (hload : point = .load → q.stage = .initializing ∨ q.stage = .disposed)
    (h : (s.resumeInit t p event point signal).2 = .finished (.error e))
    (hstrays : e.strays escapes = true) :
    q.engine.load = .error e := by
  rcases resumeInit_fault hp hload h with hload | ⟨hstage, rfl, rfl⟩
  · exact hload.load_of_strays hstrays
  · rw [initLocked_told hp hstage h] at hstrays
    cases hstrays

/-! ## Faults of a parse -/

/-- The run reports no fault of transition. -/
def Clean {π α : Type} (run : Run π α) : Prop :=
  ∀ e, run = .finished (.error e) → e.isTransition = false

theorem failEngine_clean (s : Service) (q : Parser) (request : ParseRequest) (fault : Fault) :
    Clean (s.failEngine q request fault).2 := by
  intro e h
  rw [failEngine] at h
  split at h
  · rename_i hescapes
    cases h
    exact Fault.not_transition_of_escapes hescapes
  · dsimp only at h
    split at h
    · rename_i hwritten
      cases h
      exact Fault.not_transition_of_written hwritten
    · cases h

theorem finishEngine_clean (s : Service) (q : Parser) (request : ParseRequest) (forest : Forest) :
    Clean (s.finishEngine q request forest).2 := by
  intro e h
  rw [finishEngine] at h
  split at h
  · cases h
    rfl
  · dsimp only at h
    split at h
    · rename_i error _
      cases h
      cases error <;> rfl
    · cases h

theorem endEngine_clean (s : Service) (p : ParserId) (q : Parser) (request : ParseRequest)
    (result : Except Fault Forest) : Clean (s.endEngine p q request result).2 := by
  cases result with
  | error fault => exact failEngine_clean _ q request fault
  | ok forest => exact finishEngine_clean _ q request forest

theorem parseLocked_clean (s : Service) (p : ParserId) (request : ParseRequest) :
    Clean (s.parseLocked t p request).2 := by
  intro e h
  rw [parseLocked] at h
  split at h
  · cases h
    rfl
  · split at h
    · cases h
      rfl
    · dsimp only at h
      split at h
      · exact endEngine_clean _ p _ request _ e h
      · split at h
        · cases h
        · exact endEngine_clean _ p _ request _ e h

theorem parseReady_clean (s : Service) (p : ParserId) (request : ParseRequest) :
    Clean (s.parseReady t p request).2 := by
  intro e h
  rw [parseReady] at h
  split at h
  · cases h
    rfl
  · split at h
    · exact parseLocked_clean _ p request e h
    · cases h

/-- A fault of the initialization becomes a failed result, unless it passes every parse by; and
those that pass are not of transition. -/
theorem parseInitialized_clean (hp : s.parser? p = some q)
    (request : ParseRequest) (run : Run InitPoint Unit) :
    Clean (s.parseInitialized t p request run).2 := by
  intro e h
  cases run with
  | waiting point wait => cases h
  | finished result =>
    cases result with
    | ok _ => exact parseReady_clean s p request e h
    | error fault =>
      rw [parseInitialized, hp] at h
      split at h
      · rename_i hescapes
        cases h
        exact Fault.not_transition_of_escapes hescapes
      · dsimp only at h
        -- a fault of transition is told in a failed result, or the attempt to write it raises
        -- another
        cases hwritten : fault.written with
        | ok text =>
          rw [hwritten] at h
          cases h
        | error unwritten =>
          rw [hwritten] at h
          cases h
          exact Fault.not_transition_of_written hwritten

/-- **A parse that begins reports no fault of transition.** -/
theorem beginParse_clean (hoffers : s.offers p = true)
    (hp : s.parser? p = some q) (hanswer : q.engine.answer = none) (request : ParseRequest) :
    Clean (s.beginParse t p request).2 := by
  intro e h
  rw [beginParse, hp] at h
  simp only [hanswer] at h
  split at h
  · cases h
    rfl
  · split at h
    · cases h
    · split at h
      · exact parseReady_clean s p request e h
      · obtain ⟨q', hq', -⟩ :=
          (beginInit_moves (t := t) hp request.event (D := []) (Or.inl hoffers)).later p q hp
        exact parseInitialized_clean hq' request _ e h

/-- **A parse that goes on reports no fault of transition.** -/
theorem resumeParse_clean (hoffers : s.offers p = true)
    (hp : s.parser? p = some q) {point : ParsePoint} (hfits : point.Fits p wait)
    (hload : point = .init .load → q.stage = .initializing ∨ q.stage = .disposed)
    (request : ParseRequest) (signal : Signal) :
    Clean (s.resumeParse t p request point signal).2 := by
  intro e h
  cases point with
  | init point =>
    obtain ⟨q', hq', -⟩ := (resumeInit_moves (t := t) hp hfits (fun hpoint => hload (hpoint ▸ rfl))
      request.event signal (D := []) (Or.inl hoffers)).later p q hp
    exact parseInitialized_clean hq' request _ e h
  | lock =>
    cases signal with
    | proceed => exact parseLocked_clean s p request e h
    | cancel =>
      cases h
      rfl
  | engine =>
    rw [resumeParse, hp] at h
    exact endEngine_clean s p q request _ e h

end Service

end SyntaxForest
