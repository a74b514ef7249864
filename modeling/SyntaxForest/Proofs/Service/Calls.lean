import SyntaxForest.Proofs.Service.Registering

/-!
# Calls as sequences of moves

What a call does between two waits is a sequence of moves (`Move`). Each part of a call is taken
apart once, here; what the moves keep, the calls keep.

* **`Run.footing`** — where a task stands when a run of its call is over: at the point where it
  waits, or with the duties that it had.
* **`endLoad_eq`** — how a load ends: the parser settles, then the lock is let go.
* **`initLocked_moves`**, **`parseLocked_runs`** and their like — one lemma for each part of a call.
* **`InitEnds`** — what an initialization reports, and in which stage it leaves the parser.
-/

namespace SyntaxForest

/-- Where a task stands when a run is over that began with the duties `D`. -/
def Run.footing {π α : Type} (duties : π → List Duty) (D : List Duty) : Run π α → Footing
  | .waiting point wait => ⟨duties point ++ D, some (wait, none)⟩
  | .finished _ => ⟨D, none⟩

/-! ## Points and what is waited for at them -/

/-- What an initialization waits for: its lock, or the load, which is at a gate or with a worker. -/
def InitPoint.Fits (p : ParserId) : InitPoint → Wait → Prop
  | .lock, wait => wait = .lock (.lifecycle p)
  | .load, wait => ∀ id, wait ≠ .lock id

/-- What a parse waits for. Its own lock is the one of the engine; the lock of the life cycle
belongs to the initialization that it may begin. -/
def ParsePoint.Fits (p : ParserId) : ParsePoint → Wait → Prop
  | .init point, wait => point.Fits p wait
  | .lock, wait => wait = .lock (.parsing p)
  | .engine, wait => ∀ id, wait ≠ .lock id

/-- Nobody else knows a parser that is being built, so its lock is free and the load is all there is
to wait for. -/
def GetPoint.Fits (r : RegistryId) (language : String) : GetPoint → Wait → Prop
  | .lock, wait => wait = .lock (.registry r)
  | .init entry p point, wait =>
    point = .load ∧ point.Fits p wait ∧ entry.config.key = Text.caseFold language

/-- A call through a facade waits as asking for the parser does, or as the parse does. -/
def FacadePoint.Fits (f : Facade) : FacadePoint → Wait → Prop
  | .get point, wait => point.Fits f.registry f.language wait
  | .parse p point, wait => point.Fits p wait

/-- The point at which a call stands and what its task waits for belong together. This is an
invariant of waiting tasks, and what makes the cases that cannot occur go away when a task goes
on. -/
def Frame.Fits : Frame → Wait → Prop
  | .init p _ point, wait => point.Fits p wait
  | .parse p _ point, wait => point.Fits p wait
  | .scoped p _ point, wait => point.Fits p wait
  | .getParser r language point, wait => point.Fits r language wait
  | .facade f _ _ point, wait => point.Fits f wait

/-- The fault comes from a cancellation, from a disposal or from the engine. -/
def Parser.LoadFault (q : Parser) (e : Fault) : Prop :=
  e = .cancelled ∨ e = q.disposedFault ∨ q.engine.load = .error e

namespace Service

variable {t : TaskId} {s : Service} {p : ParserId} {q : Parser} {wait : Wait}
  {event : Option String} {point : InitPoint} {e : Fault} {D : List Duty}

/-! ## Waiting -/

theorem pauseAt_cases (s : Service) (t : TaskId) (pause : Pause) :
    s.pauseAt t pause = (s, none)
      ∨ ∃ s' wait, s.pauseAt t pause = (s', some wait) ∧ (∀ id, wait ≠ .lock id)
          ∧ ∀ D, Move t (s, ⟨D, none⟩) (s', ⟨D, some (wait, none)⟩) := by
  cases pause with
  | none => exact Or.inl rfl
  | gate name =>
    rw [pauseAt]
    split
    · exact Or.inl rfl
    · exact Or.inr ⟨_, _, rfl, by simp, fun D => .gate⟩
  | worker => exact Or.inr ⟨_, _, rfl, by simp, fun D => .work⟩

@[simp] theorem parser?_release (s : Service) (id : LockId) (p : ParserId) :
    (s.release id).parser? p = s.parser? p := by
  rw [parser?, parser?, release, parsers_setLockAndWake]

@[simp] theorem parser?_endWait (s : Service) (t : TaskId) (wait : Wait) (signal : Signal)
    (p : ParserId) :
    (s.endWait t wait signal).parser? p = s.parser? p := by
  rw [parser?, parser?, parsers_endWait]

/-! ## The end of a load -/

/-- What the initialization comes to when the load has ended. -/
def loadOutcome (s : Service) (q : Parser) (event : Option String) (result : Except Fault Unit) :
    Except Fault Unit :=
  match result with
  | .error fault => .error fault
  | .ok () =>
    if q.isDisposed then .error q.disposedFault
    else if s.isSet event then .error .cancelled
    else .ok ()

/-- A load that failed leads the parser back to its first stage and lets go of the lock. After lack
of memory the parser stays in the middle of its load; one that was disposed of stays disposed of. -/
theorem failLoad_eq {q q' : Parser} (hp : s.parser? p = some q')
    (hstage : q'.stage = q.stage) (fault : Fault) :
    ∃ s', s.failLoad p q fault = s'.leaveInit p (.error fault)
      ∧ Quiet (s.modifyParser p fun q =>
          if !fault.isOutOfMemory && q.stage = .initializing then { q with stage := .uninitialized }
          else q) s' := by
  rw [failLoad]
  by_cases hmemory : fault.isOutOfMemory = true
  · refine ⟨s, by rw [if_pos hmemory], ?_⟩
    rw [modifyParser_eq_self fun q _ => by simp [hmemory]]
    exact .refl s
  · rw [if_neg hmemory]
    have hlog : ∀ back : Service, Quiet back (if fault.isFailure then
        back.write (q.logRecord (.failure
          (.text ("Failed to initialize " ++ q.language ++ " parser")) fault
          [("language", .text q.language)])) else back) := fun back => by
      split
      · exact .write _ _
      · exact .refl back
    refine ⟨_, rfl, Quiet.trans ?_ (hlog _)⟩
    by_cases hinit : q.stage = .initializing
    -- the parser is still loading, and from there it may go back
    · have hmay : q'.stage.successors.contains .uninitialized = true := by rw [hstage, hinit]; rfl
      simp only [hinit, if_true, moveParser_ok hp hmay]
      rw [modifyParser_congr hp (g := ({ · with stage := .uninitialized }))
        (by simp [hmemory, hstage, hinit])]
      exact .write _ _
    -- it was disposed of meanwhile, so there is no stage to go back to
    · simp only [hinit, if_false]
      rw [modifyParser_eq_self fun q'' hq'' => by
        rw [hp, Option.some.injEq] at hq''
        subst hq''
        simp [hstage, hinit]]
      exact .refl s

/-- A load that succeeded makes the parser initialized. If it was disposed of meanwhile the grammar
is let go at once. -/
theorem finishLoad_eq {q q' : Parser} (hp : s.parser? p = some q')
    (hstage : q'.stage = q.stage) (hq : q.stage = .initializing ∨ q.stage = .disposed)
    (event : Option String) :
    ∃ s', s.finishLoad p q event = s'.leaveInit p (s.loadOutcome q event (.ok ()))
      ∧ Quiet (s.modifyParser p fun q =>
          if q.isDisposed then q.releaseEngine else { q with stage := .initialized }) s' := by
  rw [finishLoad, loadOutcome]
  rcases hq with hinit | hdisposed
  · have hnot : ¬(q.isDisposed = true) := by simp [Parser.isDisposed, hinit]
    have hmay : q'.stage.successors.contains .initialized = true := by rw [hstage, hinit]; rfl
    rw [if_neg hnot, if_neg hnot, moveParser_ok hp hmay]
    refine ⟨_, rfl, ?_⟩
    rw [modifyParser_congr hp (g := ({ · with stage := .initialized }))
      (by simp [Parser.isDisposed, hstage, hinit])]
    exact (Quiet.write _ _).trans (.write _ _)
  · have hyes : q.isDisposed = true := decide_eq_true hdisposed
    rw [if_pos hyes, if_pos hyes]
    refine ⟨_, rfl, ?_⟩
    rw [modifyParser_congr hp (g := Parser.releaseEngine)
      (by simp [Parser.isDisposed, hstage, hdisposed])]
    exact .refl _

/-- **The end of a load.** The parser settles, then the lock is let go. The time is taken, the
grammar marked, the stage moved and all this logged, in this order; but only what happens to the
parser can be run into, and that is one change. -/
theorem endLoad_eq (hp : s.parser? p = some q)
    (hq : q.stage = .initializing ∨ q.stage = .disposed) (event : Option String) (signal : Signal) :
    ∃ s', s.endLoad p event signal
          = s'.leaveInit p (s.loadOutcome q event (loadResult q signal))
      ∧ Quiet (s.modifyParser p (Parser.settleLoad (loadResult q signal))) s' := by
  generalize htime : s.count q (fun c => c.recordInitialization q.language s.elapsed) = timed
  have htimed : Quiet s timed := htime ▸ Quiet.count s q _
  -- taking the time touches no event
  have hset : timed.isSet event = s.isSet event := by
    subst htime
    rw [isSet, isSet, count]
    split <;> rfl
  have hp' : timed.parser? p = some q := (htimed.parser? p).trans hp
  have hended : ∀ result, (timed.modifyParser p (·.endLoad result)).parser? p
      = some (q.endLoad result) := fun result => parser?_modifyParser_self hp' _
  -- the two changes of the parser, one after the other, are the one that settles it
  have hsettle : ∀ result change, change (q.endLoad result) = q.settleLoad result →
      Quiet (s.modifyParser p (Parser.settleLoad result))
        ((timed.modifyParser p (·.endLoad result)).modifyParser p change) :=
    fun result change heq => by
      rw [modifyParser_modifyParser, ← modifyParser_congr hp' (f := Parser.settleLoad result)
        heq.symm]
      exact htimed.modifyParser p _
  rw [endLoad]
  simp only [hp, htime]
  cases hresult : loadResult q signal with
  | error fault =>
    obtain ⟨s', heq, hquiet⟩ := failLoad_eq (hended (.error fault)) (q.stage_endLoad _) fault
    refine ⟨s', heq, (hsettle _ _ ?_).trans hquiet⟩
    rw [Parser.settleLoad, Parser.stage_endLoad]
  | ok _ =>
    obtain ⟨s', heq, hquiet⟩ := finishLoad_eq (hended (.ok ())) (q.stage_endLoad _) hq event
    refine ⟨s', ?_, (hsettle _ _ ?_).trans hquiet⟩
    · rw [heq, loadOutcome, loadOutcome]
      have hset' : (timed.modifyParser p (·.endLoad (.ok ()))).isSet event = s.isSet event := hset
      rw [hset']
    · rw [Parser.settleLoad, Parser.isDisposed, Parser.stage_endLoad]
      rfl

/-! ## Initializing -/

/-- How a run of an initialization can end, where `q` is the parser when the run begins and `set`
says whether the event of the request is set. -/
structure InitEnds (q : Parser) (p : ParserId) (set : Bool) (r : Service × Run InitPoint Unit) :
    Prop where
  fits : ∀ point wait, r.2 = .waiting point wait → point.Fits p wait
  ok : r.2 = .finished (.ok ()) → ∃ q', r.1.parser? p = some q' ∧ q'.stage = .initialized
  error : ∀ e, r.2 = .finished (.error e) → set = false →
    ∀ q', r.1.parser? p = some q' → q'.stage ≠ .initialized
  fault : ∀ e, r.2 = .finished (.error e) → q.LoadFault e ∨ q.stage = .initializing

/-- A load that fails does so by a cancellation, by a disposal, or with the fault of the engine. -/
theorem loadFault_of_loadOutcome
    {signal : Signal} (h : s.loadOutcome q event (loadResult q signal) = .error e) :
    q.LoadFault e := by
  cases signal with
  | cancel =>
    cases h
    exact Or.inl rfl
  | proceed =>
    rw [loadResult] at h
    cases hload : q.engine.load with
    | error fault =>
      rw [hload] at h
      cases h
      exact Or.inr (Or.inr hload)
    | ok _ =>
      rw [hload, loadOutcome] at h
      -- the load is done, but its parser may be disposed of by now, or the call may be off
      split at h
      · cases h
        exact Or.inr (Or.inl rfl)
      · split at h
        · cases h
          exact Or.inl rfl
        · cases h

theorem endLoad_moves (hp : s.parser? p = some q)
    (hq : q.stage = .initializing ∨ q.stage = .disposed) (event : Option String) (signal : Signal)
    (D : List Duty) :
    Moves t (s, ⟨.load p :: .hold (.lifecycle p) :: D, none⟩) ((s.endLoad p event signal).1,
        (s.endLoad p event signal).2.footing (InitPoint.duties p) D) := by
  obtain ⟨s', heq, hquiet⟩ := endLoad_eq hp hq event signal
  rw [heq]
  exact ((Relation.ReflTransGen.single (.endLoad _)).tail (.quiet hquiet)).tail .release

theorem endLoad_fault (hp : s.parser? p = some q)
    (hq : q.stage = .initializing ∨ q.stage = .disposed) {signal : Signal}
    (h : (s.endLoad p event signal).2 = .finished (.error e)) : q.LoadFault e := by
  obtain ⟨s', heq, -⟩ := endLoad_eq hp hq event signal
  rw [heq] at h
  exact loadFault_of_loadOutcome (by simpa [leaveInit] using h)

/-- What a load reports when it ends, and the stage in which it leaves the parser. -/
theorem endLoad_ends (hp : s.parser? p = some q)
    (hq : q.stage = .initializing ∨ q.stage = .disposed) (event : Option String) (signal : Signal) :
    InitEnds q p (s.isSet event) (s.endLoad p event signal) := by
  obtain ⟨s', heq, hquiet⟩ := endLoad_eq hp hq event signal
  -- letting go of the lock does not touch the parser, so it is the settled one
  have hparser : (s'.release (.lifecycle p)).parser? p
      = some (q.settleLoad (loadResult q signal)) := by
    rw [parser?_release, hquiet.parser?, parser?_modifyParser_self hp]
  rw [heq]
  refine ⟨fun _ _ h => (by cases h), fun h => ?_, fun e h hset q' hq' => ?_, fun e h => ?_⟩
  · refine ⟨_, hparser, ?_⟩
    have hok : s.loadOutcome q event (loadResult q signal) = .ok () := by
      simpa [leaveInit] using h
    cases hresult : loadResult q signal with
    | error fault => rw [hresult] at hok; cases hok
    | ok _ =>
      rw [hresult, loadOutcome] at hok
      split at hok
      · cases hok
      · rename_i hdisposed
        rw [Parser.settleLoad, if_neg hdisposed]
  · rw [leaveInit, hparser, Option.some.injEq] at hq'
    subst hq'
    have herror : s.loadOutcome q event (loadResult q signal) = .error e := by
      simpa [leaveInit] using h
    -- neither of the stages in which a load can end is that of an initialized parser
    have hnot : q.stage ≠ .initialized := by
      rcases hq with hinit | hdisposed
      · rw [hinit]; decide
      · rw [hdisposed]; decide
    cases hresult : loadResult q signal with
    | error fault =>
      rw [Parser.settleLoad]
      split
      · exact fun hstage => by cases hstage
      · rw [Parser.stage_endLoad]
        exact hnot
    | ok _ =>
      rw [hresult, loadOutcome, hset] at herror
      split at herror
      · rename_i hdisposed
        rw [Parser.settleLoad, if_pos hdisposed]
        exact fun hstage => hnot ((Parser.stage_endLoad q _).symm.trans hstage)
      · cases herror
  · rw [← heq] at h
    exact Or.inl (endLoad_fault hp hq h)

theorem startLoad_moves (hp : s.parser? p = some q)
    (hq : q.stage = .initializing) (parser : Parser) (event : Option String) (D : List Duty) :
    Moves t (s.modifyParser p Parser.startLoad, ⟨.load p :: .hold (.lifecycle p) :: D, none⟩)
      ((s.startLoad t p parser event).1,
        (s.startLoad t p parser event).2.footing (InitPoint.duties p) D) := by
  have hp' := parser?_modifyParser_self hp Parser.startLoad
  rw [startLoad]
  rcases pauseAt_cases (s.modifyParser p Parser.startLoad) t parser.engine.loadPause with
    heq | ⟨s', wait, heq, -, hmove⟩
  · rw [heq]
    exact endLoad_moves hp' (Or.inl hq) event .proceed D
  · rw [heq]
    exact .single (hmove _)

theorem startLoad_ends (hp : s.parser? p = some q)
    (hq : q.stage = .initializing) (parser : Parser) (event : Option String) :
    InitEnds q p (s.isSet event) (s.startLoad t p parser event) := by
  have hp' := parser?_modifyParser_self hp Parser.startLoad
  rw [startLoad]
  rcases pauseAt_cases (s.modifyParser p Parser.startLoad) t parser.engine.loadPause with
    heq | ⟨s', wait, heq, hwait, -⟩
  · rw [heq]
    obtain ⟨hfits, hok, herror, -⟩ := endLoad_ends hp' (Or.inl hq) event .proceed
    exact ⟨hfits, hok, herror, fun _ _ => Or.inr hq⟩
  · rw [heq]
    refine ⟨fun point w h => ?_, fun h => ?_, fun e h => ?_, fun e h => ?_⟩
    · cases h
      exact hwait
    · cases h
    · cases h
    · cases h

theorem startLoad_fault (hp : s.parser? p = some q) (hq : q.stage = .initializing) {parser : Parser}
    (h : (s.startLoad t p parser event).2 = .finished (.error e)) : q.LoadFault e := by
  have hp' := parser?_modifyParser_self hp Parser.startLoad
  rw [startLoad] at h
  rcases pauseAt_cases (s.modifyParser p Parser.startLoad) t parser.engine.loadPause with
    heq | ⟨s', wait, heq, -, -⟩
  · rw [heq] at h
    exact endLoad_fault (q := q.startLoad) hp' (Or.inl hq) h
  · rw [heq] at h
    cases h

/-- What the task does once it has the lock: it goes away again, or it loads the grammar. It loads
only in the first stage, with the event not set; in the middle of a load, where a lack of memory
left the parser, the move is refused. -/
theorem initLocked_cases (hp : s.parser? p = some q) (event : Option String) :
    (∃ result, s.initLocked t p event = s.leaveInit p result
        ∧ (result = .ok () → q.stage = .initialized)
        ∧ (∀ e, result = .error e → q.stage ≠ .initialized
          ∧ (q.LoadFault e ∨ q.stage = .initializing))
        ∧ (q.stage = .uninitialized → s.isSet event = true))
      ∨ (q.stage = .uninitialized ∧ ∃ s', s.initLocked t p event = s'.startLoad t p q event
        ∧ Quiet (s.modifyParser p ({ · with stage := .initializing })) s'
        ∧ s'.isSet event = s.isSet event) := by
  rw [initLocked, hp]
  dsimp only
  split
  · rename_i hdisposed
    have hstage : q.stage = .disposed := of_decide_eq_true hdisposed
    refine Or.inl ⟨_, rfl, fun h => ?_, fun e h => ?_, fun h => ?_⟩
    · cases h
    · cases h
      exact ⟨by rw [hstage]; decide, Or.inl (Or.inr (Or.inl rfl))⟩
    · cases hstage.symm.trans h
  · rename_i hdisposed
    split
    · rename_i hinit
      have hstage : q.stage = .initialized := of_decide_eq_true hinit
      exact Or.inl ⟨_, rfl, fun _ => hstage, fun e h => (by cases h),
        fun h => by cases hstage.symm.trans h⟩
    · rename_i hinit
      have hnot : q.stage ≠ .initialized := fun h => hinit (decide_eq_true h)
      split
      · rename_i hset
        refine Or.inl ⟨_, rfl, fun h => ?_, fun e h => ?_, fun _ => hset⟩
        · cases h
        · cases h
          exact ⟨hnot, Or.inl (Or.inl rfl)⟩
      · cases hstage : q.stage with
        | disposed => exact absurd (decide_eq_true hstage) hdisposed
        | initialized => exact absurd hstage hnot
        | initializing =>
          -- there is no arrow from loading to loading
          rw [moveParser_error hp (by rw [hstage]; rfl)]
          refine Or.inl ⟨_, rfl, fun h => ?_, fun e _ => ⟨by decide, Or.inr rfl⟩, fun h => ?_⟩
          · cases h
          · cases h
        | uninitialized =>
          rw [moveParser_ok hp (by rw [hstage]; rfl)]
          exact Or.inr ⟨rfl, _, rfl, (Quiet.write _ _).trans (.write _ _), rfl⟩

/-- The task may load the grammar: callers may know the parser, or the task builds it. -/
def MayLoad (s : Service) (p : ParserId) (D : List Duty) : Prop :=
  s.offers p = true ∨ ∃ r entry, .build r entry p ∈ D

theorem MayLoad.origin {s : Service} {p : ParserId} {D : List Duty} (h : s.MayLoad p D) {q : Parser}
    (hp : s.parser? p = some q) (hstage : q.stage = .uninitialized) :
    q.origin = none ∨ ∃ r entry, .build r entry p ∈ D := by
  refine h.imp_left fun hoffers => ?_
  obtain ⟨q', hq', hoffered⟩ := offers_iff.mp hoffers
  rw [hp, Option.some.injEq] at hq'
  subst hq'
  simpa [Parser.isOffered, Parser.isSettled, Parser.isInitialized, Parser.isDisposed, hstage]
    using hoffered

theorem initLocked_moves (hp : s.parser? p = some q)
    (event : Option String) (hmay : s.MayLoad p D) :
    Moves t (s, ⟨.hold (.lifecycle p) :: D, none⟩) ((s.initLocked t p event).1,
        (s.initLocked t p event).2.footing (InitPoint.duties p) D) := by
  rcases initLocked_cases (t := t) hp event with ⟨result, heq, -, -, -⟩
    | ⟨hstage, s', heq, hquiet, -⟩
  · rw [heq]
    exact .single .release
  · rw [heq]
    have hp' : s'.parser? p = some { q with stage := .initializing } := by
      rw [hquiet.parser?, parser?_modifyParser_self hp]
    -- the stage is moved, then the load marked; the two are the one change `Parser.beginLoad`
    have hbegun : Quiet (s.modifyParser p Parser.beginLoad)
        (s'.modifyParser p Parser.startLoad) := by
      have := hquiet.modifyParser p Parser.startLoad
      rwa [modifyParser_modifyParser] at this
    exact ((Relation.ReflTransGen.single (.beginLoad hp hstage (hmay.origin hp hstage))).tail
      (.quiet hbegun)).trans
      (startLoad_moves hp' rfl q event D)

theorem initLocked_ends (hp : s.parser? p = some q)
    (event : Option String) : InitEnds q p (s.isSet event) (s.initLocked t p event) := by
  rcases initLocked_cases (t := t) hp event with
    ⟨result, heq, hok, herror, -⟩ | ⟨hstage, s', heq, hquiet, hset⟩
  · rw [heq, leaveInit]
    refine ⟨fun _ _ h => (by cases h), fun h => ⟨q, ?_, hok (by simpa using h)⟩,
      fun e h _ q' hq' => ?_, fun e h => (herror e (by simpa using h)).2⟩
    · rw [parser?_release, hp]
    · rw [parser?_release, hp, Option.some.injEq] at hq'
      exact hq' ▸ (herror e (by simpa using h)).1
  · rw [heq, ← hset]
    have hp' : s'.parser? p = some { q with stage := .initializing } := by
      rw [hquiet.parser?, parser?_modifyParser_self hp]
    obtain ⟨hfits, hok, herror, -⟩ := startLoad_ends (t := t) hp' rfl q event
    exact ⟨hfits, hok, herror, fun e h =>
      Or.inl (startLoad_fault (q := { q with stage := .initializing }) hp' rfl h)⟩

theorem acquire_cases (s : Service) (id : LockId) (t : TaskId) :
    ((s.lock id).isFree = true ∧ s.acquire id t = (s.setLock id (s.lock id).take, true))
      ∨ ((s.lock id).isFree = false
        ∧ s.acquire id t = (s.setLock id ((s.lock id).enqueue t), false)) := by
  rw [acquire]
  cases hfree : (s.lock id).isFree with
  | true => exact Or.inl ⟨rfl, rfl⟩
  | false => exact Or.inr ⟨rfl, rfl⟩

/-- **An initialization begins**, as moves: nothing for a parser that is done with it, otherwise the
lock is taken or queued for. -/
theorem beginInit_moves (hp : s.parser? p = some q) (event : Option String) (hmay : s.MayLoad p D) :
    Moves t (s, ⟨D, none⟩)
      ((s.beginInit t p event).1, (s.beginInit t p event).2.footing (InitPoint.duties p) D) := by
  rw [beginInit, hp]
  dsimp only
  split
  · exact .refl
  · split
    · exact .refl
    · rcases acquire_cases s (.lifecycle p) t with ⟨hfree, heq⟩ | ⟨-, heq⟩
      · rw [heq]
        have hp' : (s.setLock (.lifecycle p) (s.lock (.lifecycle p)).take).parser? p = some q := hp
        exact .head (.take hfree ⟨q, hp⟩) (initLocked_moves hp' event hmay)
      · rw [heq]
        exact .single (.queue ⟨q, hp⟩)

/-- What an initialization reports that ends in its first run. -/
theorem beginInit_ends (hp : s.parser? p = some q)
    (event : Option String) : InitEnds q p (s.isSet event) (s.beginInit t p event) := by
  rw [beginInit, hp]
  dsimp only
  split
  · rename_i hdisposed
    have hstage : q.stage = .disposed := of_decide_eq_true hdisposed
    refine ⟨fun _ _ h => (by cases h), fun h => (by cases h), fun e _ _ q' hq' => ?_, fun e h => ?_⟩
    · have hq' : s.parser? p = some q' := hq'
      rw [hp, Option.some.injEq] at hq'
      rw [← hq', hstage]
      decide
    · cases h
      exact Or.inl (Or.inr (Or.inl rfl))
  · split
    · rename_i hinit
      exact ⟨fun _ _ h => (by cases h), fun _ => ⟨q, hp, of_decide_eq_true hinit⟩,
        fun _ h => (by cases h), fun _ h => (by cases h)⟩
    · rcases acquire_cases s (.lifecycle p) t with ⟨-, heq⟩ | ⟨-, heq⟩
      · rw [heq]
        have hp' : (s.setLock (.lifecycle p) (s.lock (.lifecycle p)).take).parser? p = some q := hp
        exact initLocked_ends hp' event
      · rw [heq]
        -- the task is in the queue and waits for this lock
        refine ⟨fun point w h => ?_, fun h => (by cases h), fun _ h => (by cases h),
          fun _ h => (by cases h)⟩
        cases h
        rfl

/-- With the lock, there is only the load to wait for. -/
theorem initLocked_waiting (hp : s.parser? p = some q)
    (h : (s.initLocked t p event).2 = .waiting point wait) : point = .load := by
  rcases initLocked_cases (t := t) hp event with ⟨result, heq, -, -, -⟩ | ⟨-, s', heq, hquiet, -⟩
  · rw [heq] at h
    cases h
  · have hp' : s'.parser? p = some { q with stage := .initializing } := by
      rw [hquiet.parser?, parser?_modifyParser_self hp]
    rw [heq, startLoad] at h
    rcases pauseAt_cases (s'.modifyParser p Parser.startLoad) t q.engine.loadPause with
      hpause | ⟨s'', wait', hpause, -, -⟩
    · rw [hpause] at h
      -- a load that is not waited for ends in this run, so the run does not wait
      obtain ⟨s₁, hend, -⟩ :=
        endLoad_eq (parser?_modifyParser_self hp' Parser.startLoad) (Or.inl rfl)
        event .proceed
      have h : (endLoad (s'.modifyParser p Parser.startLoad) p event .proceed).2
        = .waiting point wait := h
      rw [hend] at h
      cases h
    · rw [hpause] at h
      cases h
      rfl

theorem beginInit_waiting (hp : s.parser? p = some q)
    (hfree : (s.lock (.lifecycle p)).isFree = true)
    (h : (s.beginInit t p event).2 = .waiting point wait) : point = .load := by
  rw [beginInit, hp] at h
  dsimp only at h
  split at h
  · cases h
  · split at h
    · cases h
    · rcases acquire_cases s (.lifecycle p) t with ⟨-, heq⟩ | ⟨hbusy, -⟩
      · rw [heq] at h
        have hp' : (s.setLock (.lifecycle p) (s.lock (.lifecycle p)).take).parser? p = some q := hp
        exact initLocked_waiting hp' h
      · rw [hfree] at hbusy
        cases hbusy

/-! ## Parsing -/

theorem failEngine_quiet (s : Service) (q : Parser) (request : ParseRequest) (fault : Fault) :
    ∃ result, (s.failEngine q request fault).2 = .finished result
      ∧ Quiet s (s.failEngine q request fault).1 := by
  rw [failEngine]
  split
  · exact ⟨_, rfl, .refl s⟩
  · dsimp only
    split
    · exact ⟨_, rfl, .count _ _ _⟩
    · exact ⟨_, rfl, (Quiet.count _ _ _).trans (.write _ _)⟩

theorem finishEngine_quiet (s : Service) (q : Parser) (request : ParseRequest) (forest : Forest) :
    ∃ result, (s.finishEngine q request forest).2 = .finished result
      ∧ Quiet s (s.finishEngine q request forest).1 := by
  rw [finishEngine]
  split
  · exact ⟨_, rfl, .refl s⟩
  · dsimp only
    split
    · exact ⟨_, rfl, .refl s⟩
    · exact ⟨_, rfl, (Quiet.count _ _ _).trans (.write _ _)⟩

/-- A run of a parse that begins with the duties `D'`, as moves that end where the parse says. -/
structure ParseRuns (t : TaskId) (p : ParserId) (D D' : List Duty) (s : Service)
    (r : Service × Run ParsePoint (ParseResult SyntaxTree)) : Prop where
  moves : Moves t (s, ⟨D', none⟩) (r.1, r.2.footing (ParsePoint.duties p) D)
  fits : ∀ point wait, r.2 = .waiting point wait → point.Fits p wait

theorem endEngine_runs (s : Service) (p : ParserId) (q : Parser) (request : ParseRequest)
    (result : Except Fault Forest) (D : List Duty) :
    ParseRuns t p D (.engine p :: .hold (.parsing p) :: D) s (s.endEngine p q request result) := by
  have hfree : Moves t (s, ⟨.engine p :: .hold (.parsing p) :: D, none⟩)
      ((s.modifyParser p Parser.endParse).release (.parsing p), ⟨D, none⟩) :=
    (Relation.ReflTransGen.single .endParse).tail .release
  have hends : ∃ outcome, (s.endEngine p q request result).2 = .finished outcome
      ∧ Quiet ((s.modifyParser p Parser.endParse).release (.parsing p))
          (s.endEngine p q request result).1 := by
    cases result with
    | error fault => exact failEngine_quiet _ q request fault
    | ok forest => exact finishEngine_quiet _ q request forest
  obtain ⟨outcome, heq, hquiet⟩ := hends
  refine ⟨?_, fun point wait h => ?_⟩
  · rw [heq]
    exact hfree.tail (.quiet hquiet)
  · rw [heq] at h
    cases h

theorem parseLocked_runs (hp : s.parser? p = some q) (request : ParseRequest) (D : List Duty) :
    ParseRuns t p D (.hold (.parsing p) :: D) s (s.parseLocked t p request) := by
  rw [parseLocked, hp]
  dsimp only
  split
  · exact ⟨.single .release, fun _ _ h => (by cases h)⟩
  · rename_i hdisposed
    have hstage : q.stage ≠ .disposed := fun h => hdisposed (decide_eq_true h)
    -- the engine is set to work first, whether it then lacks its grammar, gets done or pauses
    have hentered : Move t (s, ⟨.hold (.parsing p) :: D, none⟩)
        (s.modifyParser p Parser.startParse, ⟨.engine p :: .hold (.parsing p) :: D, none⟩) :=
      .startParse hp hstage
    split
    · obtain ⟨hmoves, hfits⟩ :=
        endEngine_runs (t := t) (s.modifyParser p Parser.startParse) p q request
        (.error (noGrammar q)) D
      exact ⟨.head hentered hmoves, hfits⟩
    · rcases pauseAt_cases (s.modifyParser p Parser.startParse) t q.engine.parsePause with
        heq | ⟨s', wait, heq, hwait, hmove⟩
      · rw [heq]
        obtain ⟨hmoves, hfits⟩ := endEngine_runs (t := t) (s.modifyParser p Parser.startParse) p q
          request ((s.modifyParser p Parser.startParse).engineResult q request .proceed) D
        exact ⟨.head hentered hmoves, hfits⟩
      · rw [heq]
        refine ⟨.head hentered (.single (hmove _)), fun point w h => ?_⟩
        cases h
        exact hwait

theorem parseReady_runs (hp : s.parser? p = some q)
    (hsettled : q.isSettled = true) (request : ParseRequest) (D : List Duty) :
    ParseRuns t p D D s (s.parseReady t p request) := by
  have hid : s.Knows (.parsing p) := settled_iff.mpr ⟨q, hp, hsettled⟩
  rw [parseReady]
  split
  · exact ⟨.refl, fun _ _ h => (by cases h)⟩
  · rcases acquire_cases s (.parsing p) t with ⟨hfree, heq⟩ | ⟨-, heq⟩
    · rw [heq]
      have hp' : (s.setLock (.parsing p) (s.lock (.parsing p)).take).parser? p = some q := hp
      obtain ⟨hmoves, hfits⟩ := parseLocked_runs (t := t) hp' request D
      exact ⟨.head (.take hfree hid) hmoves, hfits⟩
    · rw [heq]
      refine ⟨.single (.queue hid), fun point w h => ?_⟩
      cases h
      rfl

/-! ## Going on after a wait -/

/-- The duties with which a task goes on: a lock that it waited for is now its own. -/
def resumed (duties : List Duty) : Wait → Signal → List Duty
  | .lock id, .proceed => .hold id :: duties
  | _, _ => duties

theorem resumed_of_not_lock (h : ∀ id, wait ≠ .lock id) (duties : List Duty)
    (signal : Signal) : resumed duties wait signal = duties := by
  cases wait with
  | lock id => exact absurd rfl (h id)
  | gate name => rfl
  | worker => rfl

/-- **An initialization goes on after a wait**, as moves. -/
theorem resumeInit_moves (hp : s.parser? p = some q) (hfits : point.Fits p wait)
    (hload : point = .load → q.stage = .initializing ∨ q.stage = .disposed) (event : Option String)
    (signal : Signal) (hmay : s.MayLoad p D) :
    Moves t (s, ⟨resumed (point.duties p ++ D) wait signal, none⟩)
      ((s.resumeInit t p event point signal).1,
        (s.resumeInit t p event point signal).2.footing (InitPoint.duties p) D) := by
  cases point with
  | lock =>
    cases hfits
    cases signal with
    | proceed => exact initLocked_moves hp event hmay
    | cancel => exact .refl
  | load =>
    rw [resumed_of_not_lock hfits]
    exact endLoad_moves hp (hload rfl) event signal D

theorem resumeInit_fits (hp : s.parser? p = some q)
    (hload : point = .load → q.stage = .initializing ∨ q.stage = .disposed)
    (event : Option String) (signal : Signal) {point' : InitPoint}
    (h : (s.resumeInit t p event point signal).2 = .waiting point' wait) : point'.Fits p wait := by
  cases point with
  | lock =>
    cases signal with
    | proceed => exact (initLocked_ends hp event).fits _ _ h
    | cancel => cases h
  | load => exact (endLoad_ends hp (hload rfl) event signal).fits _ _ h

theorem resumeInit_ok (hp : s.parser? p = some q)
    (hload : point = .load → q.stage = .initializing ∨ q.stage = .disposed)
    (event : Option String) (signal : Signal)
    (h : (s.resumeInit t p event point signal).2 = .finished (.ok ())) :
    ∃ q', (s.resumeInit t p event point signal).1.parser? p = some q'
      ∧ q'.stage = .initialized := by
  cases point with
  | lock =>
    cases signal with
    | proceed => exact (initLocked_ends hp event).ok h
    | cancel => cases h
  | load => exact (endLoad_ends hp (hload rfl) event signal).ok h

theorem parseInitialized_moves (request : ParseRequest) {run : Run InitPoint Unit}
    (hok : run = .finished (.ok ()) → ∃ q, s.parser? p = some q ∧ q.stage = .initialized)
    (D : List Duty) :
    Moves t (s, run.footing (InitPoint.duties p) D) ((s.parseInitialized t p request run).1,
        (s.parseInitialized t p request run).2.footing (ParsePoint.duties p) D) := by
  cases run with
  | waiting point wait => exact .refl
  | finished result =>
    cases result with
    | ok _ =>
      obtain ⟨q, hq, hinit⟩ := hok rfl
      exact (parseReady_runs hq (by simp [Parser.isSettled, Parser.isInitialized, hinit])
        request D).moves
    | error fault =>
      rw [parseInitialized]
      split
      · exact .refl
      · split <;> exact .refl

theorem parseInitialized_fits {request : ParseRequest} {run : Run InitPoint Unit}
    (hok : run = .finished (.ok ()) → ∃ q, s.parser? p = some q ∧ q.stage = .initialized)
    (hfits : ∀ point wait, run = .waiting point wait → point.Fits p wait) {point : ParsePoint}
    (h : (s.parseInitialized t p request run).2 = .waiting point wait) :
    point.Fits p wait := by
  cases run with
  | waiting point wait =>
    cases h
    exact hfits point wait rfl
  | finished result =>
    cases result with
    | ok _ =>
      obtain ⟨q, hq, hinit⟩ := hok rfl
      exact (parseReady_runs hq (by simp [Parser.isSettled, Parser.isInitialized, hinit])
        request []).fits _ _ h
    | error fault =>
      rw [parseInitialized] at h
      split at h
      · cases h
      · split at h <;> cases h

/-- **A parse begins.** -/
theorem beginParse_runs (hp : s.offers p = true)
    (request : ParseRequest) (D : List Duty) : ParseRuns t p D D s (s.beginParse t p request) := by
  obtain ⟨q, hq, -⟩ := offers_iff.mp hp
  rw [beginParse, hq]
  dsimp only
  split
  · exact ⟨.refl, fun _ _ h => (by cases h)⟩
  · split
    · exact ⟨.refl, fun _ _ h => (by cases h)⟩
    · split
      · exact ⟨.refl, fun _ _ h => (by cases h)⟩
      · split
        · rename_i hinit
          exact parseReady_runs hq (by simp [Parser.isSettled, hinit]) request D
        · have hends := beginInit_ends (t := t) hq request.event
          exact ⟨(beginInit_moves hq request.event (Or.inl hp)).trans
            (parseInitialized_moves request hends.ok D),
            fun _ _ h => parseInitialized_fits hends.ok hends.fits h⟩

/-- **A parse goes on after a wait**: of its initialization, for the lock of the engine, or for the
engine. -/
theorem resumeParse_runs (hoffers : s.offers p = true)
    (hp : s.parser? p = some q) {point : ParsePoint} (hfits : point.Fits p wait)
    (hload : point = .init .load → q.stage = .initializing ∨ q.stage = .disposed)
    (request : ParseRequest) (signal : Signal) (D : List Duty) :
    ParseRuns t p D (resumed (point.duties p ++ D) wait signal) s
      (s.resumeParse t p request point signal) := by
  cases point with
  | init point =>
    have hload' : point = .load → q.stage = .initializing ∨ q.stage = .disposed :=
      fun h => hload (h ▸ rfl)
    have hok := resumeInit_ok (t := t) hp hload' request.event signal
    exact ⟨(resumeInit_moves hp hfits hload' request.event signal (Or.inl hoffers)).trans
      (parseInitialized_moves request hok D),
      fun _ _ h => parseInitialized_fits hok
        (fun _ _ => resumeInit_fits hp hload' request.event signal) h⟩
  | lock =>
    -- a task that waited for the lock has it now, or has left the queue
    cases hfits
    cases signal with
    | proceed => exact parseLocked_runs hp request D
    | cancel => exact ⟨.refl, fun _ _ h => (by cases h)⟩
  | engine =>
    rw [resumed_of_not_lock hfits, resumeParse, hp]
    exact endEngine_runs s p q request _ D

end Service

end SyntaxForest
