import Mathlib.Tactic.IntervalCases
import SyntaxForest.Proofs.Lifecycle.Engagement
import SyntaxForest.Proofs.Service.Steady

/-!
# Parses that are called off

A parse comes with an event by which its caller may call it off. The event is looked at before the
parse asks for the engine and after the engine is done, but not when a parse gets the engine for
which it had to queue. So a parse that was called off never succeeds, but it may still be begun.

* **`Halted`** — a run of a parse that is called off: no engine is set to work, and the result is no
  success.
* **`step_of_parse`** — what a step of a parse can be, said once.
* **`Unstarted`**, **`Unsuccessful`** — the two things that a caller may hope for, over whole runs.
* **`Service.StartsLate`** — a parse gets the engine after it was called off.
* **`called_off_iff`** — no parse is begun after it was called off if and only if none starts late;
  and none succeeds in any case.
-/

namespace SyntaxForest

namespace Service

variable {s s' : Service} {t : TaskId} {p : ParserId} {q : Parser} {request : ParseRequest}

/-! ## Initializations set no engine to work -/

theorem parses?_of_parsers (h : s'.parsers = s.parsers) (p : ParserId) :
    s'.parses? p = s.parses? p := by
  rw [parses?, parses?, parser?, parser?, h]

theorem parses?_modifyParser (s : Service) (p : ParserId) (change : Parser → Parser)
    (h : ∀ q : Parser, (change q).tally.parses = q.tally.parses) (p' : ParserId) :
    (s.modifyParser p change).parses? p' = s.parses? p' := by
  rw [parses?, parses?, parser?_modifyParser]
  split
  · rw [Option.map_map]
    exact congrArg (s.parser? p').map (funext h)
  · rfl

@[simp] theorem parses?_release (s : Service) (id : LockId) (p : ParserId) :
    (s.release id).parses? p = s.parses? p := parses?_of_parsers (parsers_setLockAndWake ..) p

@[simp] theorem parses?_endWait (s : Service) (t : TaskId) (wait : Wait) (signal : Signal)
    (p : ParserId) : (s.endWait t wait signal).parses? p = s.parses? p :=
  parses?_of_parsers (parsers_endWait ..) p

theorem endLoad_parses (hp : s.parser? p = some q)
    (hq : q.stage = .initializing ∨ q.stage = .disposed) (event : Option String) (signal : Signal)
    (p' : ParserId) :
    (s.endLoad p event signal).1.parses? p' = s.parses? p' := by
  obtain ⟨s₁, heq, hquiet⟩ := endLoad_eq hp hq event signal
  rw [heq, leaveInit, parses?_release, parses?_of_parsers hquiet.parsers]
  exact parses?_modifyParser s p _ (fun q => (q.idles_settleLoad _).parses) p'

theorem initLocked_parses (hp : s.parser? p = some q) (event : Option String) (p' : ParserId) :
    (s.initLocked t p event).1.parses? p' = s.parses? p' := by
  rcases initLocked_cases (t := t) hp event with ⟨result, heq, -⟩ | ⟨-, s₁, heq, hquiet, -⟩
  · rw [heq, leaveInit, parses?_release]
  · have hstarted : (s₁.modifyParser p Parser.startLoad).parses? p' = s.parses? p' := by
      rw [parses?_modifyParser s₁ p Parser.startLoad fun _ => rfl,
        parses?_of_parsers hquiet.parsers]
      exact parses?_modifyParser s p ({ · with stage := .initializing }) (fun _ => rfl) p'
    have hp' : s₁.parser? p = some { q with stage := .initializing } := by
      rw [hquiet.parser?, parser?_modifyParser_self hp]
    rw [heq, startLoad]
    -- the engine may be done with the load at once, and then this very run ends it
    rcases pauseAt_cases (s₁.modifyParser p Parser.startLoad) t q.engine.loadPause with
      hpause | ⟨s₂, wait, hpause, -, -⟩
    · rw [hpause, ← hstarted]
      exact endLoad_parses (parser?_modifyParser_self hp' _) (Or.inl rfl) event .proceed p'
    · have hpaused := parses?_of_parsers
        (parsers_pauseAt (s₁.modifyParser p Parser.startLoad) t q.engine.loadPause) p'
      rw [hpause] at hpaused ⊢
      exact hpaused.trans hstarted

theorem beginInit_parses (hp : s.parser? p = some q) (event : Option String) (p' : ParserId) :
    (s.beginInit t p event).1.parses? p' = s.parses? p' := by
  rw [beginInit, hp]
  dsimp only
  split
  · rfl
  · split
    · rfl
    · rcases acquire_cases s (.lifecycle p) t with ⟨-, heq⟩ | ⟨-, heq⟩
      · rw [heq]
        have hp' : (s.setLock (.lifecycle p) (s.lock (.lifecycle p)).take).parser? p = some q := hp
        exact initLocked_parses hp' event p'
      · rw [heq]
        rfl

theorem resumeInit_parses (hp : s.parser? p = some q) {point : InitPoint}
    (hload : point = .load → q.stage = .initializing ∨ q.stage = .disposed) (event : Option String)
    (signal : Signal) (p' : ParserId) :
    (s.resumeInit t p event point signal).1.parses? p' = s.parses? p' := by
  cases point with
  | lock =>
    cases signal with
    | proceed => exact initLocked_parses hp event p'
    | cancel => rfl
  | load => exact endLoad_parses hp (hload rfl) event signal p'

/-! ## Runs of a parse that is called off -/

/-- The run gives no tree. -/
def Fruitless (run : Run ParsePoint (ParseResult SyntaxTree)) : Prop :=
  ∀ result, run = .finished (.ok result) → result.success = false

/-- The run sets no engine to work and gives no tree. -/
structure Halted (s : Service) (r : Service × Run ParsePoint (ParseResult SyntaxTree)) : Prop where
  parses : ∀ p, r.1.parses? p = s.parses? p
  fruitless : Fruitless r.2

theorem fruitless_error (e : Fault) : Fruitless (.finished (.error e)) := by
  intro result h
  cases h

theorem fruitless_waiting (point : ParsePoint) (wait : Wait) : Fruitless (.waiting point wait) := by
  intro result h
  cases h

theorem fruitless_failedParse (q : Parser) (request : ParseRequest) (message : String) :
    Fruitless (.finished (.ok (failedParse q request message))) := by
  intro result h
  cases h
  rfl

theorem parseReady_halted (hset : s.isSet request.event = true) :
    Halted s (s.parseReady t p request) := by
  rw [parseReady, if_pos hset]
  exact ⟨fun _ => rfl, fruitless_error _⟩

theorem parseInitialized_halted (hset : s.isSet request.event = true) (run : Run InitPoint Unit) :
    Halted s (s.parseInitialized t p request run) := by
  cases run with
  | waiting point wait => exact ⟨fun _ => rfl, fruitless_waiting _ _⟩
  | finished result =>
    cases result with
    | ok _ => exact parseReady_halted hset
    | error fault =>
      -- of the three ways to report a failed initialization only the last one is a result
      rw [parseInitialized]
      split
      · exact ⟨fun _ => rfl, fruitless_error _⟩
      · split
        · exact ⟨fun _ => rfl, fruitless_error _⟩
        · refine ⟨fun _ => rfl, ?_⟩
          cases fault.written with
          | ok text => exact fruitless_failedParse _ _ _
          | error unwritten => exact fruitless_error unwritten

/-- **A parse that begins after it was called off.** -/
theorem beginParse_halted (hp : s.parser? p = some q) (hanswer : q.engine.answer = none)
    (hset : s.isSet request.event = true) : Halted s (s.beginParse t p request) := by
  rw [beginParse, hp]
  simp only [hanswer]
  split
  · exact ⟨fun _ => rfl, fruitless_error _⟩
  · split
    · exact ⟨fun _ => rfl, fruitless_failedParse _ _ _⟩
    · split
      · exact parseReady_halted hset
      -- the initialization does not touch the event, which is set after it as before it
      · have hset' : (s.beginInit t p request.event).1.isSet request.event = true :=
          ((beginInit_steady s p request.event).isSet request.event).trans hset
        obtain ⟨hparses, hfruitless⟩ :=
          parseInitialized_halted (t := t) (p := p) hset' (s.beginInit t p request.event).2
        exact ⟨fun p' => (hparses p').trans (beginInit_parses hp request.event p'), hfruitless⟩

/-- The engine gets done after the parse was called off. What it made is thrown away, and a fault of
its own is reported as any other fault is. -/
theorem endEngine_halted (hset : s.isSet request.event = true) (result : Except Fault Forest) :
    Halted s (s.endEngine p q request result) := by
  have hfree : ∀ p', ((s.modifyParser p Parser.endParse).release (.parsing p)).parses? p'
      = s.parses? p' := by
    intro p'
    rw [parses?_release]
    exact parses?_modifyParser s p Parser.endParse (fun _ => rfl) p'
  have hset' : ((s.modifyParser p Parser.endParse).release (.parsing p)).isSet request.event
      = true :=
    ((release_steady (s.modifyParser p Parser.endParse) (.parsing p)).isSet request.event).trans
      hset
  -- the event is looked at only where the engine succeeded
  cases result with
  | error fault =>
    obtain ⟨outcome, -, hquiet⟩ := failEngine_quiet
      ((s.modifyParser p Parser.endParse).release (.parsing p)) q request fault
    refine ⟨fun p' => (parses?_of_parsers hquiet.parsers p').trans (hfree p'), ?_⟩
    rw [endEngine, failEngine]
    split
    · exact fruitless_error _
    · dsimp only
      split
      · exact fruitless_error _
      · exact fruitless_failedParse _ _ _
  | ok forest =>
    rw [endEngine, finishEngine, if_pos hset']
    exact ⟨hfree, fruitless_error _⟩

/-- With the lock of the engine, a parse that was called off is begun, unless the parser is disposed
of. It still gives no tree, since the event is looked at again when the engine is done. -/
theorem parseLocked_late (hp : s.parser? p = some q) (hstage : q.stage ≠ .disposed)
    (hset : s.isSet request.event = true) :
    (s.parseLocked t p request).1.parses? p = some (q.tally.parses + 1)
      ∧ Fruitless (s.parseLocked t p request).2 := by
  have hentered : (s.modifyParser p Parser.startParse).parses? p = some (q.tally.parses + 1) := by
    rw [parses?, parser?_modifyParser_self hp]
    rfl
  have hdisposed : ¬q.isDisposed = true := fun h => hstage (of_decide_eq_true h)
  rw [parseLocked, hp]
  dsimp only
  rw [if_neg hdisposed]
  -- the engine may lack its grammar, be done at once, or keep the task waiting
  split
  · obtain ⟨hparses, hfruitless⟩ := endEngine_halted (p := p) (q := q)
      (show (s.modifyParser p Parser.startParse).isSet request.event = true from hset)
        (.error (noGrammar q))
    exact ⟨(hparses p).trans hentered, hfruitless⟩
  · rcases pauseAt_cases (s.modifyParser p Parser.startParse) t q.engine.parsePause with
      heq | ⟨s₁, wait, heq, -, -⟩
    · rw [heq]
      obtain ⟨hparses, hfruitless⟩ := endEngine_halted (p := p) (q := q)
        (show (s.modifyParser p Parser.startParse).isSet request.event = true from hset)
        ((s.modifyParser p Parser.startParse).engineResult q request .proceed)
      exact ⟨(hparses p).trans hentered, hfruitless⟩
    · have hpaused := parses?_of_parsers
        (parsers_pauseAt (s.modifyParser p Parser.startParse) t q.engine.parsePause) p
      rw [heq] at hpaused ⊢
      exact ⟨hpaused.trans hentered, fruitless_waiting _ _⟩

theorem parseLocked_disposed (hp : s.parser? p = some q) (hstage : q.stage = .disposed) :
    Halted s (s.parseLocked t p request) := by
  rw [parseLocked, hp]
  dsimp only
  rw [if_pos (show q.isDisposed = true from decide_eq_true hstage)]
  exact ⟨fun p' => parses?_release .., fruitless_error _⟩

/-- **A parse that goes on after it was called off** gives no tree, and it sets the engine to work
only if it had queued for it. -/
theorem resumeParse_halted (hp : s.parser? p = some q) (hset : s.isSet request.event = true)
    {point : ParsePoint}
    (hload : point = .init .load → q.stage = .initializing ∨ q.stage = .disposed)
    (signal : Signal) :
    Halted s (s.resumeParse t p request point signal)
      ∨ (point = .lock ∧ signal = .proceed ∧ q.stage ≠ .disposed
        ∧ s.resumeParse t p request point signal = s.parseLocked t p request) := by
  cases point with
  | init point =>
    -- a parse that initializes waits where the initialization waits
    have hload' : point = .load → q.stage = .initializing ∨ q.stage = .disposed :=
      fun h => hload (h ▸ rfl)
    have hset' : (s.resumeInit t p request.event point signal).1.isSet request.event = true :=
      ((resumeInit_steady s p request.event point signal).isSet request.event).trans hset
    obtain ⟨hparses, hfruitless⟩ := parseInitialized_halted (t := t) (p := p) hset'
      (s.resumeInit t p request.event point signal).2
    exact Or.inl ⟨fun p' => (hparses p').trans
      (resumeInit_parses hp hload' request.event signal p'), hfruitless⟩
  | lock =>
    cases signal with
    | cancel => exact Or.inl ⟨fun _ => rfl, fruitless_error _⟩
    | proceed =>
      -- the event is not looked at again, only whether the parser was disposed of
      by_cases hstage : q.stage = .disposed
      · exact Or.inl (parseLocked_disposed hp hstage)
      · exact Or.inr ⟨rfl, rfl, hstage, rfl⟩
  | engine =>
    rw [resumeParse, hp]
    exact Or.inl (endEngine_halted hset _)

/-! ## Steps of a parse -/

/-- The task is busy with the call. -/
def BusyWith (s : Service) (t : TaskId) (call : Call) : Prop :=
  ∃ status, s.tasks[t]? = some status ∧ status.call? = some call

/-- A parse gets the engine for which it queued, after it was called off. -/
def StartsLate (s : Service) (t : TaskId) (p : ParserId) : Prop :=
  t ∈ s.ready ∧ ∃ request wait q,
    s.tasks[t]? = some (.waiting (.parse p request .lock) wait (some .proceed))
    ∧ s.isSet request.event = true ∧ s.parser? p = some q ∧ q.stage ≠ .disposed

/-- **What a step of a parse can be:** nothing or a cancellation, the begin of the parse, or its
going on. -/
theorem step_of_parse {status : TaskStatus} (ht : s.tasks[t]? = some status)
    (hcall : status.call? = some (.parse p request)) :
    ((s.step t).parsers = s.parsers
        ∧ ((s.step t).tasks[t]? = some status ∨ (s.step t).tasks[t]?
          = some (.finished (.error .cancelled))))
      ∨ (t ∈ s.ready ∧ status = .fresh (.parse p request) false
        ∧ s.step t = settleRun t (.parse p request) finishParse
          (({ s with ready := s.ready.erase t } : Service).beginParse t p request))
      ∨ (t ∈ s.ready ∧ ∃ point wait signal,
        status = .waiting (.parse p request point) wait (some signal)
        ∧ s.step t = settleRun t (.parse p request) finishParse
          ((({ s with ready := s.ready.erase t } : Service).endWait t wait signal).resumeParse
            t p request point
            signal)) := by
  by_cases hready : t ∈ s.ready
  · have hlt := (Array.getElem?_eq_some_iff.mp ht).1
    -- a step does something only for a task that is ready, and then by what the task is at
    cases status with
    | finished result => cases hcall
    | fresh call cancelled =>
      cases hcall
      cases cancelled with
      | false => exact Or.inr (Or.inl ⟨hready, rfl, step_of_fresh hready ht⟩)
      | true =>
        rw [step_of_cancelled hready ht]
        exact Or.inl ⟨rfl, Or.inr (task_setTask hlt _)⟩
    | waiting frame wait signal =>
      cases signal with
      | none =>
        rw [step_of_unsignalled hready ht]
        exact Or.inl ⟨rfl, Or.inl ht⟩
      | some signal =>
        cases frame with
        | parse p' request' point =>
          cases hcall
          exact Or.inr (Or.inr ⟨hready, point, wait, signal, rfl, step_of_waiting hready ht⟩)
        | _ => cases hcall
  · rw [step_of_not_ready hready]
    exact Or.inl ⟨rfl, Or.inl ht⟩

end Service

/-- The parse goes on, or it has ended without a tree. -/
inductive TaskStatus.Barren (p : ParserId) (request : ParseRequest) : TaskStatus → Prop
  | busy {status : TaskStatus} (h : status.call? = some (.parse p request)) :
      Barren p request status
  | ended {outcome : Except Fault Outcome}
      (h : ∀ result, outcome = .ok (.parsed result) → result.success = false) :
      Barren p request (.finished outcome)

theorem TaskStatus.Barren.alike {p : ParserId} {request : ParseRequest} {a b : TaskStatus}
    (h : a.Barren p request) (hab : a.Alike b) : b.Barren p request := by
  cases hab with
  | finished result => exact h
  | fresh call before now =>
    cases h with
    | busy hcall => exact .busy hcall
  | waiting frame wait before now =>
    cases h with
    | busy hcall => exact .busy hcall

namespace Service

variable {s : Service} {t : TaskId} {p : ParserId} {request : ParseRequest}

theorem settleRun_barren {y : Service × Run ParsePoint (ParseResult SyntaxTree)} (h : Fruitless y.2)
    {status : TaskStatus}
    (ht : (settleRun t (.parse p request) finishParse y).tasks[t]? = some status) :
    status.Barren p request := by
  obtain ⟨s₁, run⟩ := y
  cases run with
  | waiting point wait =>
    rw [status_of_setTask ht]
    exact .busy rfl
  | finished result =>
    rw [status_of_setTask ht]
    -- a call that ended hands on the result of its run as it is
    refine .ended fun parsed hparsed => ?_
    cases result with
    | error e => cases hparsed
    | ok tree =>
      cases hparsed
      exact h parsed rfl

theorem parses?_settleRun (y : Service × Run ParsePoint (ParseResult SyntaxTree)) (p' : ParserId) :
    (settleRun t (.parse p request) finishParse y).parses? p' = y.1.parses? p' := by
  rw [settleRun]
  split <;> rfl

theorem parses?_of_startsLate (h : s.StartsLate t p) : (s.step t).parses? p ≠ s.parses? p := by
  obtain ⟨hready, request, wait, q, ht, hset, hp, hstage⟩ := h
  have hp' : (({ s with ready := s.ready.erase t } : Service).endWait t wait .proceed).parser? p
      = some q := by
    rw [parser?_endWait]
    exact hp
  have hset' : (({ s with ready := s.ready.erase t } : Service).endWait t wait .proceed).isSet
      request.event = true :=
    ((endWait_steady _ t wait .proceed).isSet request.event).trans hset
  obtain ⟨hparses, -⟩ := parseLocked_late (t := t) hp' hstage hset'
  rw [step_of_waiting hready ht, resume, parses?_settleRun]
  show (parseLocked _ t p request).1.parses? p ≠ _
  rw [hparses, parses?, hp, Option.map_some]
  simp

end Service

/-- **A step of a parse that is called off** gives no tree, and it begins the parse only if it
starts late. -/
theorem Valid.called_off_step {s : Service} (h : Valid s) {t : TaskId} {p : ParserId}
    {request : ParseRequest} {status : TaskStatus} (ht : s.tasks[t]? = some status)
    (hcall : status.call? = some (.parse p request)) (hset : s.isSet request.event = true)
    (hanswer : ∀ q, s.parser? p = some q → q.engine.answer = none) :
    (∃ status', (s.step t).tasks[t]? = some status' ∧ status'.Barren p request)
      ∧ ((∀ p', (s.step t).parses? p' = s.parses? p') ∨ s.StartsLate t p) := by
  have hfine := h.fine ht
  obtain ⟨last, hlast⟩ := h.exists_task_step ht
  -- nothing happens to the parse, it begins, or it goes on from where it waits
  rcases Service.step_of_parse ht hcall with ⟨hparsers, hstay⟩ | ⟨hready, rfl, hstep⟩
    | ⟨hready, point, wait, signal, rfl, hstep⟩
  · refine ⟨?_, Or.inl fun p' => Service.parses?_of_parsers hparsers p'⟩
    rcases hstay with hsame | hcancelled
    · exact ⟨status, hsame, .busy hcall⟩
    · exact ⟨_, hcancelled, .ended fun _ hresult => by cases hresult⟩
  · obtain ⟨q, hq, -⟩ := Service.offers_iff.mp (hfine p (List.mem_singleton.mpr rfl))
    obtain ⟨hparses, hfruitless⟩ :=
      Service.beginParse_halted (s := { s with ready := s.ready.erase t }) (t := t) hq
      (hanswer q hq) hset
    rw [hstep] at hlast ⊢
    refine ⟨⟨last, hlast, Service.settleRun_barren hfruitless hlast⟩, Or.inl fun p' => ?_⟩
    rw [Service.parses?_settleRun]
    exact hparses p'
  · obtain ⟨hfits, hclients⟩ := hfine
    obtain ⟨q, hq, -⟩ := Service.offers_iff.mp (hclients p (List.mem_singleton.mpr rfl))
    -- a task that waits for a load has it to end, so the parser is where loads leave it
    have hload : point = .init .load → q.stage = .initializing ∨ q.stage = .disposed := by
      rintro rfl
      have hduty : .load p ∈ (s.footing t).duties := by
        rw [Service.footing, ht]
        exact List.mem_cons_self ..
      obtain ⟨q', hq', hstage⟩ := h.agreed.lives.stage_of_load hduty
      rw [hq, Option.some.injEq] at hq'
      exact hq' ▸ hstage
    -- ending the wait changes neither parsers nor events, so the facts about them carry over
    generalize hwent : (({ s with ready := s.ready.erase t } : Service).endWait t wait signal)
      = s₁ at hstep
    have hq₁ : s₁.parser? p = some q := by
      rw [← hwent, Service.parser?_endWait]
      exact hq
    have hparses₁ : ∀ p', s₁.parses? p' = s.parses? p' := fun p' => by
      rw [← hwent, Service.parses?_endWait]
      rfl
    have hset₁ : s₁.isSet request.event = true := by
      rw [← hwent]
      exact ((Service.endWait_steady _ t wait signal).isSet request.event).trans hset
    rw [hstep] at hlast ⊢
    rcases Service.resumeParse_halted (t := t) hq₁ hset₁ hload signal with ⟨hparses, hfruitless⟩
      | ⟨rfl, rfl, hstage, hlocked⟩
    · refine ⟨⟨last, hlast, Service.settleRun_barren hfruitless hlast⟩, Or.inl fun p' => ?_⟩
      rw [Service.parses?_settleRun]
      exact (hparses p').trans (hparses₁ p')
    · rw [hlocked] at hlast ⊢
      obtain ⟨-, hfruitless⟩ := Service.parseLocked_late (t := t) hq₁ hstage hset₁
      exact ⟨⟨last, hlast, Service.settleRun_barren hfruitless hlast⟩,
        Or.inr ⟨hready, request, wait, q, ht, hset, hq, hstage⟩⟩

/-! ## Runs -/

namespace Service

/-- Only clearing it unsets an event. All actions but four leave the events alone, and of these four
only one removes any. -/
theorem isSet_act {s : Service} {event : Option String} (h : s.isSet event = true)
    {a : Service.Action} (hkeeps : ∀ name, event = some name → a ≠ .clearEvent name) :
    (s.act a).isSet event = true := by
  cases hsteady : a.isSteady with
  | true => exact ((act_steady s hsteady).isSet event).trans h
  | false =>
    cases event with
    | none => cases h
    | some name =>
      have hmem : name ∈ s.events := by simpa [isSet] using h
      suffices hmem' : name ∈ (s.act a).events by simpa [isSet] using hmem'
      -- what is left are the actions that are not steady, and one of them clears events
      cases a with
      | register r config =>
        show name ∈ (s.register r config).events
        rwa [events_register]
      | unregister r language =>
        show name ∈ (s.unregister r language).1.events
        rwa [events_unregister]
      | setEvent other =>
        show name ∈ (if s.events.contains other then s.events else other :: s.events)
        split
        · exact hmem
        · exact List.mem_cons_of_mem _ hmem
      | clearEvent other =>
        have hne : name ≠ other := fun heq => hkeeps name rfl (heq ▸ rfl)
        show name ∈ s.events.filter (· ≠ other)
        exact List.mem_filter.mpr ⟨hmem, decide_eq_true hne⟩
      | _ => cases hsteady

end Service

/-- No step of a parse with the parser begins it while its event is set. -/
def Unstarted (p : ParserId) (run : List Service.Action) : Prop :=
  ∀ pre t request, pre ++ [.step t] <+: run → (Service.after pre).BusyWith t (.parse p request) →
    (Service.after pre).isSet request.event = true →
    (Service.after (pre ++ [.step t])).parses? p = (Service.after pre).parses? p

/-- No parse with the parser gives a tree whose event was set before it ended, and not cleared
again. -/
def Unsuccessful (p : ParserId) (run : List Service.Action) : Prop :=
  ∀ pre more t request result, pre ++ more <+: run →
    (Service.after pre).BusyWith t (.parse p request) →
    (Service.after pre).isSet request.event = true →
    (∀ name, request.event = some name → .clearEvent name ∉ more) →
    (Service.after (pre ++ more)).result? t = some (.ok (.parsed result)) → result.success = false

/-- From when it is called off, a parse goes on or ends without a tree. The induction is on what
happens afterwards; the event stays set since nobody clears it, and so every step of the task is one
of a parse that is called off. -/
theorem barren_after {p : ParserId} {request : ParseRequest} {t : TaskId}
    {pre : List Service.Action} (hbusy : (Service.after pre).BusyWith t (.parse p request))
    (hset : (Service.after pre).isSet request.event = true) (more : List Service.Action)
    (hanswer : Unanswered p (pre ++ more))
    (hkeeps : ∀ name, request.event = some name → .clearEvent name ∉ more) :
    (Service.after (pre ++ more)).isSet request.event = true
      ∧ ∃ status, (Service.after (pre ++ more)).tasks[t]? = some status
      ∧ status.Barren p request := by
  induction more using List.reverseRecOn with
  | nil =>
    rw [List.append_nil]
    obtain ⟨status, ht, hcall⟩ := hbusy
    exact ⟨hset, status, ht, .busy hcall⟩
  | append_singleton more a ih =>
    rw [← List.append_assoc] at hanswer ⊢
    have hbefore : pre ++ more <+: pre ++ more ++ [a] := List.prefix_append _ _
    obtain ⟨hset', status, ht, hbarren⟩ :=
      ih (fun before hpre => hanswer before (hpre.trans hbefore))
      fun name hname hmem => hkeeps name hname (List.mem_append_left _ hmem)
    rw [Service.after_concat]
    refine ⟨Service.isSet_act hset' fun name hname heq => ?_, ?_⟩
    · exact hkeeps name hname (List.mem_append_right _ (List.mem_singleton.mpr heq.symm))
    -- others at most wake or cancel the task, and its own steps are those of a parse that is called
    -- off
    · refine (valid_after _).task_act (fun h => h.alike) ht hbarren ?_ a
      cases hbarren with
      | busy hcall => exact ((valid_after _).called_off_step ht hcall hset' (hanswer _ hbefore)).1
      | ended houtcome => exact ⟨_, Service.step_of_finished ht, .ended houtcome⟩

/-- **What calling off a parse does.** Over every run, a parse whose event was set before it ended
gives no tree. That its engine is not set to work after its event was set holds of a run if and only
if no parse gets the engine, for which it had queued, after it was called off. -/
theorem called_off_iff (run : List Service.Action) {p : ParserId} (hanswer : Unanswered p run) :
    Unsuccessful p run
      ∧ (Unstarted p run ↔ ∀ pre t, pre ++ [.step t] <+: run →
        ¬(Service.after pre).StartsLate t p) := by
  refine ⟨fun pre more t request result hpre hbusy hset hkeeps hresult => ?_,
    fun hunstarted pre t hpre hlate => ?_,
    fun hfair pre t request hpre hbusy hset => ?_⟩
  · obtain ⟨-, status, ht, hbarren⟩ := barren_after hbusy hset more
      (fun before hbefore => hanswer before (hbefore.trans hpre)) hkeeps
    rw [Service.result?, ht] at hresult
    -- a task with a result is not busy any more, so it has ended without a tree
    cases hbarren with
    | busy hcall =>
      cases status with
      | fresh call cancelled => cases hresult
      | waiting frame wait signal => cases hresult
      | finished outcome => cases hcall
    | ended houtcome =>
      cases hresult
      exact houtcome result rfl
  · -- a late start is a step of a parse that is called off, and it is counted
    have hstarted := Service.parses?_of_startsLate hlate
    obtain ⟨-, request, wait, q, ht, hset, -⟩ := hlate
    have hsame := hunstarted pre t request hpre ⟨_, ht, rfl⟩ hset
    rw [Service.after_concat] at hsame
    exact hstarted hsame
  · obtain ⟨status, ht, hcall⟩ := hbusy
    have hbefore : pre <+: run := (List.prefix_append pre [.step t]).trans hpre
    obtain ⟨-, hsame | hlate⟩ :=
      (valid_after pre).called_off_step ht hcall hset (hanswer pre hbefore)
    · rw [Service.after_concat]
      exact hsame p
    · exact absurd hlate (hfair pre t hpre)

/-- A parser whose engine waits at a gate, and two parses with it. -/
def gatedParser : Service.Action :=
  .addParser { name := "Parser", language := "text", engine := { parsePause := .gate "parse" } }
    none

/-- Both parses are called off by one event, which is set when the first one has the engine and the
second one has not begun. -/
def calledOffInTime : List Service.Action :=
  [gatedParser, .spawn (.parse 0 { source := some "a", event := some "stop" }),
    .spawn (.parse 0 { source := some "b", event := some "stop" }), .step 0, .setEvent "stop",
    .step 1,
    .openGate "parse", .step 0]

/-- The second parse is not begun, and neither gives a tree. -/
theorem called_off_in_time :
    Unsuccessful 0 calledOffInTime ∧ Unstarted 0 calledOffInTime
      ∧ (Service.after calledOffInTime).parses? 0 = some 1
      ∧ (Service.after calledOffInTime).result? 0 = some (.error .cancelled)
      ∧ (Service.after calledOffInTime).result? 1 = some (.error .cancelled) := by
  obtain ⟨hunsuccessful, hunstarted⟩ :=
    called_off_iff calledOffInTime (p := 0) (.of_inits (by decide +kernel))
  refine ⟨hunsuccessful, hunstarted.mpr ?_, by decide +kernel, rfl, rfl⟩
  rintro pre t ⟨rest, hrun⟩ ⟨-, request, wait, q, ht, -⟩
  -- no parse ever queues for the engine
  have hstep : calledOffInTime[pre.length]? = some (.step t) := by rw [← hrun]; simp
  have hpre : pre = calledOffInTime.take pre.length := by rw [← hrun]; simp
  have hlt : pre.length < 8 := (List.getElem?_eq_some_iff.mp hstep).1
  generalize pre.length = n at hstep hpre hlt
  subst hpre
  interval_cases n <;> cases hstep <;> cases ht

/-- The second parse is called off while it queues for the engine. -/
def calledOffInQueue : List Service.Action :=
  [gatedParser, .spawn (.parse 0 { source := some "a" }),
    .spawn (.parse 0 { source := some "b", event := some "stop" }), .step 0, .step 1,
    .setEvent "stop",
    .openGate "parse", .step 0, .step 1]

/-- The second parse is begun all the same; its result is thrown away. -/
theorem begun_after_called_off :
    Unanswered 0 calledOffInQueue
      ∧ (Service.after (calledOffInQueue.take 8)).isSet (some "stop") = true
      ∧ (Service.after (calledOffInQueue.take 8)).parses? 0 = some 1
      ∧ (Service.after calledOffInQueue).parses? 0 = some 2
      ∧ (Service.after calledOffInQueue).result? 1 = some (.error .cancelled)
      ∧ ¬Unstarted 0 calledOffInQueue := by
  have hbefore : (Service.after (calledOffInQueue.take 8)).parses? 0 = some 1 := by decide +kernel
  have hafter : (Service.after (calledOffInQueue.take 8 ++ [.step 1])).parses? 0 = some 2 := by
    decide +kernel
  refine ⟨.of_inits (by decide +kernel),
    by decide +kernel, hbefore, hafter, rfl, fun hunstarted => ?_⟩
  have hsame := hunstarted (calledOffInQueue.take 8) 1 { source := some "b", event := some "stop" }
    (List.prefix_refl _) ⟨_, rfl, rfl⟩ (by decide +kernel)
  rw [hbefore, hafter] at hsame
  cases hsame

end SyntaxForest
