import SyntaxForest.Proofs.Lifecycle.Ownership
import SyntaxForest.Proofs.Service.Faults

/-!
# After a load has failed

A load that fails leads the parser back to its first stage, so that the next initialization loads
again. Lack of memory is the one fault that does not: it leaves the parser in the middle of an
initialization that nobody is in, where it stays until it is disposed of.

* **`RetryLaw`** — what callers may rely on: the parser is being initialized only while somebody
  initializes it, a load can be tried again, and no call reports a stage that cannot be reached.
* **`held_of_initializing`** — whoever initializes a parser holds its lock, unless memory ran out.
* **`retry_law_iff`** — the law holds if and only if memory has not run out during a load, or the
  parser has been disposed of since.
-/

namespace SyntaxForest

/-! ## The lock of an initialization -/

theorem InitPoint.load_of_hold {point : InitPoint} {p p' : ParserId}
    (h : .hold (.lifecycle p) ∈ point.duties p') : .load p ∈ point.duties p' := by
  cases point with
  | lock => cases h
  | load => simpa [InitPoint.duties] using h

theorem ParsePoint.load_of_hold {point : ParsePoint} {p p' : ParserId}
    (h : .hold (.lifecycle p) ∈ point.duties p') : .load p ∈ point.duties p' := by
  cases point with
  | init point => exact InitPoint.load_of_hold h
  | lock => cases h
  | engine => simp [ParsePoint.duties] at h

theorem GetPoint.load_of_hold {point : GetPoint} {r : RegistryId} {p : ParserId}
    (h : .hold (.lifecycle p) ∈ point.duties r) : .load p ∈ point.duties r := by
  cases point with
  | lock => cases h
  | init entry p' point =>
    rw [GetPoint.duties, List.mem_append] at h ⊢
    exact h.imp InitPoint.load_of_hold fun h => by simp at h

theorem Frame.load_of_hold {frame : Frame} {p : ParserId}
    (h : .hold (.lifecycle p) ∈ frame.duties) :
    .load p ∈ frame.duties := by
  -- a call holds the lock only at the point of an initialization, wherever it keeps this point
  cases frame with
  | init p' event point => exact InitPoint.load_of_hold h
  | «scoped» p' body point => exact InitPoint.load_of_hold h
  | parse p' request point => exact ParsePoint.load_of_hold h
  | getParser r language point => exact GetPoint.load_of_hold h
  | facade f goal request point =>
    cases point with
    | get point => exact GetPoint.load_of_hold h
    | parse p' point => exact ParsePoint.load_of_hold h

theorem InitPoint.eq_of_fits {point : InitPoint} {p p' : ParserId}
    (h : point.Fits p' (.lock (.lifecycle p))) : (p', point) = (p, .lock) := by
  cases point with
  | lock =>
    cases h
    rfl
  | load => exact absurd rfl (h _)

theorem ParsePoint.eq_of_fits {point : ParsePoint} {p p' : ParserId}
    (h : point.Fits p' (.lock (.lifecycle p))) : p' = p ∧ point = .init .lock := by
  cases point with
  | init point =>
    cases InitPoint.eq_of_fits h
    exact ⟨rfl, rfl⟩
  | lock => cases h
  | engine => exact absurd rfl (h _)

theorem GetPoint.not_fits {point : GetPoint} {r : RegistryId} {language : String} {p : ParserId} :
    ¬point.Fits r language (.lock (.lifecycle p)) := fun h => by
  cases point with
  | lock => cases h
  | init entry p' point =>
    obtain ⟨rfl, hfits, -⟩ := h
    exact hfits _ rfl

theorem Frame.initialization?_of_fits {frame : Frame} {p : ParserId}
    (h : frame.Fits (.lock (.lifecycle p))) : frame.initialization? = some (p, .lock) := by
  cases frame with
  | init p' event point => exact congrArg some (InitPoint.eq_of_fits h)
  | «scoped» p' body point => exact congrArg some (InitPoint.eq_of_fits h)
  | parse p' request point =>
    obtain ⟨rfl, rfl⟩ := ParsePoint.eq_of_fits h
    rfl
  | getParser r language point => exact absurd h GetPoint.not_fits
  | facade f goal request point =>
    cases point with
    | get point => exact absurd h GetPoint.not_fits
    | parse p' point =>
      obtain ⟨rfl, rfl⟩ := ParsePoint.eq_of_fits h
      rfl

namespace Service

theorem waiting_of_wait {s : Service} {u : TaskId} {wait : Wait} {signal : Option Signal}
    (h : (s.footing u).wait = some (wait, signal)) :
    ∃ frame, s.tasks[u]? = some (.waiting frame wait signal) := by
  rw [footing] at h
  cases hu : s.tasks[u]? with
  | none =>
    rw [hu] at h
    cases h
  | some status =>
    rw [hu] at h
    cases status with
    | fresh call cancelled => cases h
    | finished result => cases h
    | waiting frame wait' signal' =>
      cases h
      exact ⟨frame, rfl⟩

end Service

namespace Valid

variable {s : Service} {p : ParserId} {q : Parser}

/-- Nobody holds the lock of a parser that nobody initializes, or waits for it. -/
theorem lifecycle_free (h : Valid s) (hnobody : ∀ u point, ¬s.InitializesAt u p point) :
    (s.lock (.lifecycle p)).isFree = true := by
  have hlock := h.agreed.orderly.locks (.lifecycle p)
  -- a holder would be at the point of loading
  have hheld : (s.lock (.lifecycle p)).held = false := by
    rw [Bool.eq_false_iff]
    intro hheld
    obtain ⟨u, hu⟩ := hlock.held_iff.mp hheld
    obtain ⟨frame, wait, signal, hframe, hhold⟩ := Service.waiting_of_duty (Footing.mem_locks.mp hu)
    exact hnobody u .load
      ⟨frame, wait, signal, hframe, Frame.load_mem_duties.mp (Frame.load_of_hold hhold)⟩
  -- and whoever queues would be at the point of asking for the lock
  have hqueue : ∀ w ∈ (s.lock (.lifecycle p)).waiters, False := fun ⟨u, state⟩ hw => by
    obtain ⟨signal, hwait, -⟩ := hlock.waits hw
    obtain ⟨frame, hframe⟩ := Service.waiting_of_wait hwait
    exact hnobody u .lock
      ⟨frame, _, signal, hframe, Frame.initialization?_of_fits (h.fine hframe).1⟩
  rw [Lock.isFree, hheld, Bool.not_false, Bool.true_and, List.all_eq_true]
  exact fun w hw => (hqueue w hw).elim

theorem initializes_of_initializing (h : Valid s) (hp : s.parser? p = some q)
    (hmemory : q.tally.exhausted = 0) (hstage : q.stage = .initializing) :
    ∃ u, s.InitializesAt u p .load := by
  have hbusy := (h.agreed.lives.sound hp).busy hstage
  obtain ⟨u, hu⟩ := (h.agreed.lives.loading hp).mp (by omega)
  exact ⟨u, Service.load_mem_footing.mp hu⟩

/-- **Whoever initializes a parser holds its lock,** unless memory ran out. -/
theorem held_of_initializing (h : Valid s) (hp : s.parser? p = some q)
    (hmemory : q.tally.exhausted = 0) (hstage : q.stage = .initializing) :
    (s.lock (.lifecycle p)).held = true := by
  obtain ⟨u, hu⟩ := h.initializes_of_initializing hp hmemory hstage
  have hhold := ((h.agreed.lives.stacked u).of_load (Service.load_mem_footing.mpr hu)).1
  exact (h.agreed.orderly.locks (.lifecycle p)).held_iff.mpr ⟨u, Footing.mem_locks.mpr hhold⟩

end Valid

/-! ## Another load -/

@[simp] theorem Parser.loads_settleLoad (q : Parser) (result : Except Fault Unit) :
    (q.settleLoad result).tally.loads = q.tally.loads := by
  -- the stage is changed after the load has ended, and that counts no loads
  have hended : (q.endLoad result).tally.loads = q.tally.loads := by
    cases result with
    | ok _ => rfl
    | error fault =>
      rw [endLoad]
      split <;> rfl
  cases result with
  | ok _ =>
    rw [settleLoad]
    split <;> exact hended
  | error fault =>
    rw [settleLoad]
    split <;> exact hended

namespace Service

variable {s : Service} {t : TaskId} {p : ParserId} {q : Parser}

/-- A load that starts is counted, whether the engine is done with it at once or keeps the task
waiting. -/
theorem startLoad_loads (hp : s.parser? p = some q) (hstage : q.stage = .initializing)
    (parser : Parser) (event : Option String) :
    ∃ q', (s.startLoad t p parser event).1.parser? p = some q'
      ∧ q'.tally.loads = q.tally.loads + 1 := by
  have hp' := parser?_modifyParser_self hp Parser.startLoad
  -- neither a worker nor a gate touches the parsers
  have hpause : (s.modifyParser p Parser.startLoad).pauseAt t parser.engine.loadPause
        = (s.modifyParser p Parser.startLoad, none)
      ∨ ∃ s' wait, (s.modifyParser p Parser.startLoad).pauseAt t parser.engine.loadPause
          = (s', some wait) ∧ s'.parsers = (s.modifyParser p Parser.startLoad).parsers := by
    cases parser.engine.loadPause with
    | none => exact Or.inl rfl
    | worker => exact Or.inr ⟨_, _, rfl, rfl⟩
    | gate name =>
      rw [pauseAt]
      split
      · exact Or.inl rfl
      · exact Or.inr ⟨_, _, rfl, rfl⟩
  rw [startLoad]
  rcases hpause with heq | ⟨s', wait, heq, hparsers⟩
  · obtain ⟨s', hend, hquiet⟩ := endLoad_eq hp' (Or.inl hstage) event .proceed
    rw [heq]
    dsimp only
    rw [hend, leaveInit, parser?_release, hquiet.parser?, parser?_modifyParser_self hp']
    exact ⟨_, rfl, Parser.loads_settleLoad _ _⟩
  · rw [heq]
    refine ⟨q.startLoad, ?_, rfl⟩
    rw [parser?, hparsers]
    exact hp'

/-- An initialization that finds the lock free and no grammar loads one, if it was not called off
before. -/
theorem beginInit_loads (hp : s.parser? p = some q) (hstage : q.stage = .uninitialized)
    (hfree : (s.lock (.lifecycle p)).isFree = true) {event : Option String}
    (hset : s.isSet event = false) :
    ∃ q', (s.beginInit t p event).1.parser? p = some q' ∧ q'.tally.loads = q.tally.loads + 1 := by
  have hp' : (s.setLock (.lifecycle p) (s.lock (.lifecycle p)).take).parser? p = some q := hp
  have hbegin : s.beginInit t p event
      = (s.setLock (.lifecycle p) (s.lock (.lifecycle p)).take).initLocked t p event := by
    rw [beginInit, hp]
    simp only [Parser.isDisposed, Parser.isInitialized, hstage]
    rcases acquire_cases s (.lifecycle p) t with ⟨-, heq⟩ | ⟨hbusy, -⟩
    · rw [heq]
      rfl
    · rw [hfree] at hbusy
      cases hbusy
  rw [hbegin]
  -- with the lock, only an event that is set keeps an uninitialized parser from being loaded
  rcases initLocked_cases (t := t) hp' event with ⟨-, -, -, -, hcancelled⟩ | ⟨-, s', heq, hquiet, -⟩
  · have hset' : s.isSet event = true := hcancelled hstage
    rw [hset] at hset'
    cases hset'
  · rw [heq]
    have hp'' : s'.parser? p = some { q with stage := .initializing } := by
      rw [hquiet.parser?, parser?_modifyParser_self hp']
    exact startLoad_loads hp'' rfl q event

theorem step_init_loads (hp : s.parser? p = some q) (hstage : q.stage = .uninitialized)
    (hfree : (s.lock (.lifecycle p)).isFree = true) {event : Option String}
    (hset : s.isSet event = false) :
    ∃ q', ((s.spawn (.init p event)).1.step s.tasks.size).parser? p = some q'
      ∧ q'.tally.loads = q.tally.loads + 1 := by
  have hready : ((s.spawn (.init p event)).1.ready.contains s.tasks.size) = true := by simp [spawn]
  have htask : (s.spawn (.init p event)).1.tasks[s.tasks.size]?
      = some (.fresh (.init p event) false) := by
    simp [spawn]
  have hloads := beginInit_loads (t := s.tasks.size)
    (s := { (s.spawn (.init p event)).1 with
      ready := (s.spawn (.init p event)).1.ready.erase s.tasks.size }) hp hstage hfree hset
  rw [step, hready]
  simp only [Bool.not_true, Bool.false_eq_true, if_false, htask]
  rw [start, settleRun]
  split <;> exact hloads

end Service

/-! ## Faults of transition -/

namespace Valid

variable {s : Service} {t : TaskId} {p : ParserId} {q : Parser}

theorem stage_of_load (h : Valid s) (hp : s.parser? p = some q)
    (hload : s.InitializesAt t p .load) :
    q.stage = .initializing ∨ q.stage = .disposed := by
  obtain ⟨q', hq', hstage⟩ := h.agreed.lives.stage_of_load (Service.load_mem_footing.mpr hload)
  rw [hp, Option.some.injEq] at hq'
  exact hq' ▸ hstage

/-- An initialization reports a fault of transition only if the engine raised it, unless memory ran
out. The only other source is a parser found at the stage of initializing by somebody who has just
got the lock, and then nobody else is initializing it. -/
theorem init_fault (h : Valid s) (hp : s.parser? p = some q)
    (hmemory : q.tally.exhausted = 0 ∨ q.stage = .disposed) {event : Option String}
    {status : TaskStatus} (ht : s.tasks[t]? = some status)
    (hcall : status.call? = some (.init p event)) {e : Fault}
    (hresult : (s.step t).result? t = some (.error e)) (htransition : e.isTransition = true) :
    q.engine.load = .error e := by
  -- a parser that is being initialized has its lock held, so nobody else can come this far
  have hlocked : q.stage = .initializing → (s.lock (.lifecycle p)).held = false → False :=
    fun hstage hfree => by
      rcases hmemory with hzero | hdisposed
      · rw [h.held_of_initializing hp hzero hstage] at hfree
        cases hfree
      · cases hstage.symm.trans hdisposed
  -- the result comes from a cancellation, from the begin of the call, or from its going on
  rcases Service.result_of_step ht hcall hresult with
    hcancelled | ⟨-, hstep⟩ | ⟨frame, wait, signal, rfl, hframe, hstep⟩
  · cases hcancelled
    cases htransition
  · rw [hstep] at hresult
    obtain ⟨result, hrun, hfinish, -⟩ := Service.result?_settleRun hresult
    have hp' : ({ s with ready := s.ready.erase t } : Service).parser? p = some q := hp
    rcases Service.beginInit_fault hp' (error_of_map hfinish ▸ hrun) with hfault | ⟨hstage, hfree⟩
    · exact hfault.load_of_transition htransition
    · exact (hlocked hstage hfree).elim
  · cases frame with
    | init p' event' point =>
      cases hframe
      rw [hstep] at hresult
      obtain ⟨result, hrun, hfinish, -⟩ := Service.result?_settleRun hresult
      have hp' : (({ s with ready := s.ready.erase t } : Service).endWait t wait signal).parser? p
          = some q := by
        rw [Service.parser?_endWait]
        exact hp
      have hload : point = .load → q.stage = .initializing ∨ q.stage = .disposed := fun hpoint =>
        h.stage_of_load (t := t) hp ⟨_, _, _, ht, hpoint ▸ rfl⟩
      rcases Service.resumeInit_fault hp' hload (error_of_map hfinish ▸ hrun) with
        hfault | ⟨hstage, rfl, rfl⟩
      · exact hfault.load_of_transition htransition
      · -- a task that was woken finds the lock free
        have hwait : wait = .lock (.lifecycle p) := (h.fine ht).1
        subst hwait
        have hwoken : (s.footing t).wait = some (.lock (.lifecycle p), some .proceed) := by
          rw [Service.footing, ht]
          rfl
        exact (hlocked hstage ((h.agreed.orderly.locks _).woken_of_proceed hwoken).1).elim
    | _ => cases hframe

/-- A parse reports no fault of transition, unless the parser answers in place of an engine. A
failed initialization inside a parse is reported as a failed parse, not as a fault. -/
theorem parse_fault (h : Valid s) (hp : s.parser? p = some q) (hanswer : q.engine.answer = none)
    {request : ParseRequest} {status : TaskStatus} (ht : s.tasks[t]? = some status)
    (hcall : status.call? = some (.parse p request)) {e : Fault}
    (hresult : (s.step t).result? t = some (.error e)) : e.isTransition = false := by
  rcases Service.result_of_step ht hcall hresult with
    hcancelled | ⟨rfl, hstep⟩ | ⟨frame, wait, signal, rfl, hframe, hstep⟩
  · cases hcancelled
    rfl
  · have hp' : ({ s with ready := s.ready.erase t } : Service).parser? p = some q := hp
    have hoffers : ({ s with ready := s.ready.erase t } : Service).offers p = true :=
      h.fine ht p (List.mem_singleton_self p)
    rw [hstep] at hresult
    obtain ⟨result, hrun, hfinish, -⟩ := Service.result?_settleRun hresult
    exact Service.beginParse_clean hoffers hp' hanswer request e (error_of_map hfinish ▸ hrun)
  · cases frame with
    | parse p' request' point =>
      cases hframe
      obtain ⟨hfits, hclients⟩ := h.fine ht
      have hp' : (({ s with ready := s.ready.erase t } : Service).endWait t wait signal).parser? p
          = some q := by
        rw [Service.parser?_endWait]
        exact hp
      -- ending the wait changes no parser, so the parser is still one that callers may know
      have hlater : Later s (({ s with ready := s.ready.erase t } : Service).endWait
          t wait signal) :=
        .of_parsers (Service.parsers_endWait ..)
      have hoffers := Service.offers_of_later hlater (hclients p (List.mem_singleton_self p))
      have hload : point = .init .load → q.stage = .initializing ∨ q.stage = .disposed :=
        fun hpoint =>
          h.stage_of_load (t := t) hp ⟨_, _, _, ht, hpoint ▸ rfl⟩
      rw [hstep] at hresult
      obtain ⟨result, hrun, hfinish, -⟩ := Service.result?_settleRun hresult
      exact Service.resumeParse_clean hoffers hp' hfits hload request signal e
        (error_of_map hfinish ▸ hrun)
    | _ => cases hframe

end Valid

/-! ## The law -/

/-- What callers may rely on about the parser `p`, which is `q` at present. All points speak of the
service as it is, so the law can be asked of every moment of a run. -/
structure RetryLaw (s : Service) (p : ParserId) (q : Parser) : Prop where
  /-- The parser is being initialized only while a task loads its grammar. -/
  busy : q.stage = .initializing → ∃ u, s.InitializesAt u p .load
  settled : (∀ u point, ¬s.InitializesAt u p point) →
    q.stage = .uninitialized ∨ q.stage = .initialized ∨ q.stage = .disposed
  /-- Another initialization loads the grammar, once nobody is in the middle of one. -/
  retry : (∀ u point, ¬s.InitializesAt u p point) → q.stage ≠ .disposed → q.stage ≠ .initialized →
    ∀ event, s.isSet event = false →
      ∃ q', ((s.spawn (.init p event)).1.step s.tasks.size).parser? p = some q'
        ∧ q'.tally.loads = q.tally.loads + 1
  /-- An initialization reports a fault of transition only if the engine raised it. -/
  initFaults : ∀ t event status e, s.tasks[t]? = some status → status.call? = some (.init p event) →
    (s.step t).result? t = some (.error e) → e.isTransition = true → q.engine.load = .error e
  parseFaults : ∀ t request status e, s.tasks[t]? = some status →
    status.call? = some (.parse p request) → q.engine.answer = none →
    (s.step t).result? t = some (.error e) → e.isTransition = false
  /-- The parser can be disposed of. -/
  disposal : q.stage ≠ .disposed → ∃ s', s.moveParser p .disposed = .ok s'

namespace Valid

variable {s : Service} {p : ParserId} {q : Parser}

/-- The law holds as long as memory does not run out during a load. A disposal mends what a lack of
memory left behind, since it takes the parser to its last stage from wherever it is. -/
theorem retryLaw (h : Valid s) (hp : s.parser? p = some q)
    (hmemory : q.tally.exhausted = 0 ∨ q.stage = .disposed) : RetryLaw s p q := by
  have hbusy : q.stage = .initializing → ∃ u, s.InitializesAt u p .load := fun hstage => by
    rcases hmemory with hzero | hdisposed
    · exact h.initializes_of_initializing hp hzero hstage
    · cases hstage.symm.trans hdisposed
  have hidle : (∀ u point, ¬s.InitializesAt u p point) → q.stage ≠ .initializing :=
    fun hnobody hstage => by
      obtain ⟨u, hu⟩ := hbusy hstage
      exact hnobody u .load hu
  -- stages are split only after that of initializing has been excluded for want of a task
  refine ⟨hbusy, fun hnobody => ?_, fun hnobody hdisposed hinitialized event hset => ?_,
    fun t event status e ht hcall => h.init_fault hp hmemory ht hcall,
    fun t request status e ht hcall hanswer => h.parse_fault hp hanswer ht hcall,
    fun hdisposed => ?_⟩
  · cases hstage : q.stage with
    | uninitialized => exact Or.inl rfl
    | initializing => exact absurd hstage (hidle hnobody)
    | initialized => exact Or.inr (Or.inl rfl)
    | disposed => exact Or.inr (Or.inr rfl)
  · have hstage : q.stage = .uninitialized := by
      cases hstage : q.stage with
      | uninitialized => rfl
      | initializing => exact absurd hstage (hidle hnobody)
      | initialized => exact absurd hstage hinitialized
      | disposed => exact absurd hstage hdisposed
    exact Service.step_init_loads hp hstage (h.lifecycle_free hnobody) hset
  · exact ⟨_, Service.moveParser_ok hp (Service.disposable fun h =>
      hdisposed (of_decide_eq_true h))⟩

end Valid

/-- **When a failed load can be tried again.** Over every run, callers may rely on the retry law of
a parser if and only if memory has not run out during a load of its grammar, or the parser has been
disposed of since. -/
theorem retry_law_iff (run : List Service.Action) {p : ParserId} {q : Parser}
    (hq : (Service.after run).parser? p = some q) :
    RetryLaw (Service.after run) p q ↔ q.tally.exhausted = 0 ∨ q.stage = .disposed := by
  have hvalid := valid_after run
  refine ⟨fun hlaw => ?_, hvalid.retryLaw hq⟩
  -- with memory run out, the parser is in the middle of an initialization that nobody is in
  have hsound := hvalid.agreed.lives.sound hq
  have honce := hsound.once
  -- at every other stage the counts of a sound parser leave no room for a load without memory
  cases hstage : q.stage with
  | disposed => exact Or.inr rfl
  | uninitialized =>
    have hidle := hsound.idle hstage
    exact Or.inl (by omega)
  | initialized =>
    have hready := hsound.ready hstage
    exact Or.inl (by omega)
  | initializing =>
    obtain ⟨u, hu⟩ := hlaw.busy hstage
    have hloading := (hvalid.agreed.lives.loading hq).mpr ⟨u, Service.load_mem_footing.mpr hu⟩
    exact Or.inl (by omega)

/-- A load fails, the engine is mended, and the parser is initialized again. -/
def failedThenMended (fault : Fault) : List Service.Action :=
  [.addParser { name := "Parser", language := "text", engine := { load := .error fault } } none,
    .spawn (.init 0 none), .step 0, .setEngine 0 {}, .spawn (.init 0 none), .step 1]

/-- After a load that was called off the engine loads again, and the law holds. -/
theorem retry_law_after_failed_load :
    ∃ q, (Service.after (failedThenMended .cancelled)).parser? 0 = some q ∧ q.tally.loads = 2
      ∧ RetryLaw (Service.after (failedThenMended .cancelled)) 0 q := by
  have hq : (Service.after (failedThenMended .cancelled)).parser? 0
    = some ((Service.after (failedThenMended .cancelled)).parsers[0]) := rfl
  exact ⟨_, hq, rfl, (retry_law_iff _ hq).mpr (Or.inl rfl)⟩

/-- Once memory has run out during a load, an initialization with a mended engine loads nothing and
reports a fault of transition, while nobody initializes the parser. -/
theorem no_retry_after_lack_of_memory :
    ∃ q e, (Service.after (failedThenMended (.raised .outOfMemory []))).parser? 0 = some q
      ∧ q.stage = .initializing ∧ q.tally.loads = 1
      ∧ (∀ u point, ¬(Service.after (failedThenMended (.raised .outOfMemory []))).InitializesAt
        u 0 point)
      ∧ (Service.after (failedThenMended (.raised .outOfMemory []))).result? 1 = some (.error e)
      ∧ e.isTransition = true := by
  refine ⟨(Service.after (failedThenMended (.raised .outOfMemory []))).parsers[0],
    .ofText .badTransition "Parser cannot move from initializing to initializing",
    rfl, rfl, rfl, ?_, rfl, rfl⟩
  rintro u point ⟨frame, wait, signal, hu, -⟩
  have htasks : ∀ status ∈ (Service.after (failedThenMended (.raised .outOfMemory []))).tasks,
      status.call? = none := by decide
  exact by cases htasks _ (Array.mem_of_getElem? hu)

end SyntaxForest
