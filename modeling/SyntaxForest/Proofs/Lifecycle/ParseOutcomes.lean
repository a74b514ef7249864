import SyntaxForest.Proofs.Forest.Trees
import SyntaxForest.Proofs.Lifecycle.Cancellation

/-!
# What a parse comes to

A parse may have to initialize its parser, to wait for the engine, and to make a tree of what the
engine returns. All that goes wrong on the way comes back to the caller as a failed result that
names the file and the language, save for disposal, lack of memory and cancellation, which are
raised. Interruptions and failures that cannot be written stray: callers of a parse are raised
faults of which they have not heard.

* **`Worded`**, **`Service.Named`** — no task waits in a parse of an empty source, and no parser is
  for a language without a name. So a tree can be made of whatever has a root.
* **`ParsePoint.rank`** — the waits of a parse come in a fixed order, so that there are at most four
  of them.
* **`Service.Engages`** — an engine that is set to work and gets done in one step finds its parser
  initialized.
* **`Service.Turn`**, **`Service.Comes`** — how a parse runs in a step, and what the run comes to.
* **`Service.Meets`** — the fault of an initialization or of the engine that a parse meets in a
  step.
* **`parse_law_iff`** — what a step does to a parse, in every state of the service, if and only if
  no fault strays.
-/

namespace SyntaxForest

/-! ## Trees -/

namespace Service

variable {s s' : Service} {t : TaskId} {p : ParserId} {q : Parser} {request : ParseRequest}

/-- **A tree can be made** of a forest that has a root, for a parse of a text by a parser for a
language. -/
theorem exists_treeOf {forest : Forest} (hroot : forest.Has 0)
    (hsource : ParseRequest.isEmpty request = false) (hlanguage : q.language ≠ "") :
    ∃ tree, treeOf q request forest = .ok tree := by
  -- the root has id zero, and making a tree freezes nodes but takes none away
  have hsize : forest.size ≠ 0 := by
    obtain ⟨node, hnode⟩ := hroot.exists_get?
    rw [Forest.get?] at hnode
    intro hzero
    rw [Array.getElem?_eq_none (Nat.le_of_eq hzero)] at hnode
    cases hnode
  obtain ⟨root, hview⟩ :=
    Forest.exists_view? ((forest.sameNodes_freeze 0).sameLinks.has_iff.mpr hroot)
  rw [treeOf, if_neg hsize]
  unfold SyntaxTree.make
  cases hsome : request.source with
  | none => simp [ParseRequest.isEmpty, hsome] at hsource
  | some source =>
    simp only [if_neg hlanguage, hview]
    exact ⟨_, rfl⟩

/-- The tree carries what the request and the parser say: the text, the file and the language that
were asked for, whatever the forest is. -/
theorem carries_of_treeOf {forest : Forest} {tree : SyntaxTree}
    (h : treeOf q request forest = .ok tree) :
    request.source = some tree.source ∧ tree.file = request.file ∧ tree.language = q.language := by
  rw [treeOf] at h
  unfold SyntaxTree.make at h
  -- every refusal on the way gives a fault, so only the last branch is left
  split at h
  · cases h
  · split at h
    · cases h
    · rename_i source hsource
      split at h
      · cases h
      · rename_i language hlanguage
        split at h
        · cases h
        · dsimp only at h
          split at h
          · cases h
            exact ⟨hsource, rfl, (Option.some.inj hlanguage).symm⟩
          · cases h

end Service

/-! ## No parse of an empty source waits -/

/-- If the task waits in a parse, there is a text to parse. -/
def TaskStatus.Worded : TaskStatus → Prop
  | .waiting (.parse _ request _) _ _ => Service.ParseRequest.isEmpty request = false
  | _ => True

theorem TaskStatus.Worded.alike {a b : TaskStatus} (h : a.Worded) (hab : a.Alike b) : b.Worded := by
  cases hab with
  | fresh call before now => trivial
  | waiting frame wait before now => cases frame <;> exact h
  | finished result => trivial

namespace Service

variable {s s' : Service} {t : TaskId} {p : ParserId} {q : Parser} {request : ParseRequest}

theorem worded_settleRun {π α : Type} {frame : π → Frame}
    {finish : Service → Except Fault α → Service × Except Fault Outcome} {y : Service × Run π α}
    {status : TaskStatus} (ht : (settleRun t frame finish y).tasks[t]? = some status)
    (h : ∀ point wait, y.2 = .waiting point wait →
      (TaskStatus.waiting (frame point) wait none).Worded) :
    status.Worded := by
  obtain ⟨s₁, run⟩ := y
  cases run with
  | waiting point wait =>
    rw [status_of_setTask ht]
    exact h point wait rfl
  | finished result =>
    rw [status_of_setTask ht]
    trivial

theorem beginParse_worded {point : ParsePoint} {wait : Wait}
    (h : (s.beginParse t p request).2 = .waiting point wait) :
    ParseRequest.isEmpty request = false := by
  rw [beginParse] at h
  split at h
  · cases h
  · split at h
    · cases h
    · split at h
      · cases h
      · split at h
        · cases h
        · rename_i hempty
          exact Bool.eq_false_iff.mpr hempty

/-- A step keeps the task in order. Only the begin of a parse can bring it to a first wait in one,
and from there on it keeps its request. -/
theorem worded_step {status : TaskStatus} (ht : s.tasks[t]? = some status) (hworded : status.Worded)
    {status' : TaskStatus} (ht' : (s.step t).tasks[t]? = some status') : status'.Worded := by
  have hsame : ∀ {s'' : Service}, s''.tasks = s.tasks → s''.tasks[t]? = some status' →
      status'.Worded := fun htasks hu => by
    rw [htasks, ht, Option.some.injEq] at hu
    exact hu ▸ hworded
  -- only the two lines about parses have anything to show
  by_cases hready : t ∈ s.ready
  · cases status with
    | finished result =>
      rw [step_of_finished ht, Option.some.injEq] at ht'
      exact ht' ▸ trivial
    | fresh call cancelled =>
      cases cancelled with
      | true =>
        rw [step_of_cancelled hready ht] at ht'
        rw [status_of_setTask ht']
        trivial
      | false =>
        rw [step_of_fresh hready ht] at ht'
        cases call with
        | parse p request => exact worded_settleRun ht' fun _ _ hwait => beginParse_worded hwait
        | init p event => exact worded_settleRun ht' fun _ _ _ => trivial
        | «scoped» p body => exact worded_settleRun ht' fun _ _ _ => trivial
        | getParser r language => exact worded_settleRun ht' fun _ _ _ => trivial
        | facade f goal request => exact worded_settleRun ht' fun _ _ _ => trivial
    | waiting frame wait signal =>
      cases signal with
      | none => exact hsame (by rw [step_of_unsignalled hready ht]) ht'
      | some signal =>
        rw [step_of_waiting hready ht] at ht'
        cases frame with
        | parse p request point => exact worded_settleRun ht' fun _ _ _ => hworded
        | init p event point => exact worded_settleRun ht' fun _ _ _ => trivial
        | «scoped» p body point => exact worded_settleRun ht' fun _ _ _ => trivial
        | getParser r language point => exact worded_settleRun ht' fun _ _ _ => trivial
        | facade f goal request point => exact worded_settleRun ht' fun _ _ _ => trivial
  · exact hsame (by rw [step_of_not_ready hready]) ht'

end Service

/-- A task was there before, or it has not begun. -/
theorem Happening.task_earlier {s s' : Service} {a : Service.Action} (h : Happening s a s')
    {u : TaskId} {status : TaskStatus} (hu : s'.tasks[u]? = some status) :
    (∃ status', s.tasks[u]? = some status') ∨ ∃ call, status = .fresh call false := by
  cases h with
  | changes h => exact Or.inl ⟨status, h.tasks ▸ hu⟩
  | waits hothers =>
    obtain ⟨status', hu', -⟩ := hothers.earlier hu
    exact Or.inl ⟨status', hu'⟩
  | addParser => exact Or.inl ⟨status, hu⟩
  | setEngine p engine => exact Or.inl ⟨status, hu⟩
  -- this is the one action that makes a task, and it makes a fresh one
  | spawn =>
    rw [Service.task_spawn] at hu
    split at hu
    · cases hu
      exact Or.inr ⟨_, rfl⟩
    · exact Or.inl ⟨status, hu⟩
  | step hquiet _ h =>
    obtain ⟨s₁, last, rfl, hdeals, -⟩ := h
    have hlt : u < s₁.tasks.size := by
      have := (Array.getElem?_eq_some_iff.mp hu).1
      rwa [Service.setTask, Array.size_modify] at this
    obtain ⟨status', hu', -⟩ := hdeals.undisturbed.earlier (Array.getElem?_eq_getElem hlt)
    exact Or.inl ⟨status', hquiet.tasks ▸ hu'⟩

/-- **No task waits in a parse of an empty source**, throughout a run. -/
theorem worded_after (run : List Service.Action) {u : TaskId} {status : TaskStatus}
    (hu : (Service.after run).tasks[u]? = some status) : status.Worded := by
  induction run using List.reverseRecOn generalizing status with
  | nil => cases hu
  | append_singleton run a ih =>
    rw [Service.after_concat] at hu
    have hvalid := valid_after run
    rcases (hvalid.happening a).task_earlier hu with ⟨before, hbefore⟩ | ⟨call, rfl⟩
    · -- a task moves on in its own steps only; others can at most wake or cancel it
      obtain ⟨last, hlast⟩ := hvalid.exists_task_step hbefore
      obtain ⟨status', hu', hworded⟩ := hvalid.task_act (fun h => h.alike) hbefore (ih hbefore)
        ⟨last, hlast, Service.worded_step hbefore (ih hbefore) hlast⟩ a
      rw [hu, Option.some.injEq] at hu'
      exact hu' ▸ hworded
    · trivial

/-- Every parser is for a language that has a name, throughout a run. -/
theorem named_after (run : List Service.Action) : (Service.after run).Named := by
  induction run using List.reverseRecOn with
  | nil =>
    intro p q hp
    cases hp
  | append_singleton run a ih =>
    rw [Service.after_concat]
    cases houtside : a.isOutside with
    | false =>
      obtain ⟨marks, heffects, -⟩ := (Service.after run).act_effects houtside
      exact heffects.named ih
    -- what the outside does to a service is not among the effects, so it is looked at by itself
    | true =>
      intro p q hp
      cases a with
      | setEngine p' engine =>
        -- another engine is put in, for the same language
        rcases Service.parser?_of_modifyParser hp with ⟨rfl, q', hq', rfl⟩ | ⟨-, hq⟩
        · exact @ih p' q' hq'
        · exact ih hq
      | addCollector => exact ih hp
      | setEvent event => exact ih hp
      | clearEvent event => exact ih hp
      | setNative reply => exact ih hp
      | _ => cases houtside

/-! ## The order of the waits -/

/-- The waits of a parse that may still come after a wait at this point. -/
def ParsePoint.rank : ParsePoint → Nat
  | .init .lock => 3
  | .init .load => 2
  | .lock => 1
  | .engine => 0

theorem ParsePoint.rank_lt (point : ParsePoint) : point.rank < 4 := by
  cases point with
  | init point => cases point <;> decide
  | lock => decide
  | engine => decide

namespace Service

variable {s : Service} {t : TaskId} {p : ParserId} {q : Parser} {request : ParseRequest}
  {point : ParsePoint} {wait : Wait}

theorem ParseEnds.finished {u : Fault → Prop} {l : Leave} {marks : List EngineMark}
    {x : Except Fault Forest} {y : Service × Run ParsePoint (ParseResult SyntaxTree)}
    (h : ParseEnds u l q request s marks (some x) y) :
    ∃ result, y.2 = .finished result := by
  cases h <;> exact ⟨_, rfl⟩

theorem endEngine_not_waiting (s : Service) (p : ParserId) (q : Parser) (request : ParseRequest)
    (result : Except Fault Forest) : (s.endEngine p q request result).2 ≠ .waiting point wait := by
  obtain ⟨last, hlast⟩ :=
    (endEngine_ends (u := fun _ => False) (l := noLeave) s p q request result).finished
  rw [hlast]
  exact fun h => by cases h

theorem parseLocked_waiting (h : (s.parseLocked t p request).2 = .waiting point wait) :
    point = .engine := by
  rw [parseLocked] at h
  split at h
  · cases h
  · split at h
    · cases h
    · dsimp only at h
      split at h
      · exact absurd h (endEngine_not_waiting _ _ _ _ _)
      · split at h
        · cases h
          rfl
        · exact absurd h (endEngine_not_waiting _ _ _ _ _)

theorem parseReady_waiting (h : (s.parseReady t p request).2 = .waiting point wait) :
    point.rank ≤ 1 := by
  rw [parseReady] at h
  split at h
  · cases h
  · split at h
    · rw [parseLocked_waiting h]
      decide
    · cases h
      decide

theorem parseInitialized_waiting {run : Run InitPoint Unit}
    (h : (s.parseInitialized t p request run).2 = .waiting point wait) :
    (∃ point', run = .waiting point' wait ∧ point = .init point') ∨ point.rank ≤ 1 := by
  cases run with
  | waiting point' wait' =>
    cases h
    exact Or.inl ⟨point', rfl, rfl⟩
  | finished result =>
    cases result with
    | ok _ => exact Or.inr (parseReady_waiting h)
    | error fault =>
      rw [parseInitialized] at h
      split at h
      · cases h
      · split at h <;> cases h

/-- **Each wait of a parse comes after the one before it.** The ranks go down, so four of them are
enough for any parse, however many tasks use the parser. -/
theorem resumeParse_waiting (hp : s.parser? p = some q)
    (hload : point = .init .load → q.stage = .initializing ∨ q.stage = .disposed) {signal : Signal}
    {point' : ParsePoint} (h : (s.resumeParse t p request point signal).2 = .waiting point' wait) :
    point'.rank < point.rank := by
  -- one case for each wait, from the first to the last
  cases point with
  | init point =>
    cases point with
    | lock =>
      rcases parseInitialized_waiting h with ⟨last, hrun, rfl⟩ | hlow
      · cases signal with
        | cancel => cases hrun
        | proceed =>
          rw [initLocked_waiting hp hrun]
          decide
      · exact Nat.lt_of_le_of_lt hlow (by decide)
    | load =>
      -- after the load the initialization is over, and does not wait again
      rcases parseInitialized_waiting h with ⟨last, hrun, rfl⟩ | hlow
      · obtain ⟨ended, heq, -⟩ := endLoad_eq hp (hload rfl) request.event signal
        have hrun : (s.endLoad p request.event signal).2 = .waiting last wait := hrun
        rw [heq] at hrun
        cases hrun
      · exact Nat.lt_of_le_of_lt hlow (by decide)
  | lock =>
    cases signal with
    | cancel => cases h
    | proceed =>
      rw [parseLocked_waiting h]
      decide
  | engine =>
    rw [resumeParse, hp] at h
    exact absurd h (endEngine_not_waiting _ _ _ _ _)

/-! ## What the engine finds -/

/-- If the engine gets done in the run, it was set to work in it, replied what the engine of `q`
replies now, and the parser is initialized at the end. -/
def Engages (s : Service) (p : ParserId) (q : Parser) (request : ParseRequest)
    (marks : List EngineMark) (given : Option (Except Fault Forest)) (s' : Service) : Prop :=
  ∀ x, given = some x → marks = [.began p] ∧ x = s.engineResult q request .proceed
    ∧ ∃ q', s'.parser? p = some q' ∧ q'.stage = .initialized

variable {u : Fault → Prop} {marks : List EngineMark} {given : Option (Except Fault Forest)}

theorem engineResult_of_native {s₀ : Service} (h : s₀.native = s.native) (q : Parser)
    (request : ParseRequest) (signal : Signal) :
    s₀.engineResult q request signal = s.engineResult q request signal := by
  cases signal with
  | proceed => rw [engineResult, engineResult, h]
  | cancel => rfl

theorem Begins.engages {mid s' : Service} {q' : Parser} (h : Begins mid p q' request marks given)
    (hsame : q.Same q') (hnative : mid.native = s.native) (hsound : q'.Sound)
    (hinit : given ≠ none → q'.stage = .initialized)
    (hlast : given ≠ none → ∃ q'', s'.parser? p = some q'' ∧ q''.stage = .initialized) :
    Engages s p q request marks given s' := by
  intro x hx
  obtain ⟨hmarks, hreply, -⟩ := h x hx
  have hgiven : given ≠ none := hx ▸ Option.some_ne_none x
  have hgrammar : q'.grammarLoaded = true := by
    rw [hsound.grammar, Parser.isInitialized, hinit hgiven]; rfl
  refine ⟨hmarks, ?_, hlast hgiven⟩
  rw [hreply, reply, hgrammar, engineResult_of_native hnative, engineResult, engineResult,
    hsame.engine]
  simp

theorem parseReady_initialized (hp : s.parser? p = some q) (hinit : q.stage = .initialized)
    (request : ParseRequest) :
    ∃ q', (s.parseReady t p request).1.parser? p = some q' ∧ q'.stage = .initialized := by
  obtain ⟨marks, given, hends, hbegins⟩ :=
    parseReady_ends (u := fun _ => False) (l := noLeave) (t := t) hp request
  obtain ⟨marks', heffects, -⟩ := hends.effects hp (hbegins.heard (.refl q) rfl)
  exact heffects.initialized hp hinit id

theorem GetsReady.engages {mid : Service × Run InitPoint Unit}
    {y : Service × Run ParsePoint (ParseResult SyntaxTree)} {q' : Parser}
    (h : GetsReady mid t p request marks given y q') (heffects : Effects noLeave [] s mid.1)
    (hp : s.parser? p = some q) (hsound : q'.Sound)
    (hok : mid.2 = .finished (.ok ()) → ∃ q', mid.1.parser? p = some q' ∧ q'.stage = .initialized) :
    Engages s p q request marks given y.1 := by
  obtain ⟨q'', hq'', hsame, -⟩ := heffects.same hp
  cases h.parser.symm.trans hq''
  -- the engine gets done only if the initialization had succeeded
  have hinit : given ≠ none → q'.stage = .initialized := fun hgiven => by
    obtain ⟨q'', hq'', hinit⟩ := hok (h.ready hgiven).1
    cases h.parser.symm.trans hq''
    exact hinit
  refine h.begins.engages hsame heffects.surroundings.2 hsound hinit fun hgiven => ?_
  rw [(h.ready hgiven).2]
  exact parseReady_initialized h.parser (hinit hgiven) request

/-- **A parse that begins**: how it ends, and what the engine finds if it gets done in the same
run. -/
theorem beginParse_engages (ha : Agreed s (s.standing t ⟨[], none⟩)) (hoffers : s.offers p = true)
    (hp : s.parser? p = some q) (hanswer : q.engine.answer = none) (request : ParseRequest)
    (hu : ∀ {e}, ParseRequest.isEmpty request = false →
      (s.beginInit t p request.event).2 = .finished (.error e) → u e) :
    ∃ marks given, ParseEnds u noLeave q request s marks given (s.beginParse t p request)
      ∧ (given ≠ none → ParseRequest.isEmpty request = false)
      ∧ Engages s p q request marks given (s.beginParse t p request).1 := by
  obtain ⟨marks, given, hends, hworded, ⟨hinit, hbegins⟩ | ⟨q', hready⟩⟩ :=
    beginParse_ends (l := noLeave) (t := t) hp hanswer request hu
  · obtain ⟨marks', heffects, -⟩ := hends.effects hp (hbegins.heard (.refl q) rfl)
    exact ⟨marks, given, hends, hworded, hbegins.engages (.refl q) rfl (ha.lives.sound hp)
      (fun _ => hinit) fun _ =>
      heffects.initialized hp hinit id⟩
  -- the parser had to be initialized, after which it is sound as it was before
  · have hagreed := Agreed.deals (beginInit_moves (t := t) hp request.event (D := [])
      (Or.inl hoffers)).deals ha
    exact ⟨marks, given, hends, hworded, hready.engages (beginInit_effects ..)
      hp (hagreed.lives.sound hready.parser)
      (beginInit_ends hp request.event).ok⟩

/-- **A parse that goes on**: if it waited for the engine this is done now, and otherwise the engine
may be set to work and get done in this run, as in the run of a parse that begins. -/
theorem resumeParse_engages (hfits : point.Fits p wait) {signal : Signal}
    (ha : Agreed s (s.standing t ⟨resumed (point.duties p) wait signal, none⟩))
    (hoffers : s.offers p = true) (hp : s.parser? p = some q)
    (hload : point = .init .load → q.stage = .initializing ∨ q.stage = .disposed)
    (hsettled : point = .lock → q.isSettled = true) (request : ParseRequest)
    (hu : ∀ {point' e}, point = .init point' →
      (s.resumeInit t p request.event point' signal).2 = .finished (.error e) → u e) :
    ∃ marks given, ParseEnds u noLeave q request s marks given
      (s.resumeParse t p request point signal)
      ∧ (point = .engine → marks = [] ∧ given = some (s.engineResult q request signal))
      ∧ (point ≠ .engine →
        Engages s p q request marks given (s.resumeParse t p request point signal).1) := by
  obtain ⟨marks, given, hends, hinitial, hlock, hengine⟩ :=
    resumeParse_ends (l := noLeave) (t := t) hp request point signal hu
  refine ⟨marks, given, hends, hengine, fun hnot => ?_⟩
  cases point with
  | engine => exact absurd rfl hnot
  | init point =>
    have hload' : point = .load → q.stage = .initializing ∨ q.stage = .disposed :=
      fun h => hload (h ▸ rfl)
    obtain ⟨q', hready⟩ := hinitial point rfl
    have hmoves := resumeInit_moves (t := t) hp hfits hload' request.event signal
      (D := []) (Or.inl hoffers)
    rw [List.append_nil] at hmoves
    exact hready.engages (resumeInit_effects ..) hp
      ((Agreed.deals hmoves.deals ha).lives.sound hready.parser)
      (resumeInit_ok hp hload' request.event signal)
  | lock =>
    -- a parse queues for the engine of an initialized parser, which may have been disposed of
    -- meanwhile
    have hbegins := hlock rfl
    have hinit : given ≠ none → q.stage = .initialized := fun hgiven => by
      obtain ⟨x, hx⟩ := Option.ne_none_iff_exists'.mp hgiven
      have hdisposed := (hbegins x hx).2.2
      have hover := hsettled rfl
      simpa [Parser.isSettled, Parser.isInitialized, Parser.isDisposed, hdisposed] using hover
    obtain ⟨marks', heffects, -⟩ := hends.effects hp (hbegins.heard (.refl q) rfl)
    exact hbegins.engages (.refl q) rfl (ha.lives.sound hp) hinit fun hgiven =>
      heffects.initialized hp (hinit hgiven) id

/-- An engine that gets done leaves the stage of its parser alone. -/
theorem endEngine_parser? (hp : s.parser? p = some q) (q₀ : Parser) (request : ParseRequest)
    (result : Except Fault Forest) :
    (s.endEngine p q₀ request result).1.parser? p = some q.endParse := by
  have hfree : ((s.modifyParser p Parser.endParse).release (.parsing p)).parser? p
      = some q.endParse := by
    rw [parser?_release, parser?_modifyParser_self hp]
  cases result with
  | error fault =>
    obtain ⟨-, -, hquiet⟩ :=
      failEngine_quiet ((s.modifyParser p Parser.endParse).release (.parsing p)) q₀ request fault
    rw [endEngine, hquiet.parser?, hfree]
  | ok forest =>
    obtain ⟨-, -, hquiet⟩ :=
      finishEngine_quiet ((s.modifyParser p Parser.endParse).release (.parsing p)) q₀ request forest
    rw [endEngine, hquiet.parser?, hfree]

end Service

/-! ## Turns of a parse -/

namespace TaskStatus

/-- The waits of a parse that may still come. -/
def rank : TaskStatus → Nat
  | .waiting (.parse _ _ point) _ _ => point.rank
  | _ => 4

/-- The task has something to do in its turn. -/
def isAwake : TaskStatus → Bool
  | .fresh _ _ => true
  | .waiting _ _ signal => signal.isSome
  | .finished _ => false

/-- The task is in a parse whose engine is at work. -/
def isEngaged : TaskStatus → Bool
  | .waiting (.parse _ _ .engine) _ _ => true
  | _ => false

theorem of_isEngaged {status : TaskStatus} {p : ParserId} {request : ParseRequest}
    (h : status.isEngaged = true) (hawake : status.isAwake = true)
    (hcall : status.call? = some (.parse p request)) :
    ∃ wait signal, status = .waiting (.parse p request .engine) wait (some signal) := by
  cases status with
  | fresh call cancelled => cases h
  | finished result => cases h
  | waiting frame wait signal =>
    obtain ⟨signal, rfl⟩ := Option.isSome_iff_exists.mp hawake
    cases frame with
    | parse p' request' point =>
      cases point with
      | engine =>
        cases hcall
        exact ⟨wait, signal, rfl⟩
      | init point => cases h
      | lock => cases h
    | _ => cases hcall

end TaskStatus

namespace Service

/-- The engine of `q` gets done with the parse of the task in the next step, and this is its reply.
Either it has been at work, or it is set to work in the step in which the parse ends. -/
inductive Replies (s : Service) (t : TaskId) (p : ParserId) (q : Parser) (request : ParseRequest) :
    Except Fault Forest → Prop
  | waited {wait : Wait} {signal : Signal} (hready : t ∈ s.ready)
      (ht : s.tasks[t]? = some (.waiting (.parse p request .engine) wait (some signal))) :
      Replies s t p q request (s.engineResult q request signal)
  | atOnce (hends : ((s.step t).result? t).isSome = true)
      (hbegun : (s.step t).parses? p ≠ s.parses? p) :
      Replies s t p q request (s.engineResult q request .proceed)

theorem Replies.eq {s : Service} {t : TaskId} {p : ParserId} {q : Parser} {request : ParseRequest}
    {reply : Except Fault Forest} (h : s.Replies t p q request reply) :
    reply = .error .cancelled ∨ reply = s.engineResult q request .proceed := by
  cases h with
  | atOnce => exact Or.inr rfl
  | @waited wait signal _ _ =>
    cases signal with
    | proceed => exact Or.inr rfl
    | cancel => exact Or.inl rfl

/-- The initialization that the parse of the task runs in the next step ends with this fault. It may
begin in the step, or go on from where it waited. -/
inductive Unready (s : Service) (t : TaskId) (p : ParserId) (request : ParseRequest) : Fault → Prop
  | begins {e : Fault} (hready : t ∈ s.ready)
      (ht : s.tasks[t]? = some (.fresh (.parse p request) false))
      (htext : ParseRequest.isEmpty request = false)
      (h : (({ s with ready := s.ready.erase t } : Service).beginInit t p request.event).2
        = .finished (.error e)) :
      Unready s t p request e
  | goesOn {point : InitPoint} {wait : Wait} {signal : Signal} {e : Fault} (hready : t ∈ s.ready)
      (ht : s.tasks[t]? = some (.waiting (.parse p request (.init point)) wait (some signal)))
      (h : ((({ s with ready := s.ready.erase t } : Service).endWait t wait signal).resumeInit
        t p request.event point signal).2 = .finished (.error e)) :
      Unready s t p request e

/-- **The parse of the task meets this fault in the next step**: its initialization ends with it, or
the engine of `q` raises it. -/
def Meets (s : Service) (t : TaskId) (p : ParserId) (q : Parser) (request : ParseRequest)
    (e : Fault) : Prop :=
  s.Unready t p request e ∨ s.Replies t p q request (.error e)

/-- **A turn of a parse** in which the task runs, with what the engine gives in it. The structure
gathers what the rest of the module needs to know about a run: how it ends, that it waits in order,
and what the engine gives, after a wait or at once. -/
structure Turn (s : Service) (t : TaskId) (status : TaskStatus) (p : ParserId) (q : Parser)
    (request : ParseRequest) (marks : List EngineMark) (given : Option (Except Fault Forest))
    (y : Service × Run ParsePoint (ParseResult SyntaxTree)) :
    Prop where
  ready : t ∈ s.ready
  awake : status.isAwake = true
  step : s.step t = settleRun t (.parse p request) finishParse y
  ends : ParseEnds (s.Unready t p request) noLeave q request s marks given y
  order : ∀ {point wait}, y.2 = .waiting point wait → point.rank < status.rank
  worded : given ≠ none → ParseRequest.isEmpty request = false
  waited : ∀ {wait signal}, status = .waiting (.parse p request .engine) wait (some signal) →
    marks = [] ∧ given = some (s.engineResult q request signal) ∧ y.1.parser? p = some q.endParse
  atOnce : status.isEngaged = false → Engages s p q request marks given y.1

theorem Engages.of_native {s₀ s s' : Service} {p : ParserId} {q : Parser} {request : ParseRequest}
    {marks : List EngineMark} {given : Option (Except Fault Forest)}
    (h : Engages s₀ p q request marks given s') (hnative : s₀.native = s.native) :
    Engages s p q request marks given s' := by
  intro x hx
  rw [← engineResult_of_native hnative]
  exact h x hx

end Service

namespace Valid

variable {s : Service} {t : TaskId} {p : ParserId} {q : Parser} {request : ParseRequest}

theorem stage_of_loading (h : Valid s) {wait : Wait} {signal : Option Signal}
    (ht : s.tasks[t]? = some (.waiting (.parse p request (.init .load)) wait signal))
    (hp : s.parser? p = some q) :
    q.stage = .initializing ∨ q.stage = .disposed := by
  have hduty : .load p ∈ (s.footing t).duties := by
    rw [Service.footing, ht]
    exact List.mem_cons_self ..
  obtain ⟨q', hq', hstage⟩ := h.agreed.lives.stage_of_load hduty
  rw [hp, Option.some.injEq] at hq'
  exact hq' ▸ hstage

/-- **The turn in which a parse begins.** -/
theorem turn_fresh (h : Valid s) (hready : t ∈ s.ready)
    (ht : s.tasks[t]? = some (.fresh (.parse p request) false)) (hp : s.parser? p = some q)
    (hanswer : q.engine.answer = none) :
    ∃ marks given y, s.Turn t (.fresh (.parse p request) false) p q request marks given y := by
  -- out of the queue, the task has no duties yet, and nobody else has changed
  have ha : Agreed { s with ready := s.ready.erase t }
      (({ s with ready := s.ready.erase t } : Service).standing t ⟨[], none⟩) := by
    rw [Service.standing_eq_footing (by rw [Service.footing, ht]; rfl)]
    exact (h.unqueue t).agreed
  have hunready : ∀ {e}, Service.ParseRequest.isEmpty request = false →
      (({ s with ready := s.ready.erase t } : Service).beginInit t p request.event).2
        = .finished (.error e) →
      s.Unready t p request e := .begins hready ht
  obtain ⟨marks, given, hends, hworded, hengages⟩ := Service.beginParse_engages ha
    (h.fine ht p (List.mem_singleton.mpr rfl)) hp hanswer request hunready
  have hbefore : Effects noLeave [] s { s with ready := s.ready.erase t } := .idle rfl rfl rfl
  refine ⟨marks, given, _, hready, rfl, Service.step_of_fresh hready ht,
    hends.after hbefore (.refl q) (Or.inl rfl),
    fun _ => ParsePoint.rank_lt _, hworded, fun heq => ?_, fun _ => hengages.of_native rfl⟩
  cases heq

/-- **A turn in which a parse goes on.** What the parse finds is settled by its duties: with the
load to end, the parser is at a stage of loads, and in the queue for the engine it is past its
initialization. -/
theorem turn_waiting (h : Valid s) (hready : t ∈ s.ready) {point : ParsePoint} {wait : Wait}
    {signal : Signal}
    (ht : s.tasks[t]? = some (.waiting (.parse p request point) wait (some signal)))
    (hworded : Service.ParseRequest.isEmpty request = false) (hp : s.parser? p = some q) :
    ∃ marks given y, s.Turn t (.waiting (.parse p request point) wait (some signal))
      p q request marks given y := by
  obtain ⟨hfits, hclients⟩ := h.fine ht
  have hlock : point = .lock → q.isSettled = true := by
    rintro rfl
    have hknows : s.Knows (.parsing p) := h.agreed.lives.waits (u := t) (by
      rw [Service.footing, ht, hfits]
      rfl)
    obtain ⟨q', hq', hsettled⟩ := Service.settled_iff.mp hknows
    rw [hp, Option.some.injEq] at hq'
    exact hq' ▸ hsettled
  have hload : point = .init .load → q.stage = .initializing ∨ q.stage = .disposed := fun hpoint =>
    h.stage_of_loading (hpoint ▸ ht) hp
  have ha := (h.unqueue t).agreed_endWait ht
  have hunqueued : Effects noLeave [] s { s with ready := s.ready.erase t } := .idle rfl rfl rfl
  have hbefore := hunqueued.trans (Service.endWait_effects { s with ready := s.ready.erase t }
    t wait signal)
  have hstep := Service.step_of_waiting hready ht
  -- the wait is over, which changes neither the parser nor its engine
  generalize hwent : (({ s with ready := s.ready.erase t } : Service).endWait t wait signal)
    = s₁ at ha hbefore hstep
  have hp₁ : s₁.parser? p = some q := by
    rw [← hwent, Service.parser?_endWait]
    exact hp
  have hoffers : s₁.offers p = true := by
    rw [Service.offers, hp₁, ← hp]
    exact hclients p (List.mem_singleton.mpr rfl)
  have hnative := hbefore.surroundings.2
  have hunready : ∀ {point' e}, point = .init point' →
      (s₁.resumeInit t p request.event point' signal).2 = .finished (.error e) →
      s.Unready t p request e := by
    rintro point' e rfl hend
    exact .goesOn hready ht (hwent ▸ hend)
  obtain ⟨marks, given, hends, hengine, hengages⟩ :=
    Service.resumeParse_engages (t := t) hfits ha hoffers hp₁ hload hlock
    request hunready
  refine ⟨marks, given, _, hready, rfl, hstep, hends.after hbefore (.refl q) (Or.inl rfl),
    fun hwait => Service.resumeParse_waiting hp₁ hload hwait, fun _ => hworded,
    fun heq => ?_, fun hnot => ?_⟩
  · cases heq
    obtain ⟨hmarks, hgiven⟩ := hengine rfl
    refine ⟨hmarks, ?_, ?_⟩
    · rw [hgiven, Service.engineResult_of_native hnative]
    · rw [Service.resumeParse, hp₁]
      exact Service.endEngine_parser? hp₁ q request _
  · refine (hengages ?_).of_native hnative
    rintro rfl
    cases hnot

end Valid

namespace Service

variable {s : Service} {t : TaskId} {status : TaskStatus} {p : ParserId} {q : Parser}
  {request : ParseRequest} {marks : List EngineMark} {given : Option (Except Fault Forest)}
  {y : Service × Run ParsePoint (ParseResult SyntaxTree)}

namespace Turn

theorem result?_iff (h : s.Turn t status p q request marks given y) {last : TaskStatus}
    (hlast : (s.step t).tasks[t]? = some last) {outcome : Except Fault Outcome} :
    (s.step t).result? t = some outcome ↔ ∃ result, y.2 = .finished result
      ∧ outcome = result.map .parsed := by
  rw [h.step] at hlast ⊢
  exact result?_finishParse_iff hlast

/-- **What the engine gives in a turn is what it replies.** The one speaks of the run inside the
step and the other of the service before and after it, which is all that can be seen from
outside. -/
theorem given_iff (h : s.Turn t status p q request marks given y) (ht : s.tasks[t]? = some status)
    (hcall : status.call? = some (.parse p request)) (hp : s.parser? p = some q) {last : TaskStatus}
    (hlast : (s.step t).tasks[t]? = some last) {x : Except Fault Forest} :
    given = some x ↔ s.Replies t p q request x := by
  have hparses : (s.step t).parses? p = some (q.tally.parses + marks.count (.began p)) := by
    rw [h.step, parses?_settleRun, h.ends.parses?_eq hp]
  have hbefore : s.parses? p = some q.tally.parses := by rw [parses?, hp, Option.map_some]
  constructor
  · rintro rfl
    -- an engine that was at work before, or one that is set to work and gets done in this turn
    by_cases hengaged : status.isEngaged = true
    · obtain ⟨wait, signal, rfl⟩ := TaskStatus.of_isEngaged hengaged h.awake hcall
      obtain ⟨-, hgiven, -⟩ := h.waited rfl
      cases hgiven
      exact .waited h.ready ht
    · obtain ⟨rfl, rfl, -⟩ := h.atOnce (Bool.eq_false_iff.mpr hengaged) x rfl
      obtain ⟨result, hend⟩ := h.ends.finished
      refine .atOnce ?_ ?_
      · rw [(h.result?_iff hlast).mpr ⟨result, hend, rfl⟩]
        rfl
      · rw [hparses, hbefore]
        simp
  · intro hreplies
    cases hreplies with
    | waited hready ht' =>
      rw [ht, Option.some.injEq] at ht'
      exact (h.waited ht').2.1
    | atOnce hends hbegun =>
      -- the engine was set to work in this turn, which has left its mark
      have hmarks : marks ≠ [] := by
        rintro rfl
        exact hbegun (by rw [hparses, hbefore]; rfl)
      obtain ⟨outcome, houtcome⟩ := Option.isSome_iff_exists.mp hends
      obtain ⟨result, hend, -⟩ := (h.result?_iff hlast).mp houtcome
      cases hgiven : given with
      | none =>
        subst hgiven
        exact absurd (h.ends.silent hend) hmarks
      | some x =>
        by_cases hengaged : status.isEngaged = true
        · obtain ⟨wait, signal, hstatus⟩ := TaskStatus.of_isEngaged hengaged h.awake hcall
          exact absurd (h.waited hstatus).1 hmarks
        · rw [(h.atOnce (Bool.eq_false_iff.mpr hengaged) x hgiven).2.1]

theorem rooted (h : s.Turn t status p q request marks given y)
    (hcall : status.call? = some (.parse p request))
    (hroot : ∀ {forest}, s.engineResult q request .proceed = .ok forest → forest.Has 0)
    {forest : Forest} (hgiven : given = some (.ok forest)) : forest.Has 0 := by
  by_cases hengaged : status.isEngaged = true
  · obtain ⟨wait, signal, hstatus⟩ := TaskStatus.of_isEngaged hengaged h.awake hcall
    have hreply := (h.waited hstatus).2.1
    rw [hgiven, Option.some.injEq] at hreply
    cases signal with
    | proceed => exact hroot hreply.symm
    | cancel => cases hreply
  · exact hroot (h.atOnce (Bool.eq_false_iff.mpr hengaged) _ hgiven).2.1.symm

end Turn

/-- Disposal, lack of memory and cancellation are the faults that callers of a parse are used to. -/
def Usual (e : Fault) : Prop := e.isDisposed = true ∨ e.isOutOfMemory = true ∨ e.isCancelled = true

theorem usual_of_escapes {e : Fault} (he : escapes e = true) (hstays : e.strays escapes = false) :
    Usual e := by
  simp only [escapes, Bool.or_eq_true, Bool.not_eq_true'] at he
  simp only [Fault.strays, Bool.or_eq_false_iff] at hstays
  rcases he with (hmemory | hdisposed) | hfailure
  · exact Or.inr (Or.inl hmemory)
  · exact Or.inl hdisposed
  · exact Or.inr (Or.inr (Fault.isCancelled_of_not_isFailure hfailure hstays.1))

theorem not_usual_of_strays {e : Fault} (he : escapes e = true)
    (hstrays : e.strays escapes = true) : ¬Usual e := by
  simp only [Fault.strays, Fault.isUntold, he, Bool.not_true, Bool.false_and, Bool.or_false]
    at hstrays
  obtain ⟨hdisposed, hmemory, hcancelled⟩ := Fault.of_isInterruption hstrays
  simp [Usual, hdisposed, hmemory, hcancelled]

theorem Usual.kindName_ne {e : Fault} (h : Usual e) : e.kindName ≠ "ValueError" := by
  cases e with
  | raised kind details =>
    rcases h with h | h | h
    · cases h
    · cases kind <;> cases h
      exact of_decide_eq_true rfl
    · cases kind <;> cases h
      exact of_decide_eq_true rfl
  | parsing message file language => rcases h with h | h | h <;> cases h
  | disposed parser => exact of_decide_eq_true rfl
  | invalid record issues => rcases h with h | h | h <;> cases h

theorem not_usual_tooManyDigits : ¬Usual (.tooManyDigits "") := by
  rintro (h | h | h) <;> cases h

theorem isUntold_of_strays {e : Fault} (he : escapes e = false)
    (hstrays : e.strays escapes = true) :
    e.isUntold escapes = true := by
  rw [Fault.strays, Bool.or_eq_true] at hstrays
  refine hstrays.resolve_left fun hinterrupted => ?_
  rw [escapes, Fault.isFailure_of_isInterruption hinterrupted, Bool.not_false, Bool.or_true] at he
  cases he

/-- **What the run of a parse comes to**, after what the engine gave in it: another wait, a usual
fault, a failed result, or a tree. A forest that was given comes to a tree unless the parse was
called off. -/
inductive Comes (s : Service) (q : Parser) (request : ParseRequest) :
    Option (Except Fault Forest) → Run ParsePoint (ParseResult SyntaxTree) → Prop
  | waits (point : ParsePoint) (wait : Wait) : Comes s q request none (.waiting point wait)
  | raises {given : Option (Except Fault Forest)} {e : Fault} (he : Usual e)
      (hset : ∀ {forest}, given = some (.ok forest) → s.isSet request.event = true) :
      Comes s q request given (.finished (.error e))
  | fails {given : Option (Except Fault Forest)} (message : String)
      (hnone : ∀ {forest}, given ≠ some (.ok forest)) :
      Comes s q request given (.finished (.ok (failedParse q request message)))
  | succeeds {forest : Forest} {tree : SyntaxTree} (hset : s.isSet request.event = false)
      (htree : treeOf q request forest = .ok tree) :
      Comes s q request (some (.ok forest)) (.finished (.ok (.ok tree)))

/-- Where no fault strays, and no forest without a root is given, the run of a parse comes to one of
these. All the ways in which a run may end are gone through; the two that raise an unheard fault
need a fault that strays, and a forest with a root is not refused. -/
theorem ParseEnds.comes {u : Fault → Prop} {l : Leave} (h : ParseEnds u l q request s marks given y)
    (hlanguage : q.language ≠ "") (hworded : given ≠ none → ParseRequest.isEmpty request = false)
    (hroot : ∀ {forest}, given = some (.ok forest) → forest.Has 0)
    (hstays : ∀ {e}, u e ∨ given = some (.error e) → e.strays escapes = false) :
    Comes s q request given y.2 := by
  have hstrays : ∀ {e : Fault}, e.isUntold escapes = true → e.strays escapes = true := fun he => by
    rw [Fault.strays, he, Bool.or_true]
  cases h with
  | waits => exact .waits _ _
  | raises _ he => exact .raises (he.imp_right Or.inr) fun hgiven => by cases hgiven
  | aborts _ hu he =>
    exact .raises (usual_of_escapes he (hstays (Or.inl hu))) fun hgiven => by cases hgiven
  -- a fault that cannot be told strays, which no fault of this parse does
  | withholds _ hu he => cases (hstrays he).symm.trans (hstays (Or.inl hu))
  | declines => exact .fails _ fun hgiven => by cases hgiven
  | breaks _ he =>
    exact .raises (usual_of_escapes he (hstays (Or.inr rfl))) fun hgiven => by cases hgiven
  | loses _ he => cases (hstrays he).symm.trans (hstays (Or.inr rfl))
  | fails => exact .fails _ fun hgiven => by cases hgiven
  | stops _ hset => exact .raises (Or.inr (Or.inr rfl)) fun _ => hset
  -- a forest with a root always makes a tree, for a text and a language that is named
  | refuses _ _ htree =>
    obtain ⟨tree, hok⟩ := exists_treeOf (hroot rfl) (hworded (Option.some_ne_none _)) hlanguage
    rw [htree] at hok
    cases hok
  | parses _ hset htree => exact .succeeds hset htree

/-- **If a fault of the engine strays**, the parse raises what its callers are not used to. -/
theorem ParseEnds.raises_of_strays {u : Fault → Prop} {l : Leave} {e : Fault}
    (h : ParseEnds u l q request s marks (some (.error e)) y) (hstrays : e.strays escapes = true) :
    ∃ e', y.2 = .finished (.error e') ∧ ¬Usual e' := by
  cases h with
  | breaks _ he => exact ⟨e, rfl, not_usual_of_strays he hstrays⟩
  | loses => exact ⟨_, rfl, not_usual_tooManyDigits⟩
  | fails _ he hwritable =>
    have huntold := isUntold_of_strays he hstrays
    rw [Fault.isUntold, hwritable, Bool.not_true, Bool.and_false] at huntold
    cases huntold

/-- The same if the initialization ended with it. -/
theorem parseInitialized_raises_of_strays (hp : s.parser? p = some q) (request : ParseRequest)
    {e : Fault} (hstrays : e.strays escapes = true) :
    ∃ e', (s.parseInitialized t p request (.finished (.error e))).2 = .finished (.error e')
      ∧ ¬Usual e' := by
  rw [parseInitialized]
  split
  · rename_i hescapes
    exact ⟨e, rfl, not_usual_of_strays hescapes hstrays⟩
  · rename_i hescapes
    have huntold := isUntold_of_strays (Bool.eq_false_iff.mpr hescapes) hstrays
    rw [Fault.isUntold, Bool.and_eq_true, Bool.not_eq_true', Bool.not_eq_true'] at huntold
    rw [hp]
    dsimp only
    rw [Fault.written_of_not_isWritable huntold.2]
    exact ⟨_, rfl, not_usual_tooManyDigits⟩

/-- A parse whose initialization ended with a fault that strays. That it initialized the parser at
all, rather than find it disposed of or initialized, follows from its fault. -/
theorem beginParse_raises_of_strays (hp : s.parser? p = some q) (hanswer : q.engine.answer = none)
    (htext : ParseRequest.isEmpty request = false) {e : Fault}
    (hend : (s.beginInit t p request.event).2 = .finished (.error e))
    (hstrays : e.strays escapes = true) :
    ∃ e', (s.beginParse t p request).2 = .finished (.error e') ∧ ¬Usual e' := by
  obtain ⟨q', hq', -⟩ := (beginInit_effects (l := noLeave) (t := t) s p request.event).same hp
  have hdisposed : ¬q.isDisposed = true := by
    intro hdisposed
    rw [beginInit, hp] at hend
    simp only [if_pos hdisposed] at hend
    cases hend
    cases hstrays
  have hinitialized : ¬q.isInitialized = true := by
    intro hinitialized
    rw [beginInit, hp] at hend
    simp only [if_neg hdisposed, if_pos hinitialized] at hend
    cases hend
  rw [beginParse, hp]
  simp only [hanswer, if_neg hdisposed, htext, Bool.false_eq_true, if_false,
    if_neg hinitialized, hend]
  exact parseInitialized_raises_of_strays hq' request hstrays

theorem resumeParse_raises_of_strays (hp : s.parser? p = some q) {point : InitPoint}
    {signal : Signal} {e : Fault}
    (hend : (s.resumeInit t p request.event point signal).2 = .finished (.error e))
    (hstrays : e.strays escapes = true) :
    ∃ e', (s.resumeParse t p request (.init point) signal).2 = .finished (.error e')
      ∧ ¬Usual e' := by
  obtain ⟨q', hq', -⟩ :=
    (resumeInit_effects (l := noLeave) (t := t) s p request.event point signal).same hp
  rw [resumeParse]
  simp only [hend]
  exact parseInitialized_raises_of_strays hq' request hstrays

/-- **What a parse with `q` comes to** if it ends in a step of the task. If it goes on, nothing is
said but that the engine has not returned a root to a parse that was not called off. -/
structure ParseOutcomes (s : Service) (t : TaskId) (p : ParserId) (q : Parser)
    (request : ParseRequest) : Prop where
  /-- Disposal, lack of memory and cancellation are raised, and nothing else. -/
  raised : ∀ {e}, (s.step t).result? t = some (.error e) →
    e.isDisposed = true ∨ e.isOutOfMemory = true ∨ e.isCancelled = true
  /-- Otherwise a result is returned, with a tree or an error but not both. -/
  returned : ∀ {outcome}, (s.step t).result? t = some (.ok outcome) →
    ∃ result, outcome = .parsed result ∧ result.success = result.value.isSome
      ∧ result.error.isSome = !result.value.isSome
  /-- The parse succeeds if and only if the engine returns a root and the parse was not called
  off. -/
  succeeds : (∃ result, (s.step t).result? t = some (.ok (.parsed result)) ∧ result.success = true)
    ↔ (∃ forest, s.Replies t p q request (.ok forest)) ∧ s.isSet request.event = false
  tree : ∀ {result tree}, (s.step t).result? t = some (.ok (.parsed result)) →
    result.value = some tree →
    request.source = some tree.source ∧ tree.file = request.file ∧ tree.language = q.language
  error : ∀ {result failure}, (s.step t).result? t = some (.ok (.parsed result)) →
    result.error = some failure →
    failure.file = .ofText? request.file ∧ failure.language = .text q.language

/-- **What a step of a task does that parses with `q`.** Besides what the parse may come to, it says
that every turn leads on, that a parse without a text has no other effect, and that engines leave
the life cycle alone. -/
structure ParseLaw (s : Service) (t : TaskId) (status : TaskStatus) (p : ParserId) (q : Parser)
    (request : ParseRequest) :
    Prop extends ParseOutcomes s t p q request where
  /-- A turn ends the parse or brings it to one of its later waits. -/
  turn : t ∈ s.ready → status.isAwake = true →
    ((s.step t).result? t).isSome = true
      ∨ ∃ point wait, (s.step t).tasks[t]? = some (.waiting (.parse p request point) wait none)
        ∧ point.rank < status.rank
  /-- A parse without a text fails in its first turn and leaves no other trace. -/
  empty : t ∈ s.ready → status = .fresh (.parse p request) false →
    ParseRequest.isEmpty request = true →
    q.stage ≠ .disposed → s.step t = ({ s with ready := s.ready.erase t } : Service).setTask t
      (.finished (.ok (.parsed (failedParse q request emptySourceMessage))))
  /-- An engine that gets done leaves the stage of its parser alone. One that gets done in the turn
  in which it is set to work has found the parser initialized, perhaps by this very turn. -/
  stays : ∀ {reply}, s.Replies t p q request reply →
    ∃ q', (s.step t).parser? p = some q' ∧ q'.stage = if status.isEngaged then q.stage
      else .initialized

theorem ParseOutcomes.of_not_replies (hnone : ∀ {x}, ¬s.Replies t p q request x)
    (hlast : ∀ {outcome}, (s.step t).result? t = some outcome → outcome = .error .cancelled) :
    s.ParseOutcomes t p q request := by
  have hfail : ∀ {outcome}, (s.step t).result? t ≠ some (.ok outcome) :=
    fun hok => by cases hlast hok
  refine ⟨fun herror => ?_, fun hok => absurd hok hfail, ⟨?_, ?_⟩, fun hok => absurd hok hfail,
    fun hok => absurd hok hfail⟩
  · cases hlast herror
    exact Or.inr (Or.inr rfl)
  · rintro ⟨result, hok, -⟩
    exact absurd hok hfail
  · rintro ⟨⟨forest, hreply⟩, -⟩
    exact absurd hreply hnone

namespace Comes

variable {run : Run ParsePoint (ParseResult SyntaxTree)}

theorem raised (h : Comes s q request given run) {e : Fault} (hend : run = .finished (.error e)) :
    Usual e := by
  cases h with
  | waits => cases hend
  | raises he =>
    cases hend
    exact he
  | fails => cases hend
  | succeeds => cases hend

theorem returned (h : Comes s q request given run) {result : ParseResult SyntaxTree}
    (hend : run = .finished (.ok result)) :
    (∃ forest tree, result = .ok tree ∧ given = some (.ok forest) ∧ s.isSet request.event = false
        ∧ treeOf q request forest = .ok tree)
      ∨ ∃ message, result = failedParse q request message := by
  cases h with
  | waits => cases hend
  | raises => cases hend
  | fails message =>
    cases hend
    exact Or.inr ⟨message, rfl⟩
  | @succeeds forest tree hset htree =>
    cases hend
    exact Or.inl ⟨forest, tree, rfl, rfl, hset, htree⟩

theorem succeeds_iff (h : Comes s q request given run) :
    (∃ result, run = .finished (.ok result) ∧ result.success = true)
      ↔ (∃ forest, given = some (.ok forest)) ∧ s.isSet request.event = false := by
  constructor
  · rintro ⟨result, hend, hsuccess⟩
    rcases h.returned hend with ⟨forest, tree, -, hgiven, hset, -⟩ | ⟨message, rfl⟩
    · exact ⟨⟨forest, hgiven⟩, hset⟩
    · cases hsuccess
  · rintro ⟨⟨forest, hgiven⟩, hset⟩
    cases h with
    | waits => cases hgiven
    | raises _ hraised =>
      rw [hraised hgiven] at hset
      cases hset
    | fails _ hnone => exact absurd hgiven hnone
    | succeeds => exact ⟨_, rfl, rfl⟩

/-- What the run of a parse comes to, as the caller sees it in the result of the task. -/
theorem parseOutcomes (h : Comes s q request given run)
    (hgiven : ∀ {x}, given = some x ↔ s.Replies t p q request x)
    (hresult : ∀ {outcome}, (s.step t).result? t = some outcome ↔ ∃ result, run = .finished result
      ∧ outcome = result.map .parsed) :
    s.ParseOutcomes t p q request := by
  have hparsed : ∀ {result}, (s.step t).result? t = some (.ok (.parsed result))
      ↔ run = .finished (.ok result) := by
    intro result
    rw [hresult]
    constructor
    · rintro ⟨ended, hend, heq⟩
      cases ended with
      | error e => cases heq
      | ok result' =>
        cases heq
        exact hend
    · intro hend
      exact ⟨_, hend, rfl⟩
  -- one goal for each point of the law, all read off the end of the run
  refine ⟨fun {e} herror => ?_, fun {outcome} hok => ?_, ?_, fun {result tree} hok htree => ?_,
    fun {result failure} hok hfailure => ?_⟩
  · obtain ⟨ended, hend, heq⟩ := hresult.mp herror
    cases ended with
    | error e' =>
      cases heq
      exact h.raised hend
    | ok result => cases heq
  · obtain ⟨ended, hend, heq⟩ := hresult.mp hok
    cases ended with
    | error e => cases heq
    | ok result =>
      cases heq
      rcases h.returned hend with ⟨forest, tree, rfl, -⟩ | ⟨message, rfl⟩
      · exact ⟨_, rfl, rfl, rfl⟩
      · exact ⟨_, rfl, rfl, rfl⟩
  · simp only [hparsed, ← hgiven]
    exact h.succeeds_iff
  · rcases h.returned (hparsed.mp hok) with ⟨forest, tree', rfl, -, -, hmade⟩ | ⟨message, rfl⟩
    · cases htree
      exact carries_of_treeOf hmade
    · cases htree
  · rcases h.returned (hparsed.mp hok) with ⟨forest, tree', rfl, -⟩ | ⟨message, rfl⟩
    · cases hfailure
    · cases hfailure
      exact ⟨rfl, rfl⟩

end Comes

end Service

namespace Valid

variable {s : Service} {t : TaskId} {p : ParserId} {q : Parser} {request : ParseRequest}
  {status : TaskStatus}

/-- The parse runs in a step of the task, unless it is cancelled before it begins or the task has no
turn. -/
theorem parse_cases (h : Valid s) (ht : s.tasks[t]? = some status)
    (hcall : status.call? = some (.parse p request)) (hworded : status.Worded)
    (hp : s.parser? p = some q) (hanswer : q.engine.answer = none) :
    (∃ marks given y, s.Turn t status p q request marks given y)
      ∨ (t ∈ s.ready ∧ status = .fresh (.parse p request) true)
      ∨ (¬(t ∈ s.ready ∧ status.isAwake = true) ∧ (s.step t).result? t = none) := by
  by_cases hready : t ∈ s.ready
  · cases status with
    | finished result => cases hcall
    | fresh call cancelled =>
      cases hcall
      cases cancelled with
      | true => exact Or.inr (Or.inl ⟨hready, rfl⟩)
      | false => exact Or.inl (h.turn_fresh hready ht hp hanswer)
    -- a task that waits has a turn once it has its signal
    | waiting frame wait signal =>
      cases signal with
      | none =>
        refine Or.inr (Or.inr ⟨fun hturn => ?_, ?_⟩)
        · cases hturn.2
        · rw [Service.step_of_unsignalled hready ht, Service.result?, ht]
      | some signal =>
        cases frame with
        | parse p' request' point =>
          cases hcall
          exact Or.inl (h.turn_waiting hready ht hworded hp)
        | _ => cases hcall
  · refine Or.inr (Or.inr ⟨fun hturn => hready hturn.1, ?_⟩)
    rw [Service.step_of_not_ready hready, Service.result?, ht]
    cases status with
    | finished result => cases hcall
    | fresh call cancelled => rfl
    | waiting frame wait signal => rfl

/-- A parse that runs in its turn keeps to the law, if it meets no fault that strays. -/
theorem parseLaw_of_turn (h : Valid s) (ht : s.tasks[t]? = some status)
    (hcall : status.call? = some (.parse p request)) (hp : s.parser? p = some q)
    (hanswer : q.engine.answer = none) (hlanguage : q.language ≠ "")
    (hroot : ∀ {forest}, s.engineResult q request .proceed = .ok forest → forest.Has 0)
    {marks : List EngineMark} {given : Option (Except Fault Forest)}
    {y : Service × Run ParsePoint (ParseResult SyntaxTree)}
    (hturn : s.Turn t status p q request marks given y)
    (hstays : ∀ e, s.Meets t p q request e → e.strays Service.escapes = false) :
    s.ParseLaw t status p q request := by
  obtain ⟨last, hlast⟩ := h.exists_task_step ht
  have hgiven : ∀ {x}, given = some x ↔ s.Replies t p q request x :=
    hturn.given_iff ht hcall hp hlast
  have hcomes := hturn.ends.comes hlanguage hturn.worded (hturn.rooted hcall hroot) fun {e} hmet =>
    hstays e (hmet.imp_right hgiven.mp)
  -- besides the outcome: the wait or end of the turn, the empty source, and the stage afterwards
  refine ⟨hcomes.parseOutcomes hgiven (hturn.result?_iff hlast), fun _ _ => ?_,
    fun hready hfresh hempty hstage => ?_,
    fun {reply} hreply => ?_⟩
  · cases hrun : y.2 with
    | finished result =>
      rw [(hturn.result?_iff hlast).mpr ⟨result, hrun, rfl⟩]
      exact Or.inl rfl
    | waiting point wait =>
      refine Or.inr ⟨point, wait, ?_, hturn.order hrun⟩
      rw [hlast]
      rw [hturn.step, Service.settleRun, hrun] at hlast
      rw [Service.status_of_setTask hlast]
  · subst hfresh
    have hdisposed : ¬q.isDisposed = true := fun hdisposed => hstage (of_decide_eq_true hdisposed)
    rw [Service.step_of_fresh hready ht, Service.start, Service.beginParse]
    have hp' : ({ s with ready := s.ready.erase t } : Service).parser? p = some q := hp
    simp only [hp', hanswer, if_neg hdisposed, if_pos hempty]
    rfl
  · have hparser : (s.step t).parser? p = y.1.parser? p := by
      rw [hturn.step, Service.settleRun]
      split <;> rfl
    rw [hparser]
    by_cases hengaged : status.isEngaged = true
    · obtain ⟨wait, signal, hstatus⟩ := TaskStatus.of_isEngaged hengaged hturn.awake hcall
      rw [if_pos hengaged]
      exact ⟨_, (hturn.waited hstatus).2.2, rfl⟩
    · rw [if_neg hengaged]
      exact (hturn.atOnce (Bool.eq_false_iff.mpr hengaged) reply (hgiven.mpr hreply)).2.2

theorem not_replies_of_cancelled (hready : t ∈ s.ready)
    (ht : s.tasks[t]? = some (.fresh (.parse p request) true)) {x : Except Fault Forest} :
    ¬s.Replies t p q request x := by
  rintro (⟨-, ht'⟩ | ⟨-, hbegun⟩)
  · rw [ht] at ht'
    cases ht'
  · rw [Service.step_of_cancelled hready ht] at hbegun
    exact hbegun rfl

theorem not_replies_of_idle (ht : s.tasks[t]? = some status)
    (hidle : ¬(t ∈ s.ready ∧ status.isAwake = true)) (hlast : (s.step t).result? t = none)
    {x : Except Fault Forest} : ¬s.Replies t p q request x := by
  rintro (⟨hready, ht'⟩ | ⟨hends, -⟩)
  · rw [ht, Option.some.injEq] at ht'
    exact hidle ⟨hready, ht' ▸ rfl⟩
  · rw [hlast] at hends
    cases hends

theorem parseLaw_of_cancelled (hready : t ∈ s.ready)
    (ht : s.tasks[t]? = some (.fresh (.parse p request) true)) :
    s.ParseLaw t (.fresh (.parse p request) true) p q request := by
  have hstep := Service.step_of_cancelled hready ht
  have hlast : (s.step t).result? t = some (.error .cancelled) := by
    have htask : (s.step t).tasks[t]? = some (.finished (.error .cancelled)) := by
      rw [hstep]
      exact Service.task_setTask (Array.getElem?_eq_some_iff.mp ht).1 _
    rw [Service.result?, htask]
  have hnone : ∀ {x}, ¬s.Replies t p q request x := not_replies_of_cancelled hready ht
  refine ⟨.of_not_replies hnone fun houtcome => ?_, fun _ _ => ?_, fun _ hfresh => ?_,
    fun hreply => absurd hreply hnone⟩
  · rw [hlast, Option.some.injEq] at houtcome
    exact houtcome.symm
  · rw [hlast]
    exact Or.inl rfl
  · cases hfresh

theorem parseLaw_of_idle (ht : s.tasks[t]? = some status)
    (hidle : ¬(t ∈ s.ready ∧ status.isAwake = true)) (hlast : (s.step t).result? t = none) :
    s.ParseLaw t status p q request := by
  have hnone : ∀ {x}, ¬s.Replies t p q request x := not_replies_of_idle ht hidle hlast
  refine ⟨.of_not_replies hnone fun houtcome => ?_,
    fun hready hawake => absurd ⟨hready, hawake⟩ hidle,
    fun hready hfresh => absurd ⟨hready, hfresh ▸ rfl⟩ hidle, fun hreply => absurd hreply hnone⟩
  rw [hlast] at houtcome
  cases houtcome

/-- **A parse that meets a fault that strays** raises what its callers are not used to. The fault is
met at the end of an initialization, which ends the parse with it, or in the reply of the engine. -/
theorem raises_of_meets (h : Valid s) (ht : s.tasks[t]? = some status)
    (hcall : status.call? = some (.parse p request)) (hworded : status.Worded)
    (hp : s.parser? p = some q) (hanswer : q.engine.answer = none) {e : Fault}
    (hmeets : s.Meets t p q request e) (hstrays : e.strays Service.escapes = true) :
    ∃ e', (s.step t).result? t = some (.error e') ∧ ¬Service.Usual e' := by
  obtain ⟨last, hlast⟩ := h.exists_task_step ht
  rcases hmeets with hunready | hreplies
  · -- the initialization is over, and what is left of the turn is to raise
    cases hunready with
    | begins hready ht' htext hend =>
      have hp' : ({ s with ready := s.ready.erase t } : Service).parser? p = some q := hp
      obtain ⟨e', hraised, hunusual⟩ :=
        Service.beginParse_raises_of_strays hp' hanswer htext hend hstrays
      rw [Service.step_of_fresh hready ht'] at hlast ⊢
      exact ⟨e', (Service.result?_finishParse_iff hlast).mpr ⟨.error e', hraised, rfl⟩, hunusual⟩
    | @goesOn point wait signal _ hready ht' hend =>
      rw [Service.step_of_waiting hready ht'] at hlast ⊢
      have hp' : (({ s with ready := s.ready.erase t } : Service).endWait t wait signal).parser? p
          = some q :=
        (Service.parser?_endWait ..).trans hp
      obtain ⟨e', hraised, hunusual⟩ := Service.resumeParse_raises_of_strays hp' hend hstrays
      exact ⟨e', (Service.result?_finishParse_iff hlast).mpr ⟨.error e', hraised, rfl⟩, hunusual⟩
  · rcases h.parse_cases ht hcall hworded hp hanswer with ⟨marks, given, y, hturn⟩
      | ⟨hready, rfl⟩ | ⟨hidle, hnone⟩
    · obtain rfl := (hturn.given_iff ht hcall hp hlast).mpr hreplies
      obtain ⟨e', hraised, hunusual⟩ := hturn.ends.raises_of_strays hstrays
      exact ⟨e', (hturn.result?_iff hlast).mpr ⟨.error e', hraised, rfl⟩, hunusual⟩
    · exact absurd hreplies (not_replies_of_cancelled hready ht)
    · exact absurd hreplies (not_replies_of_idle ht hidle hnone)

/-- **Faults that stray come from the engine**: from its load or from its work on the text. -/
theorem engine_of_meets (h : Valid s) (hp : s.parser? p = some q) {e : Fault}
    (hmeets : s.Meets t p q request e) (hstrays : e.strays Service.escapes = true) :
    q.engine.load = .error e ∨ s.engineResult q request .proceed = .error e := by
  rcases hmeets with hunready | hreplies
  · refine Or.inl ?_
    cases hunready with
    | begins hready ht' htext hend =>
      have hp' : ({ s with ready := s.ready.erase t } : Service).parser? p = some q := hp
      exact Service.load_of_beginInit_strays hp' hend hstrays
    | @goesOn point wait signal _ hready ht' hend =>
      have hp' : (({ s with ready := s.ready.erase t } : Service).endWait t wait signal).parser? p
          = some q :=
        (Service.parser?_endWait ..).trans hp
      exact Service.load_of_resumeInit_strays hp' (fun hload => h.stage_of_loading (hload ▸ ht') hp)
        hend hstrays
  · rcases hreplies.eq with hcancelled | hreply
    · cases hcancelled
      cases hstrays
    · exact Or.inr hreply.symm

end Valid

/-- **What parses come to.** In every state of the service, take a parse that a task is busy with
and whose engine gives forests with a root if it gives any. A step brings it to a later wait or to
its end. It raises disposal, lack of memory and cancellation only. Any other end is a result that
has a tree or an error, which carry what was asked for, and there is a tree if and only if the
engine returns a root and the parse was not called off. A parse without a text leaves the parser,
its engine and all counts alone, and an engine that fails leaves the stage of the parser alone.

All of this holds if and only if no fault strays that the parse meets in the step: no interruption,
and no failure that cannot be written. Such faults come from the engine, which raises them when it
loads the grammar or when it parses. -/
theorem parse_law_iff (run : List Service.Action) {t : TaskId} {status : TaskStatus} {p : ParserId}
    {q : Parser} {request : ParseRequest} (ht : (Service.after run).tasks[t]? = some status)
    (hcall : status.call? = some (.parse p request)) (hp : (Service.after run).parser? p = some q)
    (hanswer : q.engine.answer = none)
    (hroot : ∀ {forest}, (Service.after run).engineResult q request .proceed = .ok forest →
      forest.Has 0) :
    ((Service.after run).ParseLaw t status p q request
        ↔ ∀ e, (Service.after run).Meets t p q request e → e.strays Service.escapes = false)
      ∧ ∀ e, (Service.after run).Meets t p q request e → e.strays Service.escapes = true →
        q.engine.load = .error e ∨ (Service.after run).engineResult q request .proceed
          = .error e := by
  have hvalid := valid_after run
  have hworded := worded_after run ht
  refine ⟨⟨fun hlaw e hmeets => ?_, fun hstays => ?_⟩, fun e => hvalid.engine_of_meets hp⟩
  · rw [← Bool.not_eq_true]
    intro hstrays
    obtain ⟨e', hraised, hunusual⟩ :=
      hvalid.raises_of_meets ht hcall hworded hp hanswer hmeets hstrays
    exact hunusual (hlaw.raised hraised)
  -- a parse has a turn, or it is cancelled before it begins, or nothing happens to it
  · rcases hvalid.parse_cases ht hcall hworded hp hanswer with ⟨marks, given, y, hturn⟩
      | ⟨hready, rfl⟩ | ⟨hidle, hlast⟩
    · exact hvalid.parseLaw_of_turn ht hcall hp hanswer (named_after run hp) hroot hturn hstays
    · exact Valid.parseLaw_of_cancelled hready ht
    · exact Valid.parseLaw_of_idle ht hidle hlast

/-- A parser whose engine waits at a gate and gives a forest of one node. -/
def rootedParser : Service.Action :=
  .addParser { name := "Parser", language := "text", engine := {
    parsePause := .gate "parse"
    parse := fun _ _ _ => .ok { nodes := #[some { kind := "text" }] } } } none

/-- A parse of a file sets the engine to work, and the parser is disposed of before the engine gets
done. -/
def disposedMeanwhile : List Service.Action :=
  [rootedParser, .spawn (.parse 0 { source := some "a", file := some "a.txt" }),
    .step 0, .disposeParser 0,
    .openGate "parse"]

/-- The parse succeeds all the same, and the parser stays disposed of. -/
theorem parse_law_disposed_meanwhile :
    ∃ q q' result, (Service.after disposedMeanwhile).parser? 0 = some q
      ∧ ((Service.after disposedMeanwhile).step 0).result? 0 = some (.ok (.parsed result))
      ∧ result.success = true
      ∧ ((Service.after disposedMeanwhile).step 0).parser? 0 = some q' ∧ q'.stage = .disposed
      ∧ (Service.after disposedMeanwhile).ParseLaw 0
        (.waiting (.parse 0 { source := some "a", file := some "a.txt" } .engine)
          (.gate "parse") (some .proceed)) 0 q
        { source := some "a", file := some "a.txt" } := by
  refine ⟨_, _, _, rfl, rfl, rfl, rfl, rfl,
    (parse_law_iff disposedMeanwhile rfl rfl rfl rfl ?_).1.mpr ?_⟩
  · intro forest hforest
    cases hforest
    rfl
  · rintro e (hunready | hreplies)
    · -- the parse waits for the engine, so its initialization is long over
      cases hunready with
      | begins _ ht => cases ht
      | goesOn _ ht => cases ht
    · rcases hreplies.eq with hcancelled | hreply
      · cases hcancelled
        rfl
      · cases hreply

/-- A parser is made whose load and whose engine give this, and a text is parsed. -/
def parsedBy (load : Except Fault Unit) (parse : Except Fault Forest) : List Service.Action :=
  [.addParser { name := "Parser", language := "text", engine := {
    load := load, parse := fun _ _ _ => parse } } none,
    .spawn (.parse 0 { source := some "a" })]

/-- The kind of fault that this parse raises in its first step, if it raises one. -/
def raisedByParse (load : Except Fault Unit) (parse : Except Fault Forest) : Option String :=
  (((Service.after (parsedBy load parse)).step 0).result? 0).bind raisedKind?

theorem Service.ParseLaw.kind_ne {s : Service} {t : TaskId} {status : TaskStatus} {p : ParserId}
    {q : Parser} {request : ParseRequest} (h : s.ParseLaw t status p q request) :
    ((s.step t).result? t).bind raisedKind? ≠ some "ValueError" := by
  intro hraised
  obtain ⟨outcome, houtcome, hkind⟩ := Option.bind_eq_some_iff.mp hraised
  cases outcome with
  | ok result => cases hkind
  | error e => exact Service.Usual.kindName_ne (h.raised houtcome) (Option.some.inj hkind)

/-- A fault that cannot be written: whether the load of the grammar or the engine raises it, the
parse does not come back with a failed result but raises another fault. -/
theorem parse_raises_unwritable :
    raisedByParse (.error unwritableFault) (.ok {}) = some "ValueError"
      ∧ raisedByParse (.ok ()) (.error unwritableFault) = some "ValueError"
      ∧ (¬∃ status q request, (Service.after (parsedBy (.error unwritableFault) (.ok {}))).ParseLaw
        0 status 0 q request)
      ∧ ¬∃ status q request, (Service.after (parsedBy (.ok ()) (.error unwritableFault))).ParseLaw
        0 status 0 q request := by
  have hload : raisedByParse (.error unwritableFault) (.ok {}) = some "ValueError" := by
    decide +kernel
  have hparse : raisedByParse (.ok ()) (.error unwritableFault) = some "ValueError" := by
    decide +kernel
  refine ⟨hload, hparse, ?_, ?_⟩
  · rintro ⟨status, q, request, hlaw⟩
    exact hlaw.kind_ne hload
  · rintro ⟨status, q, request, hlaw⟩
    exact hlaw.kind_ne hparse

end SyntaxForest
