import SyntaxForest.Proofs.Lifecycle.Ownership
import SyntaxForest.Proofs.Registry.Coherence
import SyntaxForest.Proofs.Service.Faults

/-!
# Loads that end too late

A registry builds a parser with its lock held, but languages are registered and unregistered without
it. While the grammar of a new parser is loaded, its language can be taken out or replaced; a load
that then succeeds has the parser kept all the same. Nothing else keeps a parser that does not fit
its language.

* **`Frame.building?`** — what a waiting call is building.
* **`Valid.registries_step`** — the step that ends the load: the parser is kept if and only if the
  load succeeds.
* **`Service.StaleLoad`** — the step that leaves a registry incoherent: a load succeeds for an entry
  that is no longer there.
* **`cache_law_iff`** — callers may rely on what registries keep throughout a run if and only if it
  has no such step.
-/

namespace SyntaxForest

/-! ## The end of a load for a registry -/

/-- What a waiting call is building: the registry, the entry and the parser. -/
def Frame.building? : Frame → Option (RegistryId × Registration × ParserId)
  | .getParser r _ (.init entry p _) => some (r, entry, p)
  | .facade f _ _ (.get (.init entry p _)) => some (f.registry, entry, p)
  | _ => none

/-- A waiting call has a parser to build if and only if it is in the middle of building one. -/
theorem Frame.build_mem_duties {frame : Frame} {r : RegistryId} {entry : Registration}
    {p : ParserId} :
    .build r entry p ∈ frame.duties ↔ frame.building? = some (r, entry, p) := by
  have hinit : ∀ {point : InitPoint} {p'}, .build r entry p ∉ point.duties p' := by
    intro point p'
    cases point <;> simp [InitPoint.duties]
  have hparse : ∀ {point : ParsePoint} {p'}, .build r entry p ∉ point.duties p' := by
    intro point p'
    cases point with
    | init point => exact hinit
    | lock => simp [ParsePoint.duties]
    | engine => simp [ParsePoint.duties]
  -- initializations and parses come with duties of their own, but never with that of building
  cases frame with
  | init p' event point => exact iff_of_false hinit (fun h => by cases h)
  | «scoped» p' body point => exact iff_of_false hinit (fun h => by cases h)
  | parse p' request point => exact iff_of_false hparse (fun h => by cases h)
  | getParser r' language point =>
    cases point with
    | lock => exact iff_of_false (by simp [duties, GetPoint.duties]) (fun h => by cases h)
    | init entry' p' point =>
      simp only [duties, GetPoint.duties, building?, List.mem_append, hinit]
      simp [eq_comm]
  | facade f goal request point =>
    cases point with
    | parse p' point => exact iff_of_false hparse (fun h => by cases h)
    | get point =>
      cases point with
      | lock =>
        exact iff_of_false (by simp [duties, FacadePoint.duties, GetPoint.duties])
          (fun h => by cases h)
      | init entry' p' point =>
        simp only [duties, FacadePoint.duties, GetPoint.duties, building?, List.mem_append, hinit]
        simp [eq_comm]

/-- Whoever builds a parser waits for the load of its grammar. There is no other wait: nobody else
has the lock of a parser that is just being built. -/
theorem Frame.load_of_building {frame : Frame} {wait : Wait} {r : RegistryId} {entry : Registration}
    {p : ParserId} (hframe : frame.building? = some (r, entry, p)) (hfits : frame.Fits wait) :
    frame.initialization? = some (p, .load) := by
  cases frame with
  -- a parser that is being built is known to nobody else, so its lock is never waited for
  | getParser r' language point =>
    cases point with
    | lock => cases hframe
    | init entry' p' point =>
      cases hframe
      exact hfits.1 ▸ rfl
  | facade f goal request point =>
    cases point with
    | parse p' point => cases hframe
    | get point =>
      cases point with
      | lock => cases hframe
      | init entry' p' point =>
        cases hframe
        exact hfits.1 ▸ rfl
  | _ => cases hframe

/-- The load of the grammar that ends with the signal succeeds. -/
def Parser.LoadsWell (q : Parser) (signal : Signal) : Prop :=
  signal = .proceed ∧ q.engine.load = .ok () ∧ q.stage ≠ .disposed

namespace Service

variable {s : Service} {t : TaskId} {p : ParserId} {q : Parser}

theorem loadOutcome_eq_ok {signal : Signal} :
    s.loadOutcome q none (loadResult q signal) = .ok () ↔ q.LoadsWell signal := by
  cases signal with
  | cancel => exact iff_of_false (fun h => by cases h) fun h => by cases h.1
  | proceed =>
    rw [loadResult, Parser.LoadsWell]
    cases hload : q.engine.load with
    | error fault => simp [loadOutcome]
    | ok _ =>
      by_cases hdisposed : q.stage = .disposed
      · simp [loadOutcome, Parser.isDisposed, hdisposed]
      · simp [loadOutcome, Parser.isDisposed, hdisposed, isSet]

theorem registries_failBuild (s : Service) (r : RegistryId) (config : LanguageConfig) (p : ParserId)
    (fault : Fault) :
    (s.failGet r config (fun s => .ok (s.disposeParser p)) fault).1.registries = s.registries := by
  rw [failGet]
  split
  · exact registries_release ..
  · exact (registries_release ..).trans (registries_disposeParser ..)

/-- **The end of a load for a registry.** The parser is kept if and only if the load succeeds.
Whether the entry is still that of its language is not asked, which is what makes stale loads
possible. -/
theorem registries_resumeGet (hp : s.parser? p = some q)
    (hstage : q.stage = .initializing ∨ q.stage = .disposed) (r : RegistryId) (language : String)
    (entry : Registration) (signal : Signal) :
    (q.LoadsWell signal → (s.resumeGet t r language (.init entry p .load) signal).1.registries
        = (s.keep r entry.config.key p).registries)
      ∧ (¬q.LoadsWell signal →
        (s.resumeGet t r language (.init entry p .load) signal).1.registries = s.registries) := by
  obtain ⟨s', heq, hquiet⟩ := endLoad_eq hp hstage none signal
  have hended : (s'.release (.lifecycle p)).registries = s.registries := by
    rw [registries_release, hquiet.registries]
    rfl
  -- the registry keeps the parser just if the load did not come to a fault
  rw [resumeGet, resumeInit, heq, leaveInit, ← loadOutcome_eq_ok (s := s)]
  cases houtcome : s.loadOutcome q none (loadResult q signal) with
  | ok _ =>
    refine ⟨fun _ => ?_, fun hnot => absurd rfl hnot⟩
    obtain ⟨s'', hkeep, hquiet'⟩ := keepParser_eq (s'.release (.lifecycle p)) r entry.config p
    dsimp only [getInitialized]
    rw [hkeep, leaveGet, registries_release, hquiet'.registries, keep, keep, modifyRegistry,
      modifyRegistry, hended]
  | error fault =>
    refine ⟨(fun h => by cases h), fun _ => ?_⟩
    exact (registries_failBuild ..).trans hended

theorem registries_failFacade (s : Service) (f : Facade) (request : ParseRequest) (fault : Fault) :
    (s.failFacade f request fault).1.registries = s.registries := (tellFault_quiet ..).registries

theorem registries_facadeParsed (s : Service) (f : Facade) (request : ParseRequest) (p : ParserId)
    (run : Run ParsePoint (ParseResult SyntaxTree)) :
    (s.facadeParsed f request p run).1.registries = s.registries := by
  cases run with
  | waiting point wait => rfl
  | finished result =>
    cases result with
    | ok value => rfl
    | error fault => exact registries_failFacade s f request fault

theorem registries_facadeGot {f : Facade} {x : Stance} {run : Run GetPoint (Option ParserId)}
    (h : GetRuns t f.registry f.language x (s, run)) (request : ParseRequest) :
    (s.facadeGot t f request run).1.registries = s.registries := by
  cases run with
  | waiting point wait => rfl
  | finished result =>
    match result, h with
    | .error fault, _ => exact registries_failFacade s f request fault
    | .ok none, _ => rfl
    | .ok (some p), h =>
      obtain ⟨-, q, hq, hinit⟩ := h.kept p rfl
      have hp : s.offers p = true := offers_iff.mpr ⟨q, hq, by
        simp [Parser.isOffered, Parser.isSettled, Parser.isInitialized, hinit]⟩
      exact (registries_facadeParsed ..).trans (beginParse_runs hp request []).moves.registries

theorem registries_settleRun {π α : Type} {frame : π → Frame}
    {finish : Service → Except Fault α → Service × Except Fault Outcome} {y : Service × Run π α}
    (hfinish : ∀ result, (finish y.1 result).1.registries = y.1.registries) :
    (settleRun t frame finish y).registries = y.1.registries := by
  obtain ⟨s, run⟩ := y
  cases run with
  | waiting point wait => rfl
  | finished result => exact hfinish result

/-- A call that was building a parser goes on. For a facade, parsing follows in the same run, which
keeps and drops no parser. -/
theorem registries_resume (htidy : Tidy s) {frame : Frame} {wait : Wait} (hfits : frame.Fits wait)
    {r : RegistryId} {entry : Registration} (hframe : frame.building? = some (r, entry, p))
    (hr : r < s.registries.size) (hp : s.parser? p = some q)
    (hstage : q.stage = .initializing ∨ q.stage = .disposed) (signal : Signal) :
    (q.LoadsWell signal → (s.resume t signal frame).registries
      = (s.keep r entry.config.key p).registries)
      ∧ (¬q.LoadsWell signal → (s.resume t signal frame).registries = s.registries) := by
  cases frame with
  | getParser r' language point =>
    cases point with
    | lock => cases hframe
    | init entry' p' point =>
      cases hframe
      obtain ⟨rfl, -⟩ := hfits
      rw [resume, registries_settleRun fun _ => rfl]
      exact registries_resumeGet hp hstage r language entry signal
  | facade f goal request point =>
    cases point with
    | parse p' point => cases hframe
    | get point =>
      cases point with
      | lock => cases hframe
      | init entry' p' point =>
        cases hframe
        -- the facade goes on to its parse afterwards, which does not touch registries
        have hpoint : (GetPoint.init entry p point).Fits f.registry f.language wait := hfits
        obtain ⟨rfl, -⟩ := hfits
        have hget := resumeGet_runs (t := t) htidy hpoint (fun entry' p' point' heq => ?_) signal
        rotate_left
        · cases heq
          exact ⟨hr, q, hp, hstage⟩
        rw [resume, registries_settleRun fun _ => (finishFacade_quiet ..).registries]
        have hgot : (s.resumeFacadeParse t f request (.get (.init entry p .load))
            signal).1.registries
            = (s.resumeGet t f.registry f.language (.init entry p .load) signal).1.registries :=
          registries_facadeGot hget request
        rw [hgot]
        exact registries_resumeGet hp hstage f.registry f.language entry signal
  | _ => cases hframe

end Service

namespace Valid

variable {s : Service} {t : TaskId} {r : RegistryId} {entry : Registration} {p : ParserId}
  {q : Parser} {frame : Frame} {wait : Wait}

theorem of_building (h : Valid s) {signal : Option Signal}
    (ht : s.tasks[t]? = some (.waiting frame wait signal))
    (hframe : frame.building? = some (r, entry, p)) :
    r < s.registries.size ∧ ∃ q, s.parser? p = some q ∧ q.origin = some (r, entry)
      ∧ (q.stage = .initializing ∨ q.stage = .disposed) := by
  have hown : ∀ {d}, d ∈ frame.duties → d ∈ (s.footing t).duties := fun hd => by
    rw [Service.footing, ht]
    exact hd
  obtain ⟨-, hr, q, hq, horigin⟩ :=
    (h.agreed.lives.stacked t).of_build (hown (Frame.build_mem_duties.mpr hframe))
  have hload := Frame.load_of_building hframe (h.fine ht).1
  obtain ⟨q', hq', hstage⟩ := h.agreed.lives.stage_of_load (hown (Frame.load_mem_duties.mpr hload))
  rw [hq, Option.some.injEq] at hq'
  exact ⟨hr, q, hq, horigin, hq' ▸ hstage⟩

/-- The step that ends the load of a parser that is being built. -/
theorem registries_step (h : Valid s) (hready : t ∈ s.ready) {signal : Signal}
    (ht : s.tasks[t]? = some (.waiting frame wait (some signal)))
    (hframe : frame.building? = some (r, entry, p)) (hp : s.parser? p = some q) :
    (q.LoadsWell signal → (s.step t).registries = (s.keep r entry.config.key p).registries)
      ∧ (¬q.LoadsWell signal → (s.step t).registries = s.registries) := by
  have hvalid := h.unqueue t
  obtain ⟨hr, q', hq', -, hstage⟩ := h.of_building ht hframe
  rw [hp, Option.some.injEq] at hq'
  subst hq'
  have hregistries := Service.registries_endWait { s with ready := s.ready.erase t } t wait signal
  have hresume := Service.registries_resume (t := t) (hvalid.agreed_endWait ht).tidy
    (h.fine ht).1 hframe
    (by rwa [hregistries]) ((Service.parser?_endWait ..).trans hp) hstage signal
  rw [Service.step_of_waiting hready ht]
  rw [Service.keep, Service.modifyRegistry, hregistries] at hresume
  exact hresume

end Valid

/-! ## The step that is not coherent -/

/-- The next step of the task ends, with success, the load of a parser that it builds for an entry
that is no longer the one of its language. -/
def Service.StaleLoad (s : Service) (t : TaskId) : Prop :=
  t ∈ s.ready ∧ ∃ frame wait r entry p q,
    s.tasks[t]? = some (.waiting frame wait (some .proceed)) ∧ frame.building? = some (r, entry, p)
      ∧ s.parser? p = some q ∧ q.engine.load = .ok () ∧ q.stage ≠ .disposed
      ∧ s.current r entry.config.key ≠ some entry.config

namespace Valid

variable {s : Service} {t : TaskId}

/-- A load that succeeds too late has its parser kept. -/
theorem not_coherent_of_staleLoad (h : Valid s) (hstale : s.StaleLoad t) :
    ¬Coherent (s.step t) := by
  obtain ⟨hready, frame, wait, r, entry, p, q, ht, hframe, hp, hload, hstage, hcurrent⟩ := hstale
  obtain ⟨hr, q', hq', horigin, -⟩ := h.of_building ht hframe
  rw [hp, Option.some.injEq] at hq'
  subst hq'
  have hregistries := (h.registries_step hready ht hframe hp).1 ⟨rfl, hload, hstage⟩
  intro hcoherent
  have hkeeps : (s.step t).Keeps r entry.config.key p :=
    (Stock.keeps_of_registries hregistries).mpr (Service.keeps_keep hr _ _)
  obtain ⟨q₁, entry₁, hq₁, horigin₁, hcurrent₁⟩ := hcoherent.fits hkeeps
  -- the parser is still the one that was built for the old entry
  obtain ⟨q₂, hq₂, hlater⟩ := (h.happening (.step t)).later p q hp
  have hq₂ : (s.step t).parser? p = some q₂ := hq₂
  rw [hq₁, Option.some.injEq] at hq₂
  subst hq₂
  rw [hlater.origin, horigin, Option.some.injEq, Prod.mk.injEq] at horigin₁
  rw [Service.current_of_registries hregistries, Service.current_keep, ← horigin₁.2] at hcurrent₁
  exact hcurrent hcurrent₁

/-- Every other step keeps registries coherent. If all that the task builds is up to date this
follows from its deals; otherwise its load must fail, and then the registries do not change. -/
theorem coherent_step (h : Valid s) (hcoherent : Coherent s) (hfresh : ¬s.StaleLoad t) :
    Coherent (s.step t) := by
  have hlater : Later s (s.step t) := (h.happening (.step t)).later
  by_cases hbuilds : ∀ r entry p, .build r entry p ∈ (s.footing t).duties →
      s.current r entry.config.key = some entry.config
  · rcases h.step_cases t with hquiet | ⟨s₀, hquiet, ht, s₁, status, heq, hdeals, -⟩
    · exact hcoherent.of_registries hlater hquiet.registries
    · have hvalid := h.quiet hquiet
      have hfoot : s₀.footing t = s.footing t := by
        rw [Service.footing, Service.footing, hquiet.tasks]
      -- what the task builds is up to date, and so is what it goes on to build
      have hx : UpToDate (s₀, s₀.footing t) := by
        refine ⟨hcoherent.of_registries (.of_parsers hquiet.parsers) hquiet.registries,
          fun hbuild => ?_⟩
        rw [Service.current_of_registries hquiet.registries]
        exact hbuilds _ _ _ (hfoot ▸ hbuild)
      have hy := hx.deals hdeals (by
        rw [Service.standing_eq_footing rfl]
        exact hvalid.agreed)
      rw [heq]
      exact hy.coherent.of_registries (.of_parsers rfl) rfl
  · -- what the task builds is out of date, so its load fails
    simp only [not_forall] at hbuilds
    obtain ⟨r, entry, p, hbuild, hcurrent⟩ := hbuilds
    obtain ⟨frame, wait, signal, ht, hframe⟩ := Service.waiting_of_duty hbuild
    rw [Frame.build_mem_duties] at hframe
    obtain ⟨-, q, hp, -⟩ := h.of_building ht hframe
    by_cases hready : t ∈ s.ready
    · cases signal with
      | none => exact hcoherent.of_registries hlater (by rw [Service.step_of_unsignalled hready ht])
      | some signal =>
        refine hcoherent.of_registries hlater
          ((h.registries_step hready ht hframe hp).2 fun hwell => ?_)
        obtain ⟨rfl, hload, hstage⟩ := hwell
        exact hfresh ⟨hready, frame, wait, r, entry, p, q, ht, hframe, hp, hload, hstage, hcurrent⟩
    · rw [Service.step_of_not_ready hready]
      exact hcoherent

end Valid

/-! ## Registries throughout a run -/

theorem Happening.coherent {s s' : Service} {a : Service.Action} (h : Happening s a s')
    (hcoherent : Coherent s) (hother : ∀ t, a ≠ .step t) : Coherent s' := by
  have hlater := h.later
  cases h with
  | changes h => exact hcoherent.changes h
  | waits _ _ _ hregistries => exact hcoherent.of_registries hlater hregistries
  | addParser => exact hcoherent.of_registries hlater rfl
  | setEngine p engine => exact hcoherent.of_registries hlater rfl
  | spawn => exact hcoherent.of_registries hlater rfl
  | step => exact absurd rfl (hother _)

/-- **One action keeps registries coherent**, unless it is a stale load: a step that ends the load
of a parser whose entry is no longer the one of its language. -/
theorem Valid.coherent_act {s : Service} (h : Valid s) (hcoherent : Coherent s) (a : Service.Action)
    (hfresh : ∀ t, a = .step t → ¬s.StaleLoad t) : Coherent (s.act a) := by
  by_cases hstep : ∃ t, a = .step t
  · obtain ⟨t, rfl⟩ := hstep
    exact h.coherent_step hcoherent (hfresh t rfl)
  · exact (h.happening a).coherent hcoherent fun t ht => hstep ⟨t, ht⟩

theorem coherent_after {run : List Service.Action}
    (hfresh : ∀ pre t, pre ++ [.step t] <+: run → ¬(Service.after pre).StaleLoad t) :
    Coherent (Service.after run) := by
  induction run using List.reverseRecOn with
  | nil =>
    refine ⟨fun {r key p} hk => ?_⟩
    obtain ⟨g, hg, -⟩ := hk
    cases hg
  | append_singleton run a ih =>
    rw [Service.after_concat]
    refine (valid_after run).coherent_act (ih fun pre t hpre => ?_) a fun t ht => ?_
    · exact hfresh pre t (hpre.trans (List.prefix_append run [a]))
    · subst ht
      exact hfresh run t (List.prefix_refl _)

theorem Valid.keeps_of_initialized {s : Service} (h : Valid s) {p : ParserId} {q : Parser}
    {r : RegistryId} {entry : Registration} (hp : s.parser? p = some q)
    (hinit : q.stage = .initialized) (horigin : q.origin = some (r, entry)) :
    s.Keeps r entry.config.key p := by
  refine (h.agreed.stock.kept hp hinit horigin).resolve_right fun ⟨u, hbuild⟩ => ?_
  obtain ⟨frame, wait, signal, hu, hframe⟩ := Service.waiting_of_duty hbuild
  obtain ⟨-, q', hq', -, hstage⟩ := h.of_building hu (Frame.build_mem_duties.mp hframe)
  rw [hp, Option.some.injEq] at hq'
  subst hq'
  rw [hinit] at hstage
  rcases hstage with hstage | hstage <;> cases hstage

/-- The parser that a call is given is kept under the key of its language. -/
theorem Valid.keeps_of_given {s : Service} (h : Valid s) {t : TaskId} {status : TaskStatus}
    {r : RegistryId} {language : String} {p : ParserId} (ht : s.tasks[t]? = some status)
    (hcall : status.call? = some (.getParser r (some language)))
    (hgiven : (s.step t).result? t = some (.ok (.parser (some p)))) :
    (s.step t).Keeps r (Text.caseFold language) p
      ∧ ∃ q, (s.step t).parser? p = some q ∧ q.stage = .initialized := by
  have hvalid := h.unqueue t
  have hreported : ∀ {result : Except Fault (Option ParserId)},
      result.map Outcome.parser = .ok (.parser (some p)) → result = .ok (some p) := by
    intro result hmap
    cases result with
    | error fault => cases hmap
    | ok found =>
      cases hmap
      rfl
  -- a call is given a parser in its first step or after a wait
  rcases Service.result_of_step ht hcall hgiven with
    hcancelled | ⟨-, hstep⟩ | ⟨frame, wait, signal, rfl, hframe, hstep⟩
  · cases hcancelled
  · rw [hstep] at hgiven ⊢
    obtain ⟨result, hrun, hfinish, hfinal⟩ := Service.result?_settleRun hgiven
    have hkept := (Service.beginGet_runs (t := t) hvalid.agreed.tidy r (some language)).kept p
      (hreported hfinish ▸ hrun)
    rw [Service.start, hfinal]
    exact hkept
  · cases frame with
    | getParser r' language' point =>
      cases hframe
      rw [hstep] at hgiven ⊢
      obtain ⟨result, hrun, hfinish, hfinal⟩ := Service.result?_settleRun hgiven
      have hget := Service.resumeGet_runs (t := t) (hvalid.agreed_endWait ht).tidy (h.fine ht).1
        (fun entry p' point' hpoint => ?_) signal
      · have hkept := hget.kept p (hreported hfinish ▸ hrun)
        rw [Service.resume, hfinal]
        exact hkept
      · subst hpoint
        obtain ⟨hr, q, hq, -, hstage⟩ := hvalid.of_building ht rfl
        rw [Service.registries_endWait, Service.parser?_endWait]
        exact ⟨hr, q, hq, hstage⟩
    | _ => cases hframe

/-- What callers may rely on about the parsers that registries keep, throughout a run. The first
point says it of the registries and the second of what callers are given. -/
structure CacheLaw (run : List Service.Action) : Prop where
  current : ∀ pre, pre <+: run → Coherent (Service.after pre)
  /-- A parser that a call is given was built from the entry that its language has when the call
  ends. -/
  given : ∀ pre t r language status p, pre ++ [.step t] <+: run →
    (Service.after pre).tasks[t]? = some status →
    status.call? = some (.getParser r (some language)) →
    (Service.after (pre ++ [.step t])).result? t = some (.ok (.parser (some p))) →
    ∃ q entry, (Service.after (pre ++ [.step t])).parser? p = some q ∧ q.stage = .initialized
      ∧ q.origin = some (r, entry)
      ∧ (Service.after (pre ++ [.step t])).current r (Text.caseFold language) = some entry.config
  /-- A parser that a registry built and initialized is kept until it is disposed of. -/
  kept : ∀ pre p q r entry, pre <+: run → (Service.after pre).parser? p = some q →
    q.stage = .initialized → q.origin = some (r, entry) →
    (Service.after pre).Keeps r entry.config.key p

/-- **When registries are coherent.** Over every run, callers may rely on the law of the parsers
that are kept if and only if no load succeeds for a language that was taken out or replaced while
the load was under way. -/
theorem cache_law_iff (run : List Service.Action) :
    CacheLaw run ↔ ∀ pre t, pre ++ [.step t] <+: run → ¬(Service.after pre).StaleLoad t := by
  constructor
  · intro hlaw pre t hpre hstale
    have hcoherent := hlaw.current (pre ++ [.step t]) hpre
    rw [Service.after_concat] at hcoherent
    exact (valid_after pre).not_coherent_of_staleLoad hstale hcoherent
  · intro hfresh
    have hcoherent : ∀ pre, pre <+: run → Coherent (Service.after pre) := fun pre hpre =>
      coherent_after fun pre' t hpre' => hfresh pre' t (hpre'.trans hpre)
    refine ⟨hcoherent, fun pre t r language status p hpre ht hcall hgiven => ?_,
      fun pre p q r entry _ hp hinit horigin =>
        (valid_after pre).keeps_of_initialized hp hinit horigin⟩
    -- what the call is given is kept, and what is kept fits its language
    have hfits := (hcoherent (pre ++ [.step t]) hpre)
    rw [Service.after_concat] at hgiven hfits ⊢
    obtain ⟨hkeeps, q, hq, hinit⟩ := (valid_after pre).keeps_of_given ht hcall hgiven
    obtain ⟨q', entry, hq', horigin, hcurrent⟩ := hfits.fits hkeeps
    have hq : ((Service.after pre).act (.step t)).parser? p = some q := hq
    rw [hq, Option.some.injEq] at hq'
    subst hq'
    exact ⟨q, entry, hq, hinit, horigin, hcurrent⟩

/-- A language whose grammar a worker loads. -/
def slowLanguage : LanguageConfig :=
  let blueprint : Blueprint :=
    { name := "Parser", language := "json", engine := { loadPause := .worker } }
  { name := "json", factory := some { build := fun _ => .ok blueprint } }

/-- A language is unregistered while the grammar of its parser is loaded. -/
def unregisteredWhileLoading : List Service.Action :=
  [.newRegistry {} 0 false, .register 0 slowLanguage, .spawn (.getParser 0 (some "json")), .step 0,
    .unregister 0 "json", .finishWork 0, .step 0]

/-- The load succeeds, and the parser of a language that is not known any more is initialized and
kept. -/
theorem kept_after_unregistering :
    (∃ q, (Service.after unregisteredWhileLoading).parser? 0 = some q ∧ q.stage = .initialized)
      ∧ (Service.after unregisteredWhileLoading).Keeps 0 "json" 0
      ∧ (Service.after unregisteredWhileLoading).current 0 "json" = none
      ∧ ¬CacheLaw unregisteredWhileLoading := by
  have hkeeps : (Service.after unregisteredWhileLoading).Keeps 0 "json" 0 :=
    ⟨(Service.after unregisteredWhileLoading).registries[0], rfl, rfl⟩
  have hcurrent : (Service.after unregisteredWhileLoading).current 0 "json" = none := rfl
  refine ⟨⟨(Service.after unregisteredWhileLoading).parsers[0], rfl, rfl⟩, hkeeps,
    hcurrent, fun hlaw => ?_⟩
  obtain ⟨q, entry, -, -, hfits⟩ := (hlaw.current _ (List.prefix_refl _)).fits hkeeps
  rw [hcurrent] at hfits
  cases hfits

end SyntaxForest
