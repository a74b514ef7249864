import SyntaxForest.Proofs.Service.Calls

/-!
# Steps as sequences of moves

Asking a registry for a parser, parsing through a facade, and whole steps of tasks, taken apart into
moves.

* **`Tidy`** — what the service has to be like for a parser to be built: locks of parsers that do
  not exist are free, parsers that are kept are settled, and entries are found under their own keys.
* **`getLocked_runs`** — building a parser, initializing it, keeping it.
* **`start_settles`**, **`resume_settles`** — a task begins its call or goes on with it, and stands
  at its next wait or at its end.
-/

namespace SyntaxForest

/-- The service is fit for building parsers. -/
structure Tidy (s : Service) : Prop where
  fresh : ∀ p, s.parsers.size ≤ p → (s.lock (.lifecycle p)).isFree = true
  cached : ∀ {r : RegistryId} {key : String} {p : ParserId}, s.Keeps r key p → s.settled p = true
  keyed : ∀ {r : RegistryId} {g : Registry} {key : String} {entry : Registration},
    s.registries[r]? = some g → Assoc.get? g.languages key = some entry → entry.config.key = key

namespace Service

variable {t : TaskId} {s : Service} {r : RegistryId} {language : String} {x : Stance} {p : ParserId}
  {entry : Registration} {f : Facade} {q : Parser} {g : Registry}

/-! ## Asking for a parser -/

/-- A run of asking registry `r` for the parser of a language, as moves that end where the call
says. A parser that is given is initialized and kept. -/
structure GetRuns (t : TaskId) (r : RegistryId) (language : String) (x : Stance)
    (y : Service × Run GetPoint (Option ParserId)) : Prop where
  deals : Deals t x (y.1, y.2.footing (GetPoint.duties r) [])
  fits : ∀ point wait, y.2 = .waiting point wait → point.Fits r language wait
  kept : ∀ p, y.2 = .finished (.ok (some p)) →
    y.1.Keeps r (Text.caseFold language) p ∧ ∃ q, y.1.parser? p = some q ∧ q.stage = .initialized

theorem leaveGet_runs
    (h : Deals t x (s, ⟨[.hold (.registry r)], none⟩)) {result : Except Fault (Option ParserId)}
    (hresult : ∀ p, result ≠ .ok (some p)) : GetRuns t r language x (s.leaveGet r result) := by
  refine ⟨h.tail (.move .release), fun _ _ h => (by cases h), fun p hp => ?_⟩
  rw [leaveGet, Run.finished.injEq] at hp
  exact absurd hp (hresult p)

theorem keepParser_eq (s : Service) (r : RegistryId) (config : LanguageConfig) (p : ParserId) :
    ∃ s', s.keepParser r config p = s'.leaveGet r (.ok (some p))
      ∧ Quiet (s.keep r config.key p) s' := by
  rw [keepParser]
  refine ⟨_, rfl, ?_⟩
  split
  · split
    · exact (Quiet.note _ _ _ _).trans (.write _ _)
    · exact .note _ _ _ _
  · exact .note _ _ _ _

theorem keepParser_runs (hr : r < s.registries.size) (hp : s.parser? p = some q)
    (hinit : q.stage = .initialized) (hkey : entry.config.key = Text.caseFold language) :
    GetRuns t r language (s, ⟨[.build r entry p, .hold (.registry r)], none⟩)
      (s.keepParser r entry.config p) := by
  obtain ⟨s', heq, hquiet⟩ := keepParser_eq s r entry.config p
  rw [heq]
  refine ⟨((Relation.ReflTransGen.single (.keep hp hinit)).tail (.move (.quiet hquiet))).tail
    (.move .release), fun _ _ h => (by cases h), fun p' hp' => ?_⟩
  have hp' : p = p' := by simpa [leaveGet] using hp'
  subst hp'
  -- the registry after the move, written out: this is where the parser is found
  refine ⟨⟨{ s.registries[r] with
    parsers := Assoc.set s.registries[r].parsers entry.config.key p }, ?_, ?_⟩, q, ?_, hinit⟩
  · rw [leaveGet, registries_release, hquiet.registries, keep, modifyRegistry,
      Array.getElem?_modify,
      if_pos rfl, Array.getElem?_eq_getElem hr]
    rfl
  · rw [← hkey, Assoc.get?_set_self]
  · rw [leaveGet, parser?_release, hquiet.parser?]
    exact hp

theorem failBuild_runs (hp : ∀ q, s.parser? p = some q → q.stage ≠ .initialized) (fault : Fault) :
    GetRuns t r language (s, ⟨[.build r entry p, .hold (.registry r)], none⟩)
      (s.failGet r entry.config (fun s => .ok (s.disposeParser p)) fault) := by
  rw [failGet]
  split
  · exact leaveGet_runs (.single (.abandon hp)) fun _ h => (by cases h)
  · have hdisposed : Moves t (s, ⟨[.build r entry p, .hold (.registry r)], none⟩)
        ((s.write (creationFailure entry.config fault)).disposeParser p, _) :=
      .head (.quiet (.write _ _)) (disposeParser_moves _ p t _)
    refine leaveGet_runs (hdisposed.deals.tail (.abandon fun q hq => ?_)) fun _ h => (by cases h)
    rw [disposed_of_disposeParser hq]
    decide

/-- The initialization of a parser that was built has come to something: it waits for the load, it
is done, or it failed. These are the three ways on for a task that asked for the parser. -/
theorem getInitialized_runs {run : Run InitPoint Unit}
    (hdeals : Deals t x (s, run.footing (InitPoint.duties p) [.build r entry p,
      .hold (.registry r)]))
    (hr : r < x.1.registries.size) (hkey : entry.config.key = Text.caseFold language)
    (hfits : ∀ point wait, run = .waiting point wait → point = .load ∧ point.Fits p wait)
    (hok : run = .finished (.ok ()) → ∃ q, s.parser? p = some q ∧ q.stage = .initialized)
    (herror : ∀ e, run = .finished (.error e) → ∀ q, s.parser? p = some q →
      q.stage ≠ .initialized) :
    GetRuns t r language x (s.getInitialized r entry p run) := by
  cases run with
  | waiting point wait =>
    refine ⟨?_, fun point' wait' h => ?_, fun _ h => (by cases h)⟩
    · simpa [getInitialized, Run.footing, GetPoint.duties] using hdeals
    · cases h
      obtain ⟨hpoint, hwait⟩ := hfits point wait rfl
      exact ⟨hpoint, hwait, hkey⟩
  | finished result =>
    cases result with
    | ok _ =>
      obtain ⟨q, hq, hinit⟩ := hok rfl
      -- registries are only ever added, so the one asked is still there after the load
      have hr' : r < s.registries.size := Nat.lt_of_lt_of_le hr hdeals.size_registries
      obtain ⟨hkeep, hfits', hkept⟩ := keepParser_runs (t := t) hr' hq hinit hkey
      exact ⟨hdeals.trans hkeep, hfits', hkept⟩
    | error fault =>
      have hfail : GetRuns t r language (s, ⟨[.build r entry p, .hold (.registry r)], none⟩)
          (s.getInitialized r entry p (.finished (.error fault))) :=
        failBuild_runs (herror fault rfl) fault
      exact ⟨hdeals.trans hfail.deals, hfail.fits, hfail.kept⟩

theorem buildRegistry_changes (s : Service) (g : Registry) : Changes s (s.buildRegistry g).1 := by
  have hmade := newRegistry_changes s g.settings g.collector true
  rw [buildRegistry]
  split
  · rename_i made fault heq
    rwa [heq] at hmade
  · rename_i made r heq
    rwa [heq] at hmade

theorem buildParser_changes (s : Service) (g : Registry) (config : LanguageConfig) :
    Changes s (s.buildParser g config).1 := by
  rw [buildParser]
  split
  · exact .refl
  · split
    · exact .refl
    · exact buildRegistry_changes s g
    · exact .refl

/-- A parser that is built is new, and nothing else happens: it has loaded no grammar and counted no
call. -/
theorem buildParser_ok {s s' : Service} {config : LanguageConfig}
    (h : s.buildParser g config = (s', .ok q)) :
    s' = s ∧ q.stage = .uninitialized ∧ q.tally = {} ∧ q.grammarLoaded = false := by
  rw [buildParser] at h
  split at h
  · cases h
  · split at h
    · rename_i factory _ _ _
      rw [Prod.mk.injEq] at h
      obtain ⟨rfl, h⟩ := h
      refine ⟨rfl, ?_⟩
      -- the factory gives a blueprint, and a parser that is made of one has not begun
      cases hbuild : factory.build g.settings with
      | error fault => simp [hbuild, bind, Except.bind] at h
      | ok blueprint =>
        simp only [hbuild, bind, Except.bind, Parser.ofBlueprint] at h
        split at h
        · cases h
        · cases h
          exact ⟨rfl, rfl, rfl⟩
    · rw [buildRegistry] at h
      split at h <;> cases h
    · cases h

theorem disposeUnbuilt_cases (config : LanguageConfig) (s : Service) :
    disposeUnbuilt config s = .ok s ∨ ∃ e, disposeUnbuilt config s = .error e := by
  rw [disposeUnbuilt]
  split
  · split
    · exact Or.inr ⟨_, rfl⟩
    · exact Or.inl rfl
  · exact Or.inl rfl

/-- A parser is kept: it is settled and not disposed of, so it is initialized. This is the case in
which asking needs no load at all. -/
theorem keptParser_runs (htidy : Tidy s) (hg : s.registries[r]? = some g)
    (hkept : s.keptParser? g (Text.caseFold language) = some p) :
    GetRuns t r language (s, ⟨[.hold (.registry r)], none⟩) (s.leaveGet r (.ok (some p))) := by
  refine ⟨.single (.move .release), fun _ _ h => (by cases h), fun p' hp' => ?_⟩
  have hp' : p = p' := by simpa [leaveGet] using hp'
  subst hp'
  rw [keptParser?] at hkept
  split at hkept
  · rename_i p' hget
    split at hkept
    · rename_i hnot
      cases hkept
      obtain ⟨q, hq, hsettled⟩ := settled_iff.mp (htidy.cached ⟨g, hg, hget⟩)
      refine ⟨⟨g, by rw [leaveGet, registries_release, hg], hget⟩, q, ?_, ?_⟩
      · rw [leaveGet, parser?_release, hq]
      · rw [hq, Option.any_some] at hnot
        rw [Parser.isSettled, Bool.or_eq_true] at hsettled
        -- settled is initialized or disposed of, and the lookup leaves out the second
        rcases hsettled with hinit | hdisposed
        · exact of_decide_eq_true hinit
        · rw [hdisposed] at hnot
          cases hnot
    · cases hkept
  · cases hkept

/-- Nothing could be built. -/
theorem failUnbuilt_runs {s tried : Service} (htried : Changes s tried) (r : RegistryId)
    (language : String) (config : LanguageConfig) (fault : Fault) :
    GetRuns t r language (s, ⟨[.hold (.registry r)], none⟩)
      (tried.failGet r config (disposeUnbuilt config) fault) := by
  rw [failGet]
  split
  · exact leaveGet_runs (htried.deals t (by simp)) fun _ h => (by cases h)
  · have hlogged : Changes s (tried.write (creationFailure config fault)) :=
      htried.trans (Changes.quiet (.write _ _))
    dsimp only
    rcases disposeUnbuilt_cases config (tried.write (creationFailure config fault)) with
      heq | ⟨e, heq⟩
    · rw [heq]
      exact leaveGet_runs (hlogged.deals t (by simp)) fun _ h => (by cases h)
    · rw [heq]
      exact leaveGet_runs (hlogged.deals t (by simp)) fun _ h => (by cases h)

/-- A new parser is added, and initialized at once: nobody else knows it, so its life-cycle lock is
free and the only wait can be for the load of its grammar. -/
theorem built_runs (htidy : Tidy s) (hg : s.registries[r]? = some g)
    (hentry : Assoc.get? g.languages (Text.caseFold language) = some entry)
    (hkept : s.keptParser? g (Text.caseFold language) = none)
    (horigin : q.origin = some (r, entry)) (hstage : q.stage = .uninitialized)
    (htally : q.tally = {}) (hgrammar : q.grammarLoaded = false) :
    GetRuns t r language (s, ⟨[.hold (.registry r)], none⟩)
      (((s.addParser q).1.beginInit t s.parsers.size none).1.getInitialized r entry s.parsers.size
        ((s.addParser q).1.beginInit t s.parsers.size none).2) := by
  have hkey := htidy.keyed hg hentry
  have hnew : Deal t (s, ⟨[.hold (.registry r)], none⟩)
      ((s.addParser q).1, ⟨[.build r entry s.parsers.size, .hold (.registry r)], none⟩) :=
    .build hg (hkey ▸ hentry) (hkey ▸ hkept) horigin hstage htally hgrammar
  have hp : (s.addParser q).1.parser? s.parsers.size = some q := by
    rw [parser?, addParser, Array.getElem?_push, if_pos rfl]
  -- the task has the duty of building the parser, which allows it to load a grammar that no caller
  -- knows of
  have hmay : (s.addParser q).1.MayLoad s.parsers.size
      [.build r entry s.parsers.size, .hold (.registry r)] :=
    Or.inr ⟨r, entry, List.mem_cons_self ..⟩
  have hends := beginInit_ends (t := t) hp none
  have hr : r < s.registries.size := (Array.getElem?_eq_some_iff.mp hg).1
  refine getInitialized_runs (.head hnew (beginInit_moves hp none hmay).deals) hr hkey
    (fun point wait h => ?_) hends.ok (fun e h => hends.error e h rfl)
  exact ⟨beginInit_waiting hp (htidy.fresh _ (Nat.le_refl _)) h, hends.fits _ _ h⟩

/-- **Asking for a parser, with the lock of the registry.** The cases are those of `getLocked`: a
registry that is not there, a parser that is kept, a language that is gone by now, a parser that
cannot be built, and one that is. -/
theorem getLocked_runs (htidy : Tidy s) (r : RegistryId) (language : String) :
    GetRuns t r language (s, ⟨[.hold (.registry r)], none⟩) (s.getLocked t r language) := by
  rw [getLocked]
  split
  · exact leaveGet_runs .refl fun _ h => (by cases h)
  · rename_i g hg
    dsimp only
    split
    · rename_i p hkept
      exact keptParser_runs htidy hg hkept
    · rename_i hkept
      split
      · exact leaveGet_runs .refl fun _ h => (by cases h)
      · rename_i entry hentry
        split
        -- a build that failed may have changed the service on its way
        · rename_i tried fault hbuild
          have htried : Changes s tried := by
            have := buildParser_changes s g entry.config
            rwa [hbuild] at this
          exact failUnbuilt_runs htried r language entry.config fault
        · rename_i built parser hbuild
          obtain ⟨rfl, hstage, htally, hgrammar⟩ := buildParser_ok hbuild
          exact built_runs htidy hg hentry hkept
            (q := { parser with origin := some (r, entry) }) rfl
            hstage htally hgrammar

/-- **Asking for a parser begins.** The language is looked up before the lock is taken, so an
unknown one costs no wait; otherwise the task takes the lock of the registry or queues for it. -/
theorem beginGet_runs (htidy : Tidy s) (r : RegistryId) (language : Option String) :
    GetRuns t r (language.getD "") (s, ⟨[], none⟩) (s.beginGet t r language) := by
  unfold beginGet
  split
  · rename_i g name _
    split
    · rcases acquire_cases s (.registry r) t with ⟨hfree, heq⟩ | ⟨-, heq⟩
      · rw [heq]
        -- taking the lock of the registry touches no lock of a parser
        have htidy' : Tidy (s.setLock (.registry r) (s.lock (.registry r)).take) := by
          refine ⟨fun p hp => ?_, htidy.cached, htidy.keyed⟩
          rw [lock_setLock, if_neg (by simp)]
          exact htidy.fresh p hp
        obtain ⟨hdeals, hfits, hkept⟩ := getLocked_runs (t := t) htidy' r name
        exact ⟨.head (.move (.take hfree trivial)) hdeals, hfits, hkept⟩
      · rw [heq]
        refine ⟨.single (.move (.queue trivial)), fun point wait h => ?_, fun _ h => (by cases h)⟩
        cases h
        rfl
    · exact ⟨.single (.move (.quiet (.note _ _ _ _))), fun _ _ h => (by cases h),
      fun _ h => (by cases h)⟩
  · exact ⟨.single (.move (.quiet (.note _ _ _ _))), fun _ _ h => (by cases h),
      fun _ h => (by cases h)⟩

/-- **Asking for a parser goes on after a wait**, for the lock of the registry or for the load of
the parser that this task builds. A load that was waited for has ended now, so there is no second
wait at this point. -/
theorem resumeGet_runs (htidy : Tidy s)
    {point : GetPoint} {wait : Wait} (hfits : point.Fits r language wait)
    (hbuild : ∀ entry p point', point = .init entry p point' → r < s.registries.size
      ∧ ∃ q, s.parser? p = some q ∧ (q.stage = .initializing ∨ q.stage = .disposed))
    (signal : Signal) :
    GetRuns t r language (s, ⟨resumed (point.duties r) wait signal, none⟩)
      (s.resumeGet t r language point signal) := by
  cases point with
  | lock =>
    cases hfits
    cases signal with
    | proceed => exact getLocked_runs htidy r language
    | cancel => exact ⟨.refl, fun _ _ h => (by cases h), fun _ h => (by cases h)⟩
  | init entry p point =>
    obtain ⟨rfl, hwait, hkey⟩ := hfits
    obtain ⟨hr, q, hq, hstage⟩ := hbuild entry p .load rfl
    have hends := endLoad_ends hq hstage none signal
    rw [resumed_of_not_lock hwait]
    refine getInitialized_runs (endLoad_moves hq hstage none signal _).deals hr hkey
      (fun point wait h => ?_) hends.ok (fun e h => hends.error e h rfl)
    -- the end of a load never waits
    · obtain ⟨s', heq, -⟩ := endLoad_eq hq hstage none signal
      have h : (s.endLoad p none signal).2 = .waiting point wait := h
      rw [heq] at h
      cases h

/-! ## Parsing through a facade -/

/-- A run of a parse through a facade, as moves that end where the call says. -/
structure FacadeRuns (t : TaskId) (f : Facade) (x : Stance)
    (y : Service × Run FacadePoint (ParseResult SyntaxTree)) : Prop where
  deals : Deals t x (y.1, y.2.footing (FacadePoint.duties f.registry) [])
  fits : ∀ point wait, y.2 = .waiting point wait → point.Fits f wait
  offers : ∀ p point wait, y.2 = .waiting (.parse p point) wait → y.1.offers p = true

theorem tellFault_quiet {α : Type} (s : Service) (f : Facade) (request : ParseRequest)
    (work opening : String) (fault : Fault) :
    Quiet s (s.tellFault (α := α) f request work opening fault).1 := by
  rw [tellFault]
  split
  · exact .refl s
  · split
    · exact .refl s
    · exact .note _ _ _ _

theorem tellFault_answer {α : Type} (s : Service) (f : Facade) (request : ParseRequest)
    (work opening : String) (fault : Fault) :
    (∃ e, (s.tellFault (α := α) f request work opening fault).2 = .error e)
      ∨ ∃ message, (s.tellFault (α := α) f request work opening fault).2
        = .ok (failedFacade f request message) := by
  rw [tellFault]
  split
  · exact Or.inl ⟨fault, rfl⟩
  · split
    · exact Or.inl ⟨_, rfl⟩
    · exact Or.inr ⟨_, rfl⟩

theorem failFacade_runs (h : Deals t x (s, ⟨[], none⟩)) (request : ParseRequest) (fault : Fault) :
    FacadeRuns t f x (s.failFacade f request fault) := by
  refine ⟨h.tail (.move (.quiet (tellFault_quiet ..))), fun _ _ h => ?_, fun _ _ _ h => ?_⟩
  · cases h
  · cases h

theorem facadeParsed_runs {run : Run ParsePoint (ParseResult SyntaxTree)}
    (h : Deals t x (s, run.footing (ParsePoint.duties p) []))
    (hfits : ∀ point wait, run = .waiting point wait → point.Fits p wait)
    (hp : s.offers p = true) (request : ParseRequest) :
    FacadeRuns t f x (s.facadeParsed f request p run) := by
  cases run with
  | waiting point wait =>
    refine ⟨h, fun point' wait' h => ?_, fun p' point' wait' h => ?_⟩
    · cases h
      exact hfits point wait rfl
    · cases h
      exact hp
  | finished result =>
    cases result with
    | ok value => exact ⟨h, fun _ _ h => (by cases h), fun _ _ _ h => (by cases h)⟩
    | error fault => exact failFacade_runs h request fault

/-- The parser that a facade asked for has come, or not. If it has, the parse begins in the same
step: there is no wait between the two. -/
theorem facadeGot_runs {run : Run GetPoint (Option ParserId)}
    (h : GetRuns t f.registry f.language x (s, run)) (request : ParseRequest) :
    FacadeRuns t f x (s.facadeGot t f request run) := by
  cases run with
  | waiting point wait =>
    refine ⟨h.deals, fun point' wait' heq => ?_, fun p point' wait' heq => ?_⟩
    · cases heq
      exact h.fits point wait rfl
    · cases heq
  | finished result =>
    match result, h with
    | .error fault, h => exact failFacade_runs h.deals request fault
    | .ok none, h => exact ⟨h.deals, fun _ _ h => (by cases h), fun _ _ _ h => (by cases h)⟩
    | .ok (some p), h =>
      -- the parser is initialized, so callers may know it
      obtain ⟨-, q, hq, hinit⟩ := h.kept p rfl
      have hq : s.parser? p = some q := hq
      have hp : s.offers p = true :=
        offers_iff.mpr ⟨q, hq, by
          simp [Parser.isOffered, Parser.isSettled, Parser.isInitialized, hinit]⟩
      have hparse := beginParse_runs (t := t) hp request []
      exact facadeParsed_runs (h.deals.trans hparse.moves.deals) hparse.fits
        (offers_of_later hparse.moves.later hp) request

/-- **A parse through a facade begins.** -/
theorem beginFacadeParse_runs (htidy : Tidy s) (f : Facade) (request : ParseRequest) :
    FacadeRuns t f (s, ⟨[], none⟩) (s.beginFacadeParse t f request) := by
  rw [beginFacadeParse]
  split
  · exact ⟨.refl, fun _ _ h => (by cases h), fun _ _ _ h => (by cases h)⟩
  · generalize hnote : s.note LogRecord.debug facadeLogger
      ("Parsing source code for language " ++ f.language) = noted
    have htidy' : Tidy noted := hnote ▸ ⟨htidy.fresh, htidy.cached, htidy.keyed⟩
    obtain ⟨hdeals, hfits, hkept⟩ := beginGet_runs (t := t) htidy' f.registry (some f.language)
    exact facadeGot_runs ⟨.head (.move (.quiet (hnote ▸ .note _ _ _ _))) hdeals,
      hfits, hkept⟩ request

/-- **A parse through a facade goes on after a wait.** -/
theorem resumeFacadeParse_runs (htidy : Tidy s) {point : FacadePoint}
    {wait : Wait} (hfits : point.Fits f wait)
    (hbuild : ∀ entry p point', point = .get (.init entry p point') → f.registry < s.registries.size
      ∧ ∃ q, s.parser? p = some q ∧ (q.stage = .initializing ∨ q.stage = .disposed))
    (hoffers : ∀ p point', point = .parse p point' → s.offers p = true)
    (hload : ∀ p q, point = .parse p (.init .load) → s.parser? p = some q →
      q.stage = .initializing ∨ q.stage = .disposed) (request : ParseRequest) (signal : Signal) :
    FacadeRuns t f (s, ⟨resumed (point.duties f.registry) wait signal, none⟩)
      (s.resumeFacadeParse t f request point signal) := by
  cases point with
  | get point =>
    exact facadeGot_runs (resumeGet_runs htidy hfits
      (fun entry p point' h => hbuild entry p point' (h ▸ rfl)) signal) request
  | parse p point =>
    -- the parser was offered when the wait began, and a parser that was offered stays known
    have hp := hoffers p point rfl
    obtain ⟨q, hq, -⟩ := offers_iff.mp hp
    have hparse := resumeParse_runs (t := t) hp hq hfits (fun h => hload p q (h ▸ rfl) hq) request
      signal []
    rw [List.append_nil] at hparse
    exact facadeParsed_runs hparse.moves.deals hparse.fits
      (offers_of_later hparse.moves.later hp) request

theorem noteConverter_quiet (s : Service) (tree : SyntaxTree) : Quiet s (s.noteConverter tree) := by
  rw [noteConverter]
  split
  · split
    · exact .note _ _ _ _
    · exact .refl s
  · exact .refl s

theorem declare_quiet (s : Service) (f : Facade) (request : ParseRequest) (tree : SyntaxTree) :
    Quiet s (s.declare f request tree).1 := by
  have hnoted := noteConverter_quiet s tree
  rw [declare]
  split
  · exact hnoted
  · exact hnoted.trans (tellFault_quiet ..)

theorem declarationsOf_quiet (s : Service) (f : Facade) (request : ParseRequest)
    (result : ParseResult SyntaxTree) :
    Quiet s (s.declarationsOf f request result).1 := by
  rw [declarationsOf]
  split
  · exact .refl s
  · split
    · exact declare_quiet s f request _
    · exact tellFault_quiet ..

theorem finishFacade_quiet (s : Service) (f : Facade) (goal : FacadeGoal) (request : ParseRequest)
    (result : Except Fault (ParseResult SyntaxTree)) :
    Quiet s (finishFacade f goal request s result).1 := by
  cases result with
  | error fault => exact .refl s
  | ok parsed =>
    cases goal with
    | tree => exact .refl s
    | validity => exact .refl s
    | errors => exact .refl s
    | declarations => exact declarationsOf_quiet s f request parsed

end Service

/-! ## Whole steps of a task -/

/-- The parsers that a call names. Its caller has to know them. -/
def Call.clients : Call → List ParserId
  | .init p _ => [p]
  | .parse p _ => [p]
  | .scoped p _ => [p]
  | .getParser .. => []
  | .facade .. => []

/-- The parsers that a waiting call uses and did not build. -/
def Frame.clients : Frame → List ParserId
  | .init p _ _ => [p]
  | .parse p _ _ => [p]
  | .scoped p _ _ => [p]
  | .getParser .. => []
  | .facade _ _ _ (.get _) => []
  | .facade _ _ _ (.parse p _) => [p]

/-- The task waits for what its point says, and callers may know the parsers it uses. -/
def TaskStatus.Fine (s : Service) : TaskStatus → Prop
  | .fresh call _ => ∀ p ∈ call.clients, s.offers p = true
  | .waiting frame wait _ => frame.Fits wait ∧ ∀ p ∈ frame.clients, s.offers p = true
  | .finished _ => True

theorem TaskStatus.Fine.later {s s' : Service} (h : Later s s') {status : TaskStatus}
    (hfine : status.Fine s) : status.Fine s' := by
  cases status with
  | fresh call cancelled => exact fun p hp => Service.offers_of_later h (hfine p hp)
  | waiting frame wait signal =>
    exact ⟨hfine.1, fun p hp => Service.offers_of_later h (hfine.2 p hp)⟩
  | finished result => trivial

/-- From the stance `x` the task deals until it stands as the service `s'` says. -/
def Settles (t : TaskId) (x : Stance) (s' : Service) : Prop :=
  ∃ s₁ status, s' = s₁.setTask t status ∧ Deals t x (s₁, status.footing) ∧ status.Fine s₁

namespace Service

theorem settleRun_settles {π α : Type} {duties : π → List Duty} {frame : π → Frame}
    {finish : Service → Except Fault α → Service × Except Fault Outcome} {x : Stance}
    {y : Service × Run π α} (hdeals : Deals t x (y.1, y.2.footing duties []))
    (hduties : ∀ point, (frame point).duties = duties point)
    (hfits : ∀ point wait, y.2 = .waiting point wait → (frame point).Fits wait)
    (hclients : ∀ point wait, y.2 = .waiting point wait →
      ∀ p ∈ (frame point).clients, y.1.offers p = true)
    (hfinish : ∀ result, Moves t (y.1, {}) ((finish y.1 result).1, {})) :
    Settles t x (settleRun t frame finish y) := by
  obtain ⟨s, run⟩ := y
  cases run with
  | waiting point wait =>
    refine ⟨s, .waiting (frame point) wait none, rfl, ?_, hfits point wait rfl,
      hclients point wait rfl⟩
    simpa [Run.footing, TaskStatus.footing, hduties] using hdeals
  | finished result =>
    exact ⟨(finish s result).1, .finished (finish s result).2, rfl,
      hdeals.trans (hfinish result).deals, trivial⟩

theorem finishScope_moves (s : Service) (p : ParserId) (body : Option Fault)
    (result : Except Fault Unit) : Moves t (s, {}) ((finishScope p body s result).1, {}) := by
  cases result with
  | error fault => exact .refl
  | ok _ => exact disposeParser_moves s p t {}

/-- **A task begins its call.** Whatever the call is, the task deals until its first wait or until
its end, and stands there as its status says. -/
theorem start_settles {s : Service} (htidy : Tidy s) {call : Call}
    (hclients : ∀ p ∈ call.clients, s.offers p = true) : Settles t (s, {}) (s.start t call) := by
  -- parsers that were offered before the call are offered when it waits
  have hoffered : ∀ {s' p}, Later s s' → p ∈ call.clients → ∀ p' ∈ [p], s'.offers p' = true :=
    fun hlater hp p' hp' => by
      rw [List.mem_singleton.mp hp']
      exact offers_of_later hlater (hclients _ hp)
  cases call with
  | init p event =>
    have hp := hclients p (List.mem_singleton.mpr rfl)
    obtain ⟨q, hq, -⟩ := offers_iff.mp hp
    have hmoves := beginInit_moves (t := t) hq event (Or.inl hp) (D := [])
    rw [start]
    exact settleRun_settles hmoves.deals (fun _ => rfl) (beginInit_ends hq event).fits
      (fun _ _ _ => hoffered hmoves.later (List.mem_singleton.mpr rfl)) fun _ => .refl
  | «scoped» p body =>
    have hp := hclients p (List.mem_singleton.mpr rfl)
    obtain ⟨q, hq, -⟩ := offers_iff.mp hp
    have hmoves := beginInit_moves (t := t) hq none (Or.inl hp) (D := [])
    rw [start]
    exact settleRun_settles hmoves.deals (fun _ => rfl) (beginInit_ends hq none).fits
      (fun _ _ _ => hoffered hmoves.later (List.mem_singleton.mpr rfl)) (finishScope_moves _ p body)
  | parse p request =>
    have hparse := beginParse_runs (t := t) (hclients p (List.mem_singleton.mpr rfl)) request []
    rw [start]
    exact settleRun_settles hparse.moves.deals (fun _ => rfl) hparse.fits
      (fun _ _ _ => hoffered hparse.moves.later (List.mem_singleton.mpr rfl)) fun _ => .refl
  | getParser r language =>
    have hget := beginGet_runs (t := t) htidy r language
    rw [start]
    exact settleRun_settles hget.deals (fun _ => rfl) hget.fits (fun _ _ _ _ h => (by cases h))
      fun _ => .refl
  | facade f goal request =>
    have hfacade := beginFacadeParse_runs (t := t) htidy f request
    rw [start]
    refine settleRun_settles hfacade.deals (fun _ => rfl) hfacade.fits (fun point wait h p hp => ?_)
      fun _ => .single (.quiet (finishFacade_quiet _ f goal request _))
    cases point with
    | get point => cases hp
    | parse p' point =>
      rw [List.mem_singleton.mp hp]
      exact hfacade.offers p' point wait h

/-- **A task goes on with its call.** The frame says where it stopped and the signal whether it may
proceed or is cancelled. A task that has the load of a parser to end finds it loading or disposed
of, and the registry of a parser that it builds is there: both are known of every task that waits,
by the invariant of the service. -/
theorem resume_settles {s : Service} (htidy : Tidy s) {frame : Frame} {wait : Wait}
    (hfits : frame.Fits wait) (hclients : ∀ p ∈ frame.clients, s.offers p = true)
    (hloads : ∀ p, .load p ∈ frame.duties → ∃ q, s.parser? p = some q
      ∧ (q.stage = .initializing ∨ q.stage = .disposed))
    (hbuilds : ∀ r entry p, .build r entry p ∈ frame.duties → r < s.registries.size)
    (signal : Signal) :
    Settles t (s, ⟨resumed frame.duties wait signal, none⟩) (s.resume t signal frame) := by
  have hoffered : ∀ {s' p}, Later s s' → p ∈ frame.clients → ∀ p' ∈ [p], s'.offers p' = true :=
    fun hlater hp p' hp' => by
      rw [List.mem_singleton.mp hp']
      exact offers_of_later hlater (hclients _ hp)
  -- the same parser, found once as a client and once by the duty of loading it
  have hstage : ∀ {p q}, s.parser? p = some q → .load p ∈ frame.duties →
      q.stage = .initializing ∨ q.stage = .disposed := fun {p q} hq hload => by
    obtain ⟨q', hq', hstage⟩ := hloads p hload
    rw [hq, Option.some.injEq] at hq'
    exact hq' ▸ hstage
  -- the cases are the kinds of calls; initialization and the scoped use differ only in what is done
  -- at the end
  cases frame with
  | init p event point =>
    have hp := hclients p (List.mem_singleton.mpr rfl)
    obtain ⟨q, hq, -⟩ := offers_iff.mp hp
    have hload : point = .load → q.stage = .initializing ∨ q.stage = .disposed := fun h =>
      hstage hq (by simp [h, Frame.duties, InitPoint.duties])
    have hmoves := resumeInit_moves (t := t) hq hfits hload event signal (Or.inl hp) (D := [])
    rw [List.append_nil] at hmoves
    rw [resume]
    exact settleRun_settles hmoves.deals (fun _ => rfl)
      (fun _ _ => resumeInit_fits hq hload event signal)
      (fun _ _ _ => hoffered hmoves.later (List.mem_singleton.mpr rfl)) fun _ => .refl
  | «scoped» p body point =>
    have hp := hclients p (List.mem_singleton.mpr rfl)
    obtain ⟨q, hq, -⟩ := offers_iff.mp hp
    have hload : point = .load → q.stage = .initializing ∨ q.stage = .disposed := fun h =>
      hstage hq (by simp [h, Frame.duties, InitPoint.duties])
    have hmoves := resumeInit_moves (t := t) hq hfits hload none signal (Or.inl hp) (D := [])
    rw [List.append_nil] at hmoves
    rw [resume]
    exact settleRun_settles hmoves.deals (fun _ => rfl)
      (fun _ _ => resumeInit_fits hq hload none signal)
      (fun _ _ _ => hoffered hmoves.later (List.mem_singleton.mpr rfl)) (finishScope_moves _ p body)
  | parse p request point =>
    have hp := hclients p (List.mem_singleton.mpr rfl)
    obtain ⟨q, hq, -⟩ := offers_iff.mp hp
    have hparse := resumeParse_runs (t := t) hp hq hfits
      (fun h => hstage hq (by simp [h, Frame.duties, ParsePoint.duties, InitPoint.duties]))
      request signal []
    rw [List.append_nil] at hparse
    rw [resume]
    exact settleRun_settles hparse.moves.deals (fun _ => rfl) hparse.fits
      (fun _ _ _ => hoffered hparse.moves.later (List.mem_singleton.mpr rfl)) fun _ => .refl
  | getParser r language point =>
    have hget := resumeGet_runs (t := t) htidy hfits (fun entry p point' h => ?_) signal
    · rw [resume]
      exact settleRun_settles hget.deals (fun _ => rfl) hget.fits (fun _ _ _ _ h => (by cases h))
        fun _ => .refl
    · subst h
      -- the point fits its wait, so a parser that is being built waits for its load and for nothing
      -- else
      obtain ⟨rfl, -⟩ := hfits
      exact ⟨hbuilds r entry p (by simp [Frame.duties, GetPoint.duties]),
        hloads p (by simp [Frame.duties, GetPoint.duties, InitPoint.duties])⟩
  | facade f goal request point =>
    have hfacade := resumeFacadeParse_runs (t := t) htidy hfits (fun entry p point' h => ?_)
      (fun p point' h => ?_) (fun p q h hq => ?_) request signal
    · rw [resume]
      refine settleRun_settles hfacade.deals (fun _ => rfl) hfacade.fits
        (fun point wait h p hp => ?_)
        fun _ => .single (.quiet (finishFacade_quiet _ f goal request _))
      cases point with
      | get point => cases hp
      | parse p' point =>
        rw [List.mem_singleton.mp hp]
        exact hfacade.offers p' point wait h
    · subst h
      obtain ⟨rfl, -⟩ := hfits
      exact ⟨hbuilds _ entry p (by simp [Frame.duties, FacadePoint.duties, GetPoint.duties]),
        hloads p (by simp [Frame.duties, FacadePoint.duties, GetPoint.duties, InitPoint.duties])⟩
    · subst h
      exact hclients p (List.mem_singleton.mpr rfl)
    · subst h
      exact hstage hq (by simp [Frame.duties, FacadePoint.duties, ParsePoint.duties,
        InitPoint.duties])

end Service

end SyntaxForest
