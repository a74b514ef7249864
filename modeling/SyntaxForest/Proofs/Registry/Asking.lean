import Mathlib.Data.List.Infix
import Mathlib.Tactic.IntervalCases
import SyntaxForest.Proofs.Registry.StaleLoads

/-!
# What asking for a parser comes to

A caller who asks a registry for the parser of a language is given an initialized one, or none if
there is none to be had; only lack of memory and cancellation are passed on as faults. A call makes
sure that its language is known before it waits for the lock of the registry, and does not look
again: if the language is unregistered while the call waits, for the lock or for the load of the
grammar, the caller gets a fault or the parser of a language that is not there. Interruptions, which
a factory or a load may raise, are passed on as well: nobody deals with them.

* **`Service.Answers`** — what a call may come to.
* **`Service.Overtaken`** — the step of a call that goes on although its language was unregistered.
* **`Service.Interrupted`** — the step of a call in which a factory or a load raises an
  interruption.
* **`getLocked_ends`**, **`beginGet_ends`**, **`resumeGet_ends`** — how asking ends, one function
  after another.
* **`Valid.answers_step`**, **`Valid.not_answers_of_overtaken`**, **`Valid.raises_of_interrupted`**
  — a step that ends a call answers it if and only if it is neither overtaken nor interrupted.
* **`asking_law_iff`** — the same throughout a run.
-/

namespace SyntaxForest

/-- The entry stands for settings, which are no parsers and cannot be disposed of like one. -/
def LanguageConfig.makesSettings (config : LanguageConfig) : Bool :=
  match config.resolveFactory with
  | .ok factory => factory.product = .settings
  | .error _ => false

namespace Service

/-- Every language has a factory that makes parsers, or none that can be found. -/
def MakesParsers (s : Service) : Prop :=
  ∀ g ∈ s.registries, ∀ entry ∈ g.languages.values, entry.config.makesSettings = false

instance (s : Service) : Decidable s.MakesParsers :=
  inferInstanceAs (Decidable (∀ g ∈ s.registries, ∀ entry ∈ g.languages.values,
    entry.config.makesSettings = false))

/-- What asking registry `r` for the parser of the language under the key may come to. -/
inductive Answers (s : Service) (r : RegistryId) (key : String) : Except Fault Outcome → Prop
  | none : Answers s r key (.ok (.parser none))
  | given {p : ParserId} {q : Parser} (hp : s.parser? p = some q) (hinit : q.stage = .initialized)
      (hknown : s.current r key ≠ none) : Answers s r key (.ok (.parser (some p)))
  | fault {fault : Fault} (hfault : fault.isOutOfMemory = true ∨ fault.isCancelled = true) :
      Answers s r key (.error fault)

/-- The registry is there, and it does not know the language. -/
def Lacks (s : Service) (r : RegistryId) (key : String) : Prop :=
  ∃ g, s.registries[r]? = some g ∧ Assoc.get? g.languages key = none

/-- A call that waits at this point goes on: nothing is left to wait for, or the load succeeds. -/
def GoesOn (s : Service) : GetPoint → Prop
  | .lock => True
  | .init _ p _ => ∃ q, s.parser? p = some q ∧ q.LoadsWell .proceed

/-- A call that waits at this point for a parser that it builds waits for one that is there. -/
def Building (s : Service) (r : RegistryId) : GetPoint → Prop
  | .lock => True
  | .init _ p _ =>
    r < s.registries.size ∧ ∃ q, s.parser? p = some q
      ∧ (q.stage = .initializing ∨ q.stage = .disposed)

/-- The next step of the task goes on with asking for the parser of a language that is not known any
more. -/
def Overtaken (s : Service) (t : TaskId) : Prop :=
  t ∈ s.ready ∧ ∃ r language point wait,
    s.tasks[t]? = some (.waiting (.getParser r language point) wait (some .proceed))
      ∧ s.Lacks r (Text.caseFold language) ∧ s.GoesOn point

/-- Where the lock of registry `r` is held, making the parser of the language under the key raises
this fault at once: the factory raises it, or the initialization of the parser ends with it and does
not have to wait. -/
def MakingRaises (s : Service) (t : TaskId) (r : RegistryId) (key : String) (e : Fault) : Prop :=
  ∃ g entry, s.registries[r]? = some g ∧ s.keptParser? g key = none
    ∧ Assoc.get? g.languages key = some entry
    ∧ ((s.buildParser g entry.config).2 = .error e
      ∨ ∃ built q, s.buildParser g entry.config = (built, .ok q)
        ∧ ((built.addParser { q with origin := some (r, entry) }).1.beginInit t
          built.parsers.size none).2
          = .finished (.error e))

/-- In its next step the task looks for the parser of a language, and this is the service when it
gets the lock of registry `r` to do so. -/
inductive Looks (s : Service) (t : TaskId) (r : RegistryId) (language : String) : Service → Prop
  | begins {g : Registry} {locked : Service}
      (ht : s.tasks[t]? = some (.fresh (.getParser r (some language)) false))
      (hg : s.registries[r]? = some g) (hsupported : g.isSupported (some language) = true)
      (hlocked : ({ s with ready := s.ready.erase t } : Service).acquire (.registry r) t
        = (locked, true)) :
      Looks s t r language locked
  | waited {wait : Wait}
      (ht : s.tasks[t]? = some (.waiting (.getParser r language .lock) wait (some .proceed))) :
      Looks s t r language (({ s with ready := s.ready.erase t } : Service).endWait t wait .proceed)

/-- **The next step of the task is interrupted** while it asks for a parser: by the factory or by
the load of the grammar, in the step in which the parser is made or in the one in which the load
ends. -/
def Interrupted (s : Service) (t : TaskId) : Prop :=
  t ∈ s.ready ∧ ∃ e r language, e.isInterruption = true
    ∧ ((∃ s₁, s.Looks t r language s₁ ∧ s₁.MakingRaises t r (Text.caseFold language) e)
      ∨ ∃ entry p point wait q,
        s.tasks[t]? = some (.waiting (.getParser r language (.init entry p point))
          wait (some .proceed))
          ∧ s.parser? p = some q ∧ q.engine.load = .error e)

theorem current_ne_none {s : Service} {r : RegistryId} {key : String} (hr : r < s.registries.size) :
    s.current r key ≠ none ↔ ¬s.Lacks r key := by
  simp [current, Lacks, Array.getElem?_eq_getElem hr]

theorem goesOn_endWait (s : Service) (t : TaskId) (wait : Wait) (signal : Signal)
    (point : GetPoint) :
    (s.endWait t wait signal).GoesOn point ↔ s.GoesOn point := by
  cases point with
  | lock => exact Iff.rfl
  | init entry p point => rw [GoesOn, GoesOn, parser?_endWait]

theorem lacks_of_registries {s s' : Service} (h : s'.registries = s.registries) {r : RegistryId}
    {key : String} :
    s'.Lacks r key ↔ s.Lacks r key := by
  rw [Lacks, Lacks, h]

/-! ## How asking ends -/

/-- No parser is given, and no fault is raised that callers are not used to. -/
def Declined (result : Except Fault (Option ParserId)) : Prop :=
  result = .ok none ∨ ∃ fault, result = .error fault ∧ passesOn fault = true

variable {s : Service} {t : TaskId} {r : RegistryId} {language : String}
  {result : Except Fault (Option ParserId)}

theorem failGet_ends {config : LanguageConfig} {dispose : Service → Except Fault Service}
    (hdispose : ∀ s', ∃ s'', dispose s' = .ok s'') {fault : Fault}
    (h : (s.failGet r config dispose fault).2 = .finished result) : Declined result := by
  rw [failGet] at h
  split at h
  · rename_i hpasses
    cases h
    exact .inr ⟨fault, rfl, hpasses⟩
  · obtain ⟨disposed, heq⟩ := hdispose (s.write (creationFailure config fault))
    simp only [heq] at h
    cases h
    exact .inl rfl

theorem getInitialized_ends {entry : Registration} {p : ParserId} {run : Run InitPoint Unit}
    (h : (s.getInitialized r entry p run).2 = .finished result) :
    Declined result ∨ run = .finished (.ok ()) ∧ result = .ok (some p)
      ∧ ∀ r' key, (s.getInitialized r entry p run).1.current r' key = s.current r' key := by
  cases run with
  | waiting point wait => cases h
  | finished outcome =>
    cases outcome with
    | error fault => exact .inl (failGet_ends (fun s' => ⟨s'.disposeParser p, rfl⟩) h)
    | ok _ =>
      -- keeping a parser leaves the entries of languages as they are
      obtain ⟨s', heq, hquiet⟩ := keepParser_eq s r entry.config p
      rw [getInitialized, heq] at h ⊢
      cases h
      refine .inr ⟨rfl, rfl, fun r' key => ?_⟩
      have hkept : (s'.release (.registry r)).registries
          = (s.keep r entry.config.key p).registries := by
        rw [registries_release, hquiet.registries]
      exact (current_of_registries hkept r' key).trans (current_keep ..)

theorem disposeUnbuilt_ok {config : LanguageConfig} (h : config.makesSettings = false)
    (s : Service) :
    disposeUnbuilt config s = .ok s := by
  rw [LanguageConfig.makesSettings] at h
  rw [disposeUnbuilt]
  split
  · rename_i factory hfactory
    rw [hfactory] at h
    rw [if_neg (of_decide_eq_false h)]
  · rfl

theorem registries_beginNew (s : Service) (t : TaskId) (r : RegistryId) (entry : Registration)
    (q : Parser) :
    ((s.addParser q).1.beginInit t s.parsers.size none).1.registries = s.registries := by
  have hp : (s.addParser q).1.parser? s.parsers.size = some q := by
    rw [parser?, addParser, Array.getElem?_push, if_pos rfl]
  have hmay : (s.addParser q).1.MayLoad s.parsers.size [.build r entry s.parsers.size] :=
    .inr ⟨r, entry, List.mem_cons_self⟩
  exact (beginInit_moves (t := t) hp none hmay).registries

/-- **Asking with the lock of the registry.** The language is not known, or a parser is given, or
none. In the second case the lookup has not changed any language, so what was known is known when
the call ends. -/
theorem getLocked_ends {g : Registry} (hg : s.registries[r]? = some g)
    (hmakes : ∀ entry, Assoc.get? g.languages (Text.caseFold language) = some entry →
      entry.config.makesSettings = false)
    (h : (s.getLocked t r language).2 = .finished result) :
    Declined result ∨ (∃ p, result = .ok (some p)
        ∧ ∀ r' key, (s.getLocked t r language).1.current r' key = s.current r' key)
      ∨ Assoc.get? g.languages (Text.caseFold language) = none := by
  rw [getLocked, hg] at h ⊢
  dsimp only at h ⊢
  -- a parser that is kept, a language without an entry, or a parser to be made
  cases hkept : s.keptParser? g (Text.caseFold language) with
  | some p =>
    rw [hkept] at h
    cases h
    exact .inr (.inl ⟨p, rfl, fun r' key => current_of_registries (registries_release ..) r' key⟩)
  | none =>
    cases hentry : Assoc.get? g.languages (Text.caseFold language) with
    | none => exact .inr (.inr rfl)
    | some entry =>
      simp only [hkept, hentry] at h ⊢
      cases hbuild : s.buildParser g entry.config with
      | mk tried outcome =>
        cases outcome with
        | error fault =>
          simp only [hbuild] at h
          exact .inl (failGet_ends (fun s' => ⟨s', disposeUnbuilt_ok (hmakes entry hentry) s'⟩) h)
        | ok parser =>
          obtain ⟨rfl, -⟩ := buildParser_ok hbuild
          simp only [hbuild] at h ⊢
          rcases getInitialized_ends h with hdeclined | ⟨-, rfl, hcurrent⟩
          · exact .inl hdeclined
          · refine .inr (.inl ⟨_, rfl, fun r' key => (hcurrent r' key).trans
              (current_of_registries ?_ r' key)⟩)
            exact registries_beginNew tried t r entry { parser with origin := some (r, entry) }

theorem MakesParsers.of_get? (h : s.MakesParsers) {g : Registry} (hg : s.registries[r]? = some g)
    {key : String} {entry : Registration} (hentry : Assoc.get? g.languages key = some entry) :
    entry.config.makesSettings = false :=
  h g (Array.mem_of_getElem? hg) entry (Assoc.mem_values_of_get? hentry)

/-! ## Interruptions -/

section Interruptions

variable {e : Fault}

theorem failGet_error_iff {config : LanguageConfig} {dispose : Service → Except Fault Service}
    (hdispose : ∀ s', ∃ s'', dispose s' = .ok s'') (he : e.isInterruption = true) {fault : Fault} :
    (s.failGet r config dispose fault).2 = .finished (.error e) ↔ fault = e := by
  constructor
  · intro h
    rw [failGet] at h
    split at h
    · cases h
      rfl
    · obtain ⟨disposed, heq⟩ := hdispose (s.write (creationFailure config fault))
      simp only [heq] at h
      cases h
  · rintro rfl
    rw [failGet, Fault.isFailure_of_isInterruption he, Bool.not_false, Bool.or_true, if_pos rfl]
    rfl

theorem getInitialized_error_iff {entry : Registration} {p : ParserId} {run : Run InitPoint Unit}
    (he : e.isInterruption = true) :
    (s.getInitialized r entry p run).2 = .finished (.error e) ↔ run = .finished (.error e) := by
  cases run with
  | waiting point wait => exact iff_of_false (fun h => by cases h) fun h => by cases h
  | finished outcome =>
    cases outcome with
    | error fault =>
      rw [Run.finished.injEq, Except.error.injEq]
      exact failGet_error_iff (fun s' => ⟨s'.disposeParser p, rfl⟩) he
    | ok _ =>
      obtain ⟨s', heq, -⟩ := keepParser_eq s r entry.config p
      rw [getInitialized, heq]
      exact iff_of_false (fun h => by cases h) fun h => by cases h

/-- **Asking with the lock of the registry** is interrupted by the making of the parser only.
Looking up a parser that is kept raises nothing, and the lookup of the language raises a fault of
its own. -/
theorem getLocked_error_iff (hmakes : s.MakesParsers) (he : e.isInterruption = true) :
    (s.getLocked t r language).2 = .finished (.error e)
      ↔ s.MakingRaises t r (Text.caseFold language) e := by
  cases hg : s.registries[r]? with
  | none =>
    rw [getLocked, hg]
    refine iff_of_false (fun h => by cases h) ?_
    rintro ⟨g, entry, hg', -⟩
    cases hg.symm.trans hg'
  | some g =>
    rw [getLocked, hg]
    dsimp only
    cases hkept : s.keptParser? g (Text.caseFold language) with
    | some p =>
      refine iff_of_false (fun h => by cases h) ?_
      rintro ⟨g', entry, hg', hkept', -⟩
      cases hg.symm.trans hg'
      cases hkept.symm.trans hkept'
    | none =>
      cases hentry : Assoc.get? g.languages (Text.caseFold language) with
      | none =>
        -- the fault of the lookup is not an interruption
        refine iff_of_false (fun h => ?_) ?_
        · cases h
          cases he
        · rintro ⟨g', entry, hg', -, hentry', -⟩
          cases hg.symm.trans hg'
          cases hentry.symm.trans hentry'
      | some entry =>
        -- registry and entry are determined by the key, so only what the making raises is left
        have hmaking : s.MakingRaises t r (Text.caseFold language) e
            ↔ (s.buildParser g entry.config).2 = .error e
              ∨ ∃ built q, s.buildParser g entry.config = (built, .ok q)
                ∧ ((built.addParser { q with origin := some (r, entry) }).1.beginInit
                  t built.parsers.size none).2
                  = .finished (.error e) := by
          rw [MakingRaises]
          constructor
          · rintro ⟨g', entry', hg', -, hentry', hraises⟩
            cases hg.symm.trans hg'
            cases hentry.symm.trans hentry'
            exact hraises
          · exact fun hraises => ⟨g, entry, hg, hkept, hentry, hraises⟩
        rw [hmaking]
        dsimp only
        -- the factory raises the fault, or the parser that it made is initialized and does
        cases hbuild : s.buildParser g entry.config with
        | mk tried outcome =>
          cases outcome with
          | error fault =>
            dsimp only
            rw [failGet_error_iff
              (fun s' => ⟨s', disposeUnbuilt_ok (hmakes.of_get? hg hentry) s'⟩) he,
              Except.error.injEq]
            refine (or_iff_left ?_).symm
            rintro ⟨built, q, hbuilt, -⟩
            cases hbuilt
          | ok parser =>
            dsimp only
            rw [getInitialized_error_iff he]
            constructor
            · exact fun hend => Or.inr ⟨tried, parser, rfl, hend⟩
            · rintro (hnever | ⟨built, q, hbuilt, hend⟩)
              · cases hnever
              · cases hbuilt
                exact hend

theorem Looks.makesParsers {s₁ : Service} (h : s.Looks t r language s₁) (hmakes : s.MakesParsers) :
    s₁.MakesParsers := by
  cases h with
  | begins ht hg hsupported hlocked =>
    rcases acquire_cases { s with ready := s.ready.erase t } (.registry r) t with
      ⟨-, heq⟩ | ⟨-, heq⟩
    · cases hlocked.symm.trans heq
      exact hmakes
    · cases hlocked.symm.trans heq
  | waited ht => rwa [MakesParsers, registries_endWait]

theorem beginGet_of_free {g : Registry} (hg : s.registries[r]? = some g)
    (hsupported : g.isSupported (some language) = true) {locked : Service}
    (hlocked : s.acquire (.registry r) t = (locked, true)) :
    s.beginGet t r (some language) = locked.getLocked t r language := by
  unfold beginGet
  simp only [hg, if_pos hsupported, hlocked]

/-- A load that ends is interrupted by what the engine raises. A load that was called off ends with
a cancellation instead, which is none. -/
theorem resumeGet_error_iff {entry : Registration} {p : ParserId} {q : Parser}
    (hq : s.parser? p = some q) (hstage : q.stage = .initializing ∨ q.stage = .disposed)
    (he : e.isInterruption = true) {signal : Signal} :
    (s.resumeGet t r language (.init entry p .load) signal).2 = .finished (.error e)
      ↔ signal = .proceed ∧ q.engine.load = .error e := by
  obtain ⟨s', heq, -⟩ := endLoad_eq hq hstage none signal
  have hend : (s.resumeInit t p none .load signal).2
      = .finished (s.loadOutcome q none (loadResult q signal)) := by
    rw [resumeInit, heq, leaveInit]
  rw [resumeGet]
  dsimp only
  rw [getInitialized_error_iff he, hend, Run.finished.injEq]
  -- an initialization may end with faults of its own too, but none of them is an interruption
  constructor
  · intro houtcome
    cases signal with
    | cancel =>
      cases houtcome
      cases he
    | proceed =>
      refine ⟨rfl, ?_⟩
      rw [loadResult] at houtcome
      cases hload : q.engine.load with
      | error fault =>
        rw [hload] at houtcome
        exact houtcome
      | ok _ =>
        rw [hload, loadOutcome] at houtcome
        split at houtcome
        · cases houtcome
          cases he
        · split at houtcome <;> cases houtcome
          cases he
  · rintro ⟨rfl, hload⟩
    rw [loadResult, hload]
    rfl

end Interruptions

/-- A call ends without a parser, or with one of a language that is known. -/
def EndsWell (r : RegistryId) (key : String) (y : Service × Run GetPoint (Option ParserId)) :
    Prop :=
  ∀ result, y.2 = .finished result → Declined result ∨ ∃ p, result = .ok (some p)
    ∧ y.1.current r key ≠ none

theorem getLocked_endsWell (hmakes : s.MakesParsers)
    (hknown : ¬s.Lacks r (Text.caseFold language)) :
    EndsWell r (Text.caseFold language) (s.getLocked t r language) := by
  intro result h
  cases hg : s.registries[r]? with
  | none =>
    rw [getLocked, hg] at h
    cases h
    exact .inl (.inl rfl)
  | some g =>
    rcases getLocked_ends hg (fun entry hentry => hmakes.of_get? hg hentry) h with
      hdeclined | ⟨p, hp, hcurrent⟩ | hnone
    · exact .inl hdeclined
    · refine .inr ⟨p, hp, ?_⟩
      rw [hcurrent]
      exact (current_ne_none (Array.getElem?_eq_some_iff.mp hg).1).mpr hknown
    · exact absurd ⟨g, hg, hnone⟩ hknown

/-- **Asking begins.** The language is known when the lock is free, since it was looked up in the
same run and nobody else had a turn in between. -/
theorem beginGet_ends (hmakes : s.MakesParsers) (language : Option String) :
    EndsWell r (Text.caseFold (language.getD "")) (s.beginGet t r language) := by
  unfold beginGet
  split
  · rename_i g name hg
    split
    · rename_i hsupported
      rcases acquire_cases s (.registry r) t with ⟨-, heq⟩ | ⟨-, heq⟩
      · rw [heq]
        refine getLocked_endsWell (s := s.setLock (.registry r) (s.lock (.registry r)).take)
          hmakes ?_
        -- the call was told that the language is supported, and nothing has happened since
        rintro ⟨g', hg', hnone⟩
        cases hg.symm.trans hg'
        have hcontains : Assoc.contains g.languages (Text.caseFold name) = true :=
          (Bool.and_eq_true_iff.mp hsupported).2
        rw [Assoc.contains_eq_isSome, show Assoc.get? g.languages (Text.caseFold name)
          = none from hnone] at hcontains
        cases hcontains
      · rw [heq]
        intro result h
        cases h
    · intro result h
      cases h
      exact .inl (.inl rfl)
  · intro result h
    cases h
    exact .inl (.inl rfl)

/-- **Asking goes on**, unless it is overtaken. The language may have been taken out while the call
waited, which is what the hypothesis of fairness excludes. -/
theorem resumeGet_ends (hmakes : s.MakesParsers) {point : GetPoint} {wait : Wait}
    (hfits : point.Fits r language wait) (hbuilding : s.Building r point) {signal : Signal}
    (hfair : signal = .proceed → s.Lacks r (Text.caseFold language) → ¬s.GoesOn point) :
    EndsWell r (Text.caseFold language) (s.resumeGet t r language point signal) := by
  cases point with
  | lock =>
    cases signal with
    | proceed => exact getLocked_endsWell hmakes fun hlacks => hfair rfl hlacks trivial
    | cancel =>
      intro result h
      cases h
      exact .inl (.inr ⟨.cancelled, rfl, rfl⟩)
  | init entry p point =>
    obtain ⟨rfl, -, -⟩ := hfits
    obtain ⟨hr, q, hq, hstage⟩ := hbuilding
    intro result h
    rcases getInitialized_ends h with hdeclined | ⟨hrun, hp, hcurrent⟩
    · exact .inl hdeclined
    · refine .inr ⟨p, hp, ?_⟩
      -- a parser is given only if the load succeeded, and then the language is known by assumption
      obtain ⟨s', heq, -⟩ := endLoad_eq hq hstage none signal
      have hwell : q.LoadsWell signal := by
        have hrun : (s.endLoad p none signal).2 = .finished (.ok ()) := hrun
        rw [heq, leaveInit, Run.finished.injEq] at hrun
        exact loadOutcome_eq_ok.mp hrun
      obtain rfl : signal = .proceed := hwell.1
      have hknown : s.current r (Text.caseFold language) ≠ none :=
        (current_ne_none hr).mpr fun hlacks => hfair rfl hlacks ⟨q, hq, hwell⟩
      have hregistries : (s.resumeInit t p none .load .proceed).1.registries = s.registries :=
        (endLoad_moves (t := t) hq hstage none .proceed []).registries
      exact fun hnone =>
        hknown ((current_of_registries hregistries ..).symm.trans ((hcurrent ..).symm.trans hnone))

theorem current_of_lacks {key : String} (h : s.Lacks r key) : s.current r key = none := by
  obtain ⟨g, hg, hnone⟩ := h
  rw [current, hg, Option.bind_some, hnone]
  rfl

/-- A load that succeeds gives its parser to the caller. -/
theorem resumeGet_loaded {p : ParserId} {q : Parser} (hq : s.parser? p = some q)
    (hstage : q.stage = .initializing ∨ q.stage = .disposed) (hwell : q.LoadsWell .proceed)
    (r : RegistryId) (language : String) (entry : Registration) :
    ∃ s', s.resumeGet t r language (.init entry p .load) .proceed = (s', .finished (.ok (some p)))
      ∧ ∀ r' key, s'.current r' key = s.current r' key := by
  obtain ⟨loaded, heq, -⟩ := endLoad_eq hq hstage none .proceed
  rw [loadOutcome_eq_ok.mpr hwell] at heq
  have hended : (s.endLoad p none .proceed).2 = .finished (.ok ()) := by
    rw [heq]
    rfl
  have hregistries : (s.endLoad p none .proceed).1.registries = s.registries :=
    (endLoad_moves (t := t) hq hstage none .proceed []).registries
  obtain ⟨kept, hkept, hquiet⟩ := keepParser_eq (s.endLoad p none .proceed).1 r entry.config p
  refine ⟨kept.release (.registry r), ?_, fun r' key => ?_⟩
  · rw [resumeGet, resumeInit]
    dsimp only
    rw [hended, getInitialized, hkept]
    rfl
  · rw [current_of_registries (registries_release ..), current_of_registries hquiet.registries,
      current_keep, current_of_registries hregistries]

/-- **Asking goes on although the language is not known.** It raises a fault, or gives a parser all
the same. Which of the two depends on where it waited: the lock leads to another lookup, which
fails, and a load that succeeds is not looked at again. -/
theorem resumeGet_lacking {point : GetPoint} {wait : Wait} (hfits : point.Fits r language wait)
    (hbuilding : s.Building r point) (hlacks : s.Lacks r (Text.caseFold language))
    (hgoes : s.GoesOn point) :
    ∃ s' result, s.resumeGet t r language point .proceed = (s', .finished result)
      ∧ s'.current r (Text.caseFold language) = none
      ∧ (result = .error (.badKey (Text.caseFold language)) ∨ ∃ p, result = .ok (some p)) := by
  have hcurrent := current_of_lacks hlacks
  cases point with
  | lock =>
    obtain ⟨g, hg, hnone⟩ := hlacks
    have hleft : (s.release (.registry r)).current r (Text.caseFold language) = none :=
      (current_of_registries (registries_release ..) ..).trans hcurrent
    rw [resumeGet, getLocked, hg]
    dsimp only
    -- kept parsers are looked up before the language is
    cases hkept : s.keptParser? g (Text.caseFold language) with
    | some p => exact ⟨_, _, rfl, hleft, .inr ⟨p, rfl⟩⟩
    | none =>
      simp only [hnone]
      exact ⟨_, _, rfl, hleft, .inl rfl⟩
  | init entry p point =>
    obtain ⟨rfl, -, -⟩ := hfits
    obtain ⟨-, q, hq, hstage⟩ := hbuilding
    obtain ⟨q', hq', hwell⟩ := hgoes
    rw [hq, Option.some.injEq] at hq'
    subst hq'
    obtain ⟨s', heq, hsame⟩ := resumeGet_loaded (t := t) hq hstage hwell r language entry
    exact ⟨s', _, heq, (hsame ..).trans hcurrent, .inr ⟨p, rfl⟩⟩

/-- The end of a call for a parser that ends well. -/
theorem answers_settleRun {frame : GetPoint → Frame} {y : Service × Run GetPoint (Option ParserId)}
    {key : String} {outcome : Except Fault Outcome}
    (hkept : ∀ p, y.2 = .finished (.ok (some p)) → ∃ q, y.1.parser? p = some q
      ∧ q.stage = .initialized)
    (hends : EndsWell r key y) (hquiet : ∀ {e}, outcome = .error e → e.isInterruption = false)
    (h : (settleRun t frame finishGet y).result? t = some outcome) :
    (settleRun t frame finishGet y).Answers r key outcome := by
  obtain ⟨result, hrun, hfinish, hfinal⟩ := result?_settleRun h
  obtain rfl : result.map Outcome.parser = outcome := hfinish
  rw [hfinal]
  rcases hends result hrun with (rfl | ⟨fault, rfl, hpasses⟩) | ⟨p, rfl, hknown⟩
  · exact .none
  · refine .fault ?_
    rcases Bool.or_eq_true_iff.mp hpasses with hmemory | hfailure
    · exact .inl hmemory
    · exact .inr (Fault.isCancelled_of_not_isFailure (by simpa using hfailure) (hquiet rfl))
  · obtain ⟨q, hq, hinit⟩ := hkept p hrun
    exact .given hq hinit hknown

end Service

namespace Valid

variable {s : Service} {t : TaskId} {r : RegistryId} {language : String}

section Waiting

variable {point : GetPoint} {wait : Wait} {signal : Signal}

theorem builds (h : Valid s)
    (ht : s.tasks[t]? = some (.waiting (.getParser r language point) wait (some signal))) :
    (s.endWait t wait signal).Building r point := by
  cases point with
  | lock => trivial
  | init entry p point =>
    obtain ⟨hr, q, hq, -, hstage⟩ := h.of_building ht rfl
    exact ⟨by rwa [Service.registries_endWait], q, (Service.parser?_endWait ..).trans hq, hstage⟩

theorem getRuns (h : Valid s)
    (ht : s.tasks[t]? = some (.waiting (.getParser r language point) wait (some signal))) :
    Service.GetRuns t r language (s.endWait t wait signal,
      ⟨Service.resumed (point.duties r) wait signal, none⟩)
      ((s.endWait t wait signal).resumeGet t r language point signal) := by
  refine Service.resumeGet_runs (h.agreed_endWait ht).tidy (h.fine ht).1
    (fun entry p point' hpoint => ?_) signal
  subst hpoint
  exact h.builds ht

theorem step_of_ends (h : Valid s) (hready : t ∈ s.ready)
    (ht : s.tasks[t]? = some (.waiting (.getParser r language point) wait (some signal)))
    {s' : Service} {result : Except Fault (Option ParserId)}
    (hends : (({ s with ready := s.ready.erase t } : Service).endWait t wait signal).resumeGet
      t r language point signal = (s', .finished result)) :
    s.step t = s'.setTask t (.finished (result.map .parser))
      ∧ (s.step t).result? t = some (result.map .parser) := by
  have hstep : s.step t = Service.settleRun t (Frame.getParser r language) Service.finishGet
      (s', .finished result) := by
    rw [Service.step_of_waiting hready ht, Service.resume, hends]
  obtain ⟨last, hlast⟩ := h.exists_task_step ht
  rw [hstep] at hlast ⊢
  exact ⟨rfl, (Service.result?_settleRun_iff hlast).mpr ⟨result, rfl, rfl⟩⟩

end Waiting

theorem ready_of_ends {status : TaskStatus} {call : Call} {outcome : Except Fault Outcome}
    (ht : s.tasks[t]? = some status) (hcall : status.call? = some call)
    (hend : (s.step t).result? t = some outcome) : t ∈ s.ready := by
  by_contra hnot
  rw [Service.step, if_pos (by simpa using hnot), Service.result?, ht] at hend
  cases status with
  | fresh call cancelled => cases hend
  | waiting frame wait signal => cases hend
  | finished result => cases hcall

/-- **A call that raises an interruption was interrupted** in that very step. The call may begin in
the step, get the lock in it or end its load in it; whatever else it may do there raises nothing of
the kind. -/
theorem interrupted_of_ends (h : Valid s) (hmakes : s.MakesParsers) {status : TaskStatus}
    {language : Option String} {e : Fault} (ht : s.tasks[t]? = some status)
    (hcall : status.call? = some (.getParser r language))
    (hend : (s.step t).result? t = some (.error e)) (he : e.isInterruption = true) :
    s.Interrupted t := by
  have hready := ready_of_ends ht hcall hend
  have hvalid := h.unqueue t
  rcases Service.result_of_step ht hcall hend with hcancelled | ⟨rfl, hstep⟩
    | ⟨frame, wait, signal, rfl, hframe, hstep⟩
  · cases hcancelled
    cases he
  · rw [hstep] at hend
    obtain ⟨result, hrun, hfinish, -⟩ := Service.result?_settleRun hend
    obtain rfl := error_of_map hfinish
    -- the language is known and the lock is free, or the call would have ended without a fault or
    -- would wait
    unfold Service.beginGet at hrun
    split at hrun
    · rename_i g name hg
      split at hrun
      · rename_i hsupported
        rcases Service.acquire_cases { s with ready := s.ready.erase t } (.registry r) t with
          ⟨-, heq⟩ | ⟨-, heq⟩
        · rw [heq] at hrun
          have hlooks : s.Looks t r name _ := .begins ht hg hsupported heq
          exact ⟨hready, e, r, name, he,
            .inl ⟨_, hlooks, (Service.getLocked_error_iff (hlooks.makesParsers hmakes) he).mp hrun⟩⟩
        · rw [heq] at hrun
          cases hrun
      · cases hrun
    · cases hrun
  -- a call that waited had queued for the lock, or its parser was being loaded
  · cases frame with
    | getParser r' language' point =>
      cases hframe
      rw [hstep] at hend
      obtain ⟨result, hrun, hfinish, -⟩ := Service.result?_settleRun hend
      obtain rfl := error_of_map hfinish
      cases point with
      | lock =>
        cases signal with
        | cancel =>
          cases hrun
          cases he
        | proceed =>
          have hlooks : s.Looks t r language' _ := .waited ht
          exact ⟨hready, e, r, language', he,
            .inl ⟨_, hlooks, (Service.getLocked_error_iff (hlooks.makesParsers hmakes) he).mp hrun⟩⟩
      | init entry p point =>
        obtain ⟨rfl, -, -⟩ := (h.fine ht).1
        obtain ⟨-, q, hq, hstage⟩ := hvalid.builds ht
        obtain ⟨rfl, hload⟩ := (Service.resumeGet_error_iff hq hstage he).mp hrun
        rw [Service.parser?_endWait] at hq
        exact ⟨hready, e, r, language', he, .inr ⟨entry, p, .load, wait, q, ht, hq, hload⟩⟩
    | _ => cases hframe

/-- **An interrupted call raises the interruption.** Each of the three ways to be interrupted ends
the run of the call with it. -/
theorem raises_of_interrupted (h : Valid s) (hmakes : s.MakesParsers)
    (hinterrupted : s.Interrupted t) :
    ∃ status r language e, s.tasks[t]? = some status
      ∧ status.call? = some (.getParser r (some language))
      ∧ (s.step t).result? t = some (.error e) ∧ e.isInterruption = true := by
  obtain ⟨hready, e, r, language, he, hlooks | ⟨entry, p, point, wait, q, ht, hq, hload⟩⟩ :=
    hinterrupted
  · obtain ⟨s₁, hlooks, hraises⟩ := hlooks
    have hrun := (Service.getLocked_error_iff (hlooks.makesParsers hmakes) he).mpr hraises
    cases hlooks with
    | begins ht hg hsupported hlocked =>
      obtain ⟨last, hlast⟩ := h.exists_task_step ht
      refine ⟨_, r, language, e, ht, rfl, ?_, he⟩
      rw [Service.step_of_fresh hready ht] at hlast ⊢
      have hg' : ({ s with ready := s.ready.erase t } : Service).registries[r]? = some _ := hg
      rw [← Service.beginGet_of_free hg' hsupported hlocked] at hrun
      exact (Service.result?_settleRun_iff hlast).mpr ⟨.error e, hrun, rfl⟩
    | waited ht =>
      obtain ⟨last, hlast⟩ := h.exists_task_step ht
      refine ⟨_, r, language, e, ht, rfl, ?_, he⟩
      rw [Service.step_of_waiting hready ht] at hlast ⊢
      exact (Service.result?_settleRun_iff hlast).mpr ⟨.error e, hrun, rfl⟩
  · obtain ⟨last, hlast⟩ := h.exists_task_step ht
    obtain ⟨rfl, -, -⟩ := (h.fine ht).1
    obtain ⟨-, q', hq', hstage⟩ := (h.unqueue t).builds ht
    -- the parser under construction is the one whose engine was looked at
    have hsame : q' = q := by
      rw [Service.parser?_endWait] at hq'
      exact Option.some.inj (hq'.symm.trans hq)
    subst hsame
    refine ⟨_, r, language, e, ht, rfl, ?_, he⟩
    rw [Service.step_of_waiting hready ht] at hlast ⊢
    exact (Service.result?_settleRun_iff hlast).mpr
      ⟨.error e, (Service.resumeGet_error_iff hq' hstage he).mpr ⟨rfl, hload⟩, rfl⟩

/-- **A step that ends a call answers it**, unless the call is overtaken or interrupted. The step is
the first one of the call or one in which it goes on; a call that was cancelled before it began
raises a cancellation. -/
theorem answers_step (h : Valid s) (hmakes : s.MakesParsers) {status : TaskStatus}
    {language : Option String} {outcome : Except Fault Outcome} (ht : s.tasks[t]? = some status)
    (hcall : status.call? = some (.getParser r language))
    (hend : (s.step t).result? t = some outcome) (hfair : ¬s.Overtaken t)
    (hcalm : ¬s.Interrupted t) :
    (s.step t).Answers r (Text.caseFold (language.getD "")) outcome := by
  have hvalid := h.unqueue t
  have hready := ready_of_ends ht hcall hend
  -- an interruption at the end of the call would have come with this very step
  have hquiet : ∀ {e}, outcome = .error e → e.isInterruption = false := by
    rintro e rfl
    exact Bool.eq_false_iff.mpr fun he => hcalm (h.interrupted_of_ends hmakes ht hcall hend he)
  rcases Service.result_of_step ht hcall hend with rfl | ⟨-, hstep⟩
    | ⟨frame, wait, signal, rfl, hframe, hstep⟩
  · exact .fault (.inr rfl)
  · -- the call begins and ends in one step, during which nobody can unregister anything
    rw [hstep] at hend ⊢
    have hruns := Service.beginGet_runs (t := t) hvalid.agreed.tidy r language
    have hmakes' : ({ s with ready := s.ready.erase t } : Service).MakesParsers := hmakes
    exact Service.answers_settleRun (fun p hp => (hruns.kept p hp).2)
      (Service.beginGet_ends hmakes' language) hquiet hend
  · cases frame with
    -- others may have changed the registry while it waited, but then the call was overtaken
    | getParser r' language' point =>
      cases hframe
      rw [hstep] at hend ⊢
      have hregistries :=
        Service.registries_endWait { s with ready := s.ready.erase t } t wait signal
      refine Service.answers_settleRun (fun p hp => ((hvalid.getRuns ht).kept p hp).2)
        (Service.resumeGet_ends ?_ (h.fine ht).1 (hvalid.builds ht) ?_) hquiet hend
      · rwa [Service.MakesParsers, hregistries]
      · rintro rfl hlacks hgoes
        have hgoes' := (Service.goesOn_endWait ..).mp hgoes
        exact hfair ⟨hready, r, language', point, wait, ht,
          (Service.lacks_of_registries hregistries).mp hlacks,
          hgoes'⟩
    | _ => cases hframe

/-- **An overtaken call is not answered.** Its caller gets a fault of lookup, which is neither lack
of memory nor cancellation, or a parser of a language that is not known. -/
theorem not_answers_of_overtaken (h : Valid s) (hovertaken : s.Overtaken t) :
    ∃ status r language outcome, s.tasks[t]? = some status
      ∧ status.call? = some (.getParser r (some language))
      ∧ (s.step t).result? t = some outcome ∧ ¬(s.step t).Answers r (Text.caseFold language)
        outcome := by
  obtain ⟨hready, r, language, point, wait, ht, hlacks, hgoes⟩ := hovertaken
  have hvalid := h.unqueue t
  have hregistries := Service.registries_endWait { s with ready := s.ready.erase t } t wait .proceed
  have hgoes' : (({ s with ready := s.ready.erase t } : Service).endWait t wait .proceed).GoesOn
      point :=
    (Service.goesOn_endWait ..).mpr hgoes
  obtain ⟨s', result, hends, hcurrent, hresult⟩ :=
    Service.resumeGet_lacking (t := t) (h.fine ht).1 (hvalid.builds ht)
    ((Service.lacks_of_registries hregistries).mpr hlacks) hgoes'
  obtain ⟨hstep, hresult?⟩ := h.step_of_ends hready ht hends
  refine ⟨_, r, language, _, ht, rfl, hresult?, fun hanswers => ?_⟩
  rw [hstep] at hanswers
  -- it is answered with a fault that says something else, or with a parser for no entry
  rcases hresult with rfl | ⟨p, rfl⟩
  · cases hanswers with
    | fault hfault => rcases hfault with hfault | hfault <;> cases hfault
  · cases hanswers with
    | given hp hinit hknown => exact hknown hcurrent

theorem given_of_load (h : Valid s) (hready : t ∈ s.ready) {entry : Registration} {p : ParserId}
    {q : Parser} {point : InitPoint} {wait : Wait}
    (ht : s.tasks[t]? = some (.waiting (.getParser r language (.init entry p point))
      wait (some .proceed)))
    (hp : s.parser? p = some q) (hwell : q.LoadsWell .proceed) :
    (s.step t).result? t = some (.ok (.parser (some p))) := by
  have hvalid := h.unqueue t
  obtain ⟨rfl, -, -⟩ := (h.fine ht).1
  obtain ⟨-, q', hq', hstage⟩ := hvalid.builds ht
  have hsame : q' = q := by
    rw [Service.parser?_endWait] at hq'
    exact Option.some.inj (hq'.symm.trans hp)
  subst hsame
  obtain ⟨s', heq, -⟩ := Service.resumeGet_loaded (t := t) hq' hstage hwell r language entry
  exact (h.step_of_ends hready ht heq).2

end Valid

/-! ## Asking throughout a run -/

/-- Every call for a parser that ends during the run is answered. -/
def AskingLaw (run : List Service.Action) : Prop :=
  ∀ pre t r language status outcome, pre ++ [.step t] <+: run →
    (Service.after pre).tasks[t]? = some status → status.call? = some (.getParser r language) →
    (Service.after (pre ++ [.step t])).result? t = some outcome →
    (Service.after (pre ++ [.step t])).Answers r (Text.caseFold (language.getD "")) outcome

/-- **When callers are answered.** Over every run in which factories make parsers or fail, calls for
parsers end with an initialized parser of a language that is known, with none, or with lack of
memory or cancellation, if and only if no call goes on after its language was unregistered while it
waited, and none is interrupted by a factory or a load. A load that succeeds gives its parser in any
case. -/
theorem asking_law_iff (run : List Service.Action)
    (hmakes : ∀ pre, pre <+: run → (Service.after pre).MakesParsers) :
    (AskingLaw run ↔ ∀ pre t, pre ++ [.step t] <+: run →
        ¬(Service.after pre).Overtaken t ∧ ¬(Service.after pre).Interrupted t)
      ∧ ∀ pre t r language entry p point wait q, pre ++ [.step t] <+: run →
        t ∈ (Service.after pre).ready →
        (Service.after pre).tasks[t]?
          = some (.waiting (.getParser r language (.init entry p point)) wait (some .proceed)) →
        (Service.after pre).parser? p = some q → q.LoadsWell .proceed →
        (Service.after (pre ++ [.step t])).result? t = some (.ok (.parser (some p))) := by
  refine ⟨⟨fun hlaw pre t hpre => ⟨fun hovertaken => ?_, fun hinterrupted => ?_⟩,
      fun hfair pre t r language status outcome hpre ht hcall hend => ?_⟩,
    fun pre t r language entry p point wait q _ hready ht hp hwell => ?_⟩
  · obtain ⟨status, r, language, outcome, ht, hcall, hend, hnot⟩ :=
      (valid_after pre).not_answers_of_overtaken hovertaken
    refine hnot ?_
    have hanswers := hlaw pre t r (some language) status outcome hpre ht hcall
    rw [Service.after_concat] at hanswers
    exact hanswers hend
  -- an interruption is raised, and no answer allows for it
  · have hbefore : pre <+: run := (List.prefix_append pre [.step t]).trans hpre
    obtain ⟨status, r, language, e, ht, hcall, hend, he⟩ :=
      (valid_after pre).raises_of_interrupted (hmakes pre hbefore) hinterrupted
    obtain ⟨-, hmemory, hcancelled⟩ := Fault.of_isInterruption he
    have hanswers := hlaw pre t r (some language) status (.error e) hpre ht hcall
    rw [Service.after_concat] at hanswers
    cases hanswers hend with
    | fault hfault => simp [hmemory, hcancelled] at hfault
  · have hbefore : pre <+: run := (List.prefix_append pre [.step t]).trans hpre
    rw [Service.after_concat] at hend ⊢
    exact (valid_after pre).answers_step (hmakes pre hbefore) ht hcall hend (hfair pre t hpre).1
      (hfair pre t hpre).2
  · rw [Service.after_concat]
    exact (valid_after pre).given_of_load hready ht hp hwell

/-- Two languages whose grammars are loaded by workers, and a call for the parser of each. The
second call waits for the lock of the registry. -/
def twoCalls : List Service.Action :=
  [.newRegistry {} 0 false, .register 0 slowLanguage,
    .register 0 { slowLanguage with name := "java" },
    .spawn (.getParser 0 (some "json")), .spawn (.getParser 0 (some "java")), .step 0, .step 1]

/-- The language of the first call is unregistered when that call has ended, while the second one
waits. -/
def unregisteredAfterwards : List Service.Action :=
  twoCalls ++ [.finishWork 0, .step 0, .unregister 0 "json", .step 1, .finishWork 1, .step 1]

/-- Nobody is overtaken or interrupted, so both calls are answered. -/
theorem asking_law_unregistered_afterwards :
    AskingLaw unregisteredAfterwards
      ∧ (Service.after unregisteredAfterwards).result? 0 = some (.ok (.parser (some 0)))
      ∧ (Service.after unregisteredAfterwards).result? 1 = some (.ok (.parser (some 1))) := by
  have hmakes : ∀ pre ∈ unregisteredAfterwards.inits, (Service.after pre).MakesParsers := by
    decide +kernel
  refine ⟨(asking_law_iff _ fun pre hpre => hmakes pre ((List.mem_inits ..).mpr hpre)).1.mpr ?_,
    rfl, rfl⟩
  intro pre t hpre
  obtain ⟨rest, hrun⟩ := hpre
  have hstep : unregisteredAfterwards[pre.length]? = some (.step t) := by rw [← hrun]; simp
  have htake : pre = unregisteredAfterwards.take pre.length := by rw [← hrun]; simp
  have hlt : pre.length < 13 := (List.getElem?_eq_some_iff.mp hstep).1
  have hbefore : pre <+: unregisteredAfterwards := ⟨.step t :: rest, by simpa using hrun⟩
  constructor
  · -- whenever a call goes on, its language is known
    rintro ⟨-, r, language, point, wait, ht, ⟨g, hg, hnone⟩, -⟩
    generalize pre.length = n at hstep htake hlt
    subst htake
    interval_cases n <;> cases hstep <;> cases ht <;> cases hg <;> cases hnone
  · -- and no call ends with a fault
    intro hinterrupted
    obtain ⟨status, r, language, e, -, -, hend, -⟩ := (valid_after pre).raises_of_interrupted
      (hmakes pre ((List.mem_inits ..).mpr hbefore)) hinterrupted
    generalize pre.length = n at hstep htake hlt
    subst htake
    interval_cases n <;> cases hstep <;> cases hend

/-- The languages of both calls are unregistered while the first one loads and the second one waits
its turn. -/
def unregisteredWhileWaiting : List Service.Action :=
  twoCalls ++ [.unregister 0 "json", .unregister 0 "java", .finishWork 0, .step 0, .step 1]

/-- The first caller is given a parser of a language that is not known, and the second one gets a
fault of lookup. -/
theorem fault_after_unregistering :
    (∀ pre, pre <+: unregisteredWhileWaiting → (Service.after pre).MakesParsers)
      ∧ (Service.after unregisteredWhileWaiting).result? 0 = some (.ok (.parser (some 0)))
      ∧ (Service.after unregisteredWhileWaiting).current 0 "json" = none
      ∧ (Service.after unregisteredWhileWaiting).result? 1 = some (.error (.badKey "java"))
      ∧ ¬AskingLaw unregisteredWhileWaiting := by
  have hmakes : ∀ pre ∈ unregisteredWhileWaiting.inits, (Service.after pre).MakesParsers := by
    decide +kernel
  have hfault : (Service.after unregisteredWhileWaiting).result? 1
      = some (.error (.badKey "java")) := rfl
  refine ⟨fun pre hpre => hmakes pre ((List.mem_inits ..).mpr hpre), rfl, rfl,
    hfault, fun hlaw => ?_⟩
  -- the fault of lookup is none of the answers
  have hanswers := hlaw (unregisteredWhileWaiting.take 11) 1 0 (some "java")
    _ _ (List.prefix_refl _) rfl rfl hfault
  cases hanswers with
  | fault hfault => rcases hfault with hfault | hfault <;> cases hfault

end SyntaxForest
