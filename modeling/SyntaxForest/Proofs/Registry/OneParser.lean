import SyntaxForest.Proofs.Registry.StaleLoads
import SyntaxForest.Proofs.Service.CallEffects

/-!
# One parser for each language

Many tasks may ask one registry for parsers at once, in any letter case. As long as nobody registers
or unregisters at the registry, and nobody disposes of it or of its parsers, all who ask for one
language are given the same parser: the first one whose grammar could be loaded. Those whose grammar
could not be loaded are disposed of, and the next task in line tries anew.

* **`Service.spares`** — the actions that leave a registry alone. **`Valid.stays_initialized`** —
  under them an initialized parser of the registry stays so.
* **`Service.LoadFails`** — the grammar of a parser that is built fails to load.
  **`Valid.disposed_of_loadFails`** — the parser is disposed of in the same step.
* **`one_parser_per_language`** — what callers may rely on while a registry is left alone.
-/

namespace SyntaxForest

/-! ## What a registry keeps was built for it -/

namespace Service

/-- The registry that the parser was built for. -/
def builtFor (s : Service) (p : ParserId) : Option RegistryId :=
  (s.parser? p).bind fun q => q.origin.map (·.1)

/-- Whatever a registry keeps, under whatever key, was built for it. -/
structure Housed (s : Service) : Prop where
  home : ∀ {r : RegistryId} {g : Registry} {p : ParserId}, s.registries[r]? = some g →
    p ∈ g.parsers.values →
    s.builtFor p = some r

theorem builtFor_of_origin {s : Service} {p : ParserId} {q : Parser} {r : RegistryId}
    {entry : Registration} (hp : s.parser? p = some q) (horigin : q.origin = some (r, entry)) :
    s.builtFor p = some r := by
  rw [builtFor, hp, Option.bind_some, horigin]
  rfl

theorem origin_of_builtFor {s : Service} {p : ParserId} {r : RegistryId}
    (h : s.builtFor p = some r) :
    ∃ q entry, s.parser? p = some q ∧ q.origin = some (r, entry) := by
  obtain ⟨q, hq, hmap⟩ := Option.bind_eq_some_iff.mp h
  obtain ⟨⟨r', entry⟩, horigin, rfl⟩ := Option.map_eq_some_iff.mp hmap
  exact ⟨q, entry, hq, horigin⟩

theorem builtFor_of_later {s s' : Service} (hlater : Later s s') {p : ParserId} {r : RegistryId}
    (h : s.builtFor p = some r) :
    s'.builtFor p = some r := by
  obtain ⟨q, entry, hq, horigin⟩ := origin_of_builtFor h
  obtain ⟨q', hq', hsame⟩ := hlater p q hq
  exact builtFor_of_origin hq' (hsame.origin ▸ horigin)

namespace Housed

variable {s s' : Service} {t : TaskId}

theorem of_registries (h : s.Housed) (hlater : Later s s')
    (hregistries : s'.registries = s.registries) : s'.Housed :=
  ⟨fun hg hp => builtFor_of_later hlater (h.home (hregistries ▸ hg) hp)⟩

theorem modifyRegistry (h : s.Housed) {r : RegistryId} {change : Registry → Registry}
    (hkept : ∀ g p, s.registries[r]? = some g → p ∈ (change g).parsers.values →
      p ∈ g.parsers.values ∨ s.builtFor p = some r) :
    (s.modifyRegistry r change).Housed := by
  refine ⟨fun {r' g' p} hg' hp => ?_⟩
  rcases registry_of_modifyRegistry hg' with ⟨rfl, g, hg, rfl⟩ | ⟨-, hg⟩
  · exact (hkept g p hg hp).elim (h.home hg) id
  · exact h.home hg hp

/-- Registering and unregistering take parsers out of a registry but never put one in. -/
theorem change (h : s.Housed) (hchange : Change s s') : s'.Housed := by
  cases hchange with
  | retire p => exact h.of_registries (Change.retire s p).later rfl
  | table r path table => exact h.modifyRegistry fun _ _ _ hp => Or.inl hp
  | enter hnew => exact h.modifyRegistry fun _ _ _ hp => Or.inl hp
  | forget hg hretired => exact h.modifyRegistry fun _ _ _ hp => by cases hp
  | found settings collector =>
    refine ⟨fun {r g p} hg hp => ?_⟩
    rw [Array.getElem?_push] at hg
    split at hg
    · cases hg
      cases hp
    · exact h.home hg hp
  | remove hg hremove hretired =>
    -- what is left is what was there but for one key
    rw [Registry.remove?] at hremove
    split at hremove
    · cases hremove
    · simp only [Option.some.injEq, Prod.mk.injEq] at hremove
      obtain ⟨rfl, -, -⟩ := hremove
      refine h.modifyRegistry fun g₀ p hg₀ hp => Or.inl ?_
      rw [hg, Option.some.injEq] at hg₀
      exact hg₀ ▸ Assoc.mem_values_of_mem_erase hp

theorem deal {x y : Stance} (h : x.1.Housed) (hdeal : Deal t x y)
    (hl : Lives x.1 (x.1.standing t x.2)) : y.1.Housed := by
  have hlater := hdeal.later
  cases hdeal with
  | move hmove => exact h.of_registries hlater hmove.registries
  | change hchange hidle => exact h.change hchange
  | build => exact h.of_registries hlater rfl
  | abandon => exact h
  | keep hp hstage =>
    -- the task holds the parser as one that it builds for this registry
    have hstack := hl.stacked t
    rw [standing_self] at hstack
    obtain ⟨-, -, q, hq, horigin⟩ := hstack.of_build (List.mem_cons_self ..)
    refine h.modifyRegistry fun g p' hg hp' => ?_
    rcases Assoc.mem_values_of_mem_set hp' with rfl | hold
    · exact Or.inr (builtFor_of_origin hq horigin)
    · exact Or.inl hold

theorem deals {x y : Stance} (h : x.1.Housed) (hdeals : Deals t x y)
    (hagreed : Agreed x.1 (x.1.standing t x.2)) :
    y.1.Housed := by
  induction hdeals with
  | refl => exact h
  | tail hbefore hdeal ih => exact ih.deal hdeal (hagreed.deals hbefore).lives

end Housed

end Service

/-- **One action leaves every parser in the registry that it was built for.** Only changes of
registries and the deals of a task move parsers about; anything else leaves registries as they
are. -/
theorem Happening.housed {s s' : Service} {a : Service.Action} (h : Happening s a s')
    (hvalid : Valid s) (hs : s.Housed) :
    s'.Housed := by
  have hlater := h.later
  cases h with
  | changes h =>
    -- the induction is on the changes, one of which may come after any other
    clear hlater hvalid
    induction h with
    | refl => exact hs
    | tail _ hstep ih =>
      exact hstep.elim (fun hquiet => ih.of_registries (.of_parsers hquiet.parsers)
        hquiet.registries) ih.change
  | waits _ _ _ hregistries => exact hs.of_registries hlater hregistries
  | addParser => exact hs.of_registries hlater rfl
  | setEngine p engine => exact hs.of_registries hlater rfl
  | spawn => exact hs.of_registries hlater rfl
  | step hquiet ht h =>
    rename_i s₀
    obtain ⟨s₁, status, rfl, hdeals, -⟩ := h
    have hs₀ : s₀.Housed := hs.of_registries (.of_parsers hquiet.parsers) hquiet.registries
    have hs₁ := Service.Housed.deals hs₀ hdeals (by
      rw [Service.standing_eq_footing rfl]
      exact (hvalid.quiet hquiet).agreed)
    exact hs₁.of_registries (.of_parsers rfl) rfl

theorem housed_after (run : List Service.Action) : (Service.after run).Housed := by
  induction run using List.reverseRecOn with
  | nil =>
    refine ⟨fun {r g p} hg => ?_⟩
    cases hg
  | append_singleton run a ih =>
    rw [Service.after_concat]
    exact ((valid_after run).happening a).housed (valid_after run) ih

/-! ## A registry that is left alone -/

/-- The parser that the call of the task uses in a scope, and disposes of. -/
def TaskStatus.scope? (status : TaskStatus) : Option ParserId :=
  match status.call? with
  | some (.scoped p _) => some p
  | _ => none

namespace Service

/-- The action registers and unregisters nothing at the registry, and it disposes neither of the
registry nor of a parser that was built for it. -/
def spares (s : Service) (r : RegistryId) : Service.Action → Bool
  | .register r' _ | .unregister r' _ | .disposeRegistry r' => r' ≠ r
  | .disposeParser p => s.builtFor p ≠ some r
  | .step t => ((s.tasks[t]?).bind TaskStatus.scope?).bind s.builtFor ≠ some r
  | _ => true

/-- All actions leave the registry alone, one after the other. -/
def sparesAll (s : Service) (r : RegistryId) : List Service.Action → Bool
  | [] => true
  | a :: rest => s.spares r a && (s.act a).sparesAll r rest

theorem sparesAll_append (s : Service) (r : RegistryId) (mid rest : List Service.Action) :
    s.sparesAll r (mid ++ rest) = (s.sparesAll r mid && (mid.foldl act s).sparesAll r rest) := by
  induction mid generalizing s with
  | nil => rfl
  | cons a mid ih =>
    rw [List.cons_append, sparesAll, sparesAll, ih, Bool.and_assoc, List.foldl_cons]

end Service

namespace Valid

variable {s : Service} {r : RegistryId} {p : ParserId} {q : Parser}

/-- An action that leaves the registry alone has no leave to dispose of a parser that the registry
uses. Each action is gone through, with what it may dispose of. -/
theorem not_retires (h : Valid s) (hhoused : s.Housed) {a : Service.Action}
    (hspares : s.spares r a = true) (hp : s.parser? p = some q) (hinit : q.stage = .initialized)
    (hbuilt : s.builtFor p = some r) :
    ¬(s.leaveFor a).retires p := by
  -- no other registry keeps the parser, so that nothing done to others can reach it
  have hkept : ∀ {r' key}, r' ≠ r → ¬s.Keeps r' key p := fun {r' key} hne hkeeps => by
    obtain ⟨g, hg, hget⟩ := hkeeps
    have hhome := hhoused.home hg (Assoc.mem_values_of_get? hget)
    rw [hbuilt, Option.some.injEq] at hhome
    exact hne hhome.symm
  intro hretires
  cases a with
  | disposeParser p' =>
    cases hretires
    exact of_decide_eq_true hspares hbuilt
  | register r' config =>
    obtain ⟨key, hkeeps⟩ := hretires
    exact hkept (of_decide_eq_true hspares) hkeeps
  | unregister r' language =>
    obtain ⟨key, hkeeps⟩ := hretires
    exact hkept (of_decide_eq_true hspares) hkeeps
  | disposeRegistry r' =>
    obtain ⟨g, hg, hvalue⟩ := hretires
    have hhome := hhoused.home hg hvalue
    rw [hbuilt, Option.some.injEq] at hhome
    exact of_decide_eq_true hspares hhome.symm
  | step t =>
    rcases hretires with hnew | ⟨r', entry, hbuild⟩ | ⟨status, body, ht, hcall⟩
    · exact Nat.ne_of_lt (Array.getElem?_eq_some_iff.mp hp).1 hnew
    · -- what is being built is not initialized yet
      obtain ⟨frame, wait, signal, ht, hframe⟩ := Service.waiting_of_duty hbuild
      obtain ⟨-, q', hq', -, hstage⟩ := h.of_building ht (Frame.build_mem_duties.mp hframe)
      rw [hp, Option.some.injEq] at hq'
      rw [← hq', hinit] at hstage
      rcases hstage with hstage | hstage <;> cases hstage
    · -- the scope that the task is in would be that of the parser
      refine of_decide_eq_true hspares ?_
      rw [ht, Option.bind_some, TaskStatus.scope?, hcall]
      exact hbuilt
  | _ => exact hretires

/-- **An initialized parser of a registry that is left alone stays so.** -/
theorem stays_initialized (h : Valid s) (hhoused : s.Housed) {a : Service.Action}
    (hspares : s.spares r a = true) (hp : s.parser? p = some q) (hinit : q.stage = .initialized)
    (hbuilt : s.builtFor p = some r) :
    ∃ q', (s.act a).parser? p = some q' ∧ q'.stage = .initialized := by
  cases houtside : a.isOutside with
  | false =>
    obtain ⟨marks, heffects, -⟩ := s.act_effects houtside
    exact heffects.initialized hp hinit (h.not_retires hhoused hspares hp hinit hbuilt)
  | true =>
    cases a with
    | setEngine p' engine =>
      by_cases heq : p' = p
      · subst heq
        exact ⟨_, Service.parser?_modifyParser_self hp _, hinit⟩
      · exact ⟨q, (Service.parser?_modifyParser_of_ne s heq _).trans hp, hinit⟩
    | addCollector => exact ⟨q, hp, hinit⟩
    | setEvent event => exact ⟨q, hp, hinit⟩
    | clearEvent event => exact ⟨q, hp, hinit⟩
    | setNative reply => exact ⟨q, hp, hinit⟩
    | _ => cases houtside

theorem stays_initialized_all (h : Valid s) (hhoused : s.Housed) {more : List Service.Action}
    (hspares : s.sparesAll r more = true) (hp : s.parser? p = some q)
    (hinit : q.stage = .initialized) (hbuilt : s.builtFor p = some r) :
    ∃ q', (more.foldl Service.act s).parser? p = some q' ∧ q'.stage = .initialized := by
  induction more generalizing s q with
  | nil => exact ⟨q, hp, hinit⟩
  | cons a rest ih =>
    rw [Service.sparesAll, Bool.and_eq_true] at hspares
    have hhappens := h.happening a
    obtain ⟨q', hq', hinit'⟩ := h.stays_initialized hhoused hspares.1 hp hinit hbuilt
    exact ih (hhappens.valid h) (hhappens.housed h hhoused) hspares.2 hq' hinit'
      (Service.builtFor_of_later hhappens.later hbuilt)

end Valid

/-! ## Grammars that cannot be loaded -/

namespace Service

/-- The initialization of a parser that the task has built for the registry fails in its next step:
the load of the grammar ends with this fault, and nobody has disposed of the parser meanwhile. -/
inductive LoadFails (s : Service) (t : TaskId) (r : RegistryId) : ParserId → Fault → Prop
  /-- The task waited for the load. -/
  | waited {language : String} {entry : Registration} {p : ParserId} {q : Parser}
      {point : InitPoint} {wait : Wait} {e : Fault} (hready : t ∈ s.ready)
      (ht : s.tasks[t]? = some (.waiting (.getParser r language (.init entry p point))
        wait (some .proceed)))
      (hp : s.parser? p = some q) (hstage : q.stage ≠ .disposed)
        (hload : q.engine.load = .error e) :
      LoadFails s t r p e
  /-- The parser is built in this very step, and the load is over at its end. -/
  | atOnce {status : TaskStatus} {language : Option String} {p : ParserId} {q : Parser} {e : Fault}
      (ht : s.tasks[t]? = some status) (hcall : status.call? = some (.getParser r language))
      (hnew : s.parser? p = none) (hp : (s.step t).parser? p = some q) (hidle : q.tally.loading = 0)
      (hload : q.engine.load = .error e) :
      LoadFails s t r p e

/-- Parsers that are new and whose grammar cannot be loaded have been disposed of, unless the load
is under way. -/
def Discards (s s' : Service) : Prop :=
  ∀ p q e, s.parser? p = none → s'.parser? p = some q → q.tally.loading = 0 →
    q.engine.load = .error e →
    passesOn e = false → q.stage = .disposed

variable {s s' : Service} {t : TaskId} {r : RegistryId} {p : ParserId} {q : Parser} {e : Fault}
  {entry : Registration}

theorem Discards.of_size (h : s'.parsers.size = s.parsers.size) : Discards s s' := by
  intro p q e hnew hq
  have hlt := (Array.getElem?_eq_some_iff.mp hq).1
  have hle := Array.getElem?_eq_none_iff.mp hnew
  omega

theorem disposed_getInitialized (r : RegistryId) (entry : Registration) (hp : s.parser? p = some q)
    (he : passesOn e = false) :
    ∃ q', (s.getInitialized r entry p (.finished (.error e))).1.parser? p = some q'
      ∧ q'.stage = .disposed := by
  rw [getInitialized, failGet, if_neg (by simpa [passesOn] using he)]
  dsimp only
  have hdisposed : ((s.write (creationFailure entry.config e)).disposeParser p).parser? p
      = some q.retire := by
    rw [(disposeParser_quiet ..).parser?]
    exact parser?_modifyParser_self hp _
  exact ⟨q.retire, (parser?_release ..).trans hdisposed, q.stage_retire⟩

/-- A new parser whose grammar cannot be loaded: the load is under way, or it has failed. -/
theorem beginInit_fails (hp : s.parser? p = some q) (hstage : q.stage = .uninitialized)
    (hfree : (s.lock (.lifecycle p)).isFree = true) (hload : q.engine.load = .error e) :
    (∃ s' wait q', s.beginInit t p none = (s', .waiting .load wait) ∧ s'.parser? p = some q'
        ∧ q'.tally.loading = q.tally.loading + 1)
      ∨ (s.beginInit t p none).2 = .finished (.error e) := by
  have hlocked : (s.setLock (.lifecycle p) (s.lock (.lifecycle p)).take).parser? p = some q := hp
  rw [beginInit, hp]
  simp only [Parser.isDisposed, Parser.isInitialized, hstage, decide_false, Bool.false_eq_true,
    if_false, reduceCtorEq]
  -- the lock is free, so the load starts in this run
  rcases acquire_cases s (.lifecycle p) t with ⟨-, heq⟩ | ⟨hbusy, -⟩
  · rw [heq]
    dsimp only
    rcases initLocked_cases (t := t) hlocked none with ⟨result, -, -, -, hset⟩
      | ⟨-, s₁, heq₁, hquiet, -⟩
    · cases hset hstage
    · have hp₁ : s₁.parser? p = some { q with stage := .initializing } := by
        rw [hquiet.parser?, parser?_modifyParser_self hlocked]
      have hp₂ := parser?_modifyParser_self hp₁ Parser.startLoad
      rw [heq₁, startLoad]
      rcases pauseAt_cases (s₁.modifyParser p Parser.startLoad) t q.engine.loadPause with
        hpause | ⟨s₂, wait, hpause, -, -⟩
      · right
        rw [hpause]
        dsimp only
        obtain ⟨s₃, hended, -⟩ := endLoad_eq hp₂ (Or.inl rfl) none .proceed
        have hresult : loadResult (Parser.startLoad { q with stage := .initializing }) .proceed
            = .error e := hload
        rw [hended, hresult]
        rfl
      · left
        have hparsers := parsers_pauseAt (s₁.modifyParser p Parser.startLoad) t q.engine.loadPause
        rw [hpause] at hparsers ⊢
        have hp₃ : s₂.parser? p = (s₁.modifyParser p Parser.startLoad).parser? p :=
          congrArg (·[p]?) hparsers
        exact ⟨s₂, wait, _, rfl, hp₃.trans hp₂, rfl⟩
  · rw [hfree] at hbusy
    cases hbusy

/-- A parser is built: nothing else is new, and it is disposed of if its grammar cannot be loaded.
Its lock is free, since nobody else can know of it. -/
theorem built_discards (htidy : Tidy s) {q₀ : Parser} (hstage : q₀.stage = .uninitialized) :
    Discards s (((s.addParser q₀).1.beginInit t s.parsers.size none).1.getInitialized
      r entry s.parsers.size
      ((s.addParser q₀).1.beginInit t s.parsers.size none).2).1 := by
  have hp₀ : (s.addParser q₀).1.parser? s.parsers.size = some q₀ := by
    rw [parser?, addParser, Array.getElem?_push, if_pos rfl]
  have hbegun := beginInit_effects (l := { noLeave with retires := (· = s.parsers.size) })
    (t := t) (s.addParser q₀).1
    s.parsers.size none
  have hall := hbegun.trans
    (getInitialized_effects _ r entry rfl ((s.addParser q₀).1.beginInit t s.parsers.size none).2)
  intro p q e hnew hq hidle hload he
  -- there is one more parser than before, so that a new one can only be the one that was built
  have hsize := hall.size_parsers id
  obtain rfl : p = s.parsers.size := by
    have hlt := (Array.getElem?_eq_some_iff.mp hq).1
    have hle := Array.getElem?_eq_none_iff.mp hnew
    rw [hsize, addParser, Array.size_push] at hlt
    exact Nat.le_antisymm (Nat.lt_succ_iff.mp hlt) hle
  obtain ⟨q', hq', hsame, -⟩ := hall.same hp₀
  rw [hq, Option.some.injEq] at hq'
  subst hq'
  rcases beginInit_fails (t := t) hp₀ hstage (htidy.fresh _ (Nat.le_refl _))
    (hsame.engine ▸ hload) with
    ⟨s₁, wait, q₁, heq, hq₁, hloading⟩ | hfailed
  · -- the task waits for the load, which is counted
    rw [heq] at hq
    have hq : s₁.parser? s.parsers.size = some q := hq
    rw [hq₁, Option.some.injEq] at hq
    subst hq
    omega
  · obtain ⟨q₁, hq₁, -⟩ := hbegun.same hp₀
    rw [hfailed] at hq
    obtain ⟨q₂, hq₂, hdisposed⟩ := disposed_getInitialized r entry hq₁ he
    rw [hq, Option.some.injEq] at hq₂
    exact hq₂ ▸ hdisposed

/-- With the lock of the registry a call builds one parser or none. -/
theorem getLocked_discards (htidy : Tidy s) (r : RegistryId) (language : String) :
    Discards s (s.getLocked t r language).1 := by
  have hreleased : Discards s (s.release (.registry r)) :=
    .of_size (by rw [release, parsers_setLockAndWake])
  rw [getLocked]
  split
  · exact hreleased
  · rename_i g hg
    dsimp only
    split
    · exact hreleased
    · split
      · exact hreleased
      · rename_i entry hentry
        split
        -- a factory that fails has made no parser
        · rename_i tried fault heq
          have htried := buildParser_effects (l := { noLeave with edits := fun _ => True })
            (s := s) g entry.config trivial
          rw [heq] at htried
          exact .of_size ((htried.trans (failGet_effects _ r entry.config fault fun _ _ =>
            disposeUnbuilt_effects)).size_parsers id)
        · rename_i built q heq
          obtain ⟨rfl, hstage, -⟩ := buildParser_ok heq
          exact built_discards htidy hstage

theorem Discards.of_parsers {s₀ : Service} (h : Discards s₀ s')
    (hparsers : s₀.parsers = s.parsers) : Discards s s' :=
  fun p q e hnew => h p q e (by rwa [parser?, hparsers])

theorem beginGet_discards (htidy : Tidy s) (r : RegistryId) (language : Option String) :
    Discards s (s.beginGet t r language).1 := by
  unfold beginGet
  split
  · split
    · rcases acquire_cases s (.registry r) t with ⟨-, heq⟩ | ⟨-, heq⟩
      · rw [heq]
        have htidy' : Tidy (s.setLock (.registry r) (s.lock (.registry r)).take) := by
          refine ⟨fun p hp => ?_, htidy.cached, htidy.keyed⟩
          rw [lock_setLock, if_neg (by simp)]
          exact htidy.fresh p hp
        exact (getLocked_discards htidy' r _).of_parsers rfl
      · rw [heq]
        exact .of_size rfl
    · exact .of_size rfl
  · exact .of_size rfl

theorem resumeGet_discards (htidy : Tidy s) (r : RegistryId) (language : String) (point : GetPoint)
    (signal : Signal) :
    Discards s (s.resumeGet t r language point signal).1 := by
  cases point with
  | lock =>
    cases signal with
    | proceed => exact getLocked_discards htidy r language
    | cancel => exact .of_size rfl
  | init entry p point =>
    have hall := (resumeInit_effects (l := { noLeave with retires := (· = p) })
      (t := t) s p none point signal).trans
      (getInitialized_effects _ r entry rfl (s.resumeInit t p none point signal).2)
    exact .of_size (hall.size_parsers id)

theorem parsers_settleGet {frame : GetPoint → Frame}
    (y : Service × Run GetPoint (Option ParserId)) :
    (settleRun t frame finishGet y).parsers = y.1.parsers := by
  obtain ⟨s, run⟩ := y
  cases run <;> rfl

theorem Discards.settleGet {frame : GetPoint → Frame} {y : Service × Run GetPoint (Option ParserId)}
    (h : Discards s y.1) :
    Discards s (settleRun t frame finishGet y) :=
  fun p q e hnew hq => h p q e hnew (by rwa [parser?, ← parsers_settleGet])

end Service

namespace Valid

variable {s : Service} {t : TaskId} {r : RegistryId} {p : ParserId} {e : Fault}

/-- **A step of a call discards what it has built in vain**, by whatever the task was at. A step
that does nothing builds nothing either. -/
theorem discards_step (h : Valid s) {status : TaskStatus} {language : Option String}
    (ht : s.tasks[t]? = some status) (hcall : status.call? = some (.getParser r language)) :
    s.Discards (s.step t) := by
  by_cases hready : t ∈ s.ready
  · have hvalid := h.unqueue t
    cases status with
    | finished result => cases hcall
    -- a task that was cancelled before its first turn ends without having built anything
    | fresh call cancelled =>
      cases hcall
      cases cancelled with
      | true =>
        rw [Service.step_of_cancelled hready ht]
        exact .of_size rfl
      | false =>
        rw [Service.step_of_fresh hready ht, Service.start]
        exact ((Service.beginGet_discards hvalid.agreed.tidy r language).of_parsers rfl).settleGet
    | waiting frame wait signal =>
      cases signal with
      | none =>
        rw [Service.step_of_unsignalled hready ht]
        exact .of_size rfl
      | some signal =>
        rw [Service.step_of_waiting hready ht]
        cases frame with
        | getParser r' language' point =>
          cases hcall
          rw [Service.resume]
          exact ((Service.resumeGet_discards (hvalid.agreed_endWait ht).tidy r
            language' point signal).of_parsers
            (Service.parsers_endWait ..)).settleGet
        | _ => cases hcall
  · rw [Service.step_of_not_ready hready]
    exact .of_size rfl

/-- **A parser whose grammar cannot be loaded is disposed of** in the step in which the load ends,
be it the step in which the parser was built or a later one. -/
theorem disposed_of_loadFails (h : Valid s) (hfails : s.LoadFails t r p e)
    (he : Service.passesOn e = false) :
    ∃ q, (s.step t).parser? p = some q ∧ q.stage = .disposed := by
  cases hfails with
  | atOnce ht hcall hnew hp hidle hload =>
    exact ⟨_, hp, h.discards_step ht hcall p _ e hnew hp hidle hload he⟩
  | @waited language entry p q point wait e hready ht hp hnot hload =>
    obtain ⟨-, q', hq', -, hstage⟩ := h.of_building ht rfl
    rw [hp, Option.some.injEq] at hq'
    subst hq'
    -- a parser that is being built is nobody else's, so that the task can only have waited for the
    -- load
    obtain ⟨rfl, -⟩ := (h.fine ht).1
    have hp' : (({ s with ready := s.ready.erase t } : Service).endWait t wait .proceed).parser? p
        = some q :=
      (Service.parser?_endWait ..).trans hp
    obtain ⟨ended, heq, hquiet⟩ := Service.endLoad_eq hp' hstage none .proceed
    have hresult : Service.loadResult q .proceed = .error e := hload
    rw [hresult] at heq hquiet
    have hended : (ended.release (.lifecycle p)).parser? p = some (q.settleLoad (.error e)) := by
      rw [Service.parser?_release, hquiet.parser?, Service.parser?_modifyParser_self hp']
    obtain ⟨q'', hq'', hdisposed⟩ := Service.disposed_getInitialized r entry hended he
    refine ⟨q'', ?_, hdisposed⟩
    rw [Service.step_of_waiting hready ht, Service.resume, Service.parser?,
      Service.parsers_settleGet, Service.resumeGet,
      Service.resumeInit, heq]
    exact hq''

theorem not_settled_of_loadFails (h : Valid s) (hfails : s.LoadFails t r p e) :
    s.settled p = false := by
  refine Bool.eq_false_iff.mpr fun hsettled => ?_
  obtain ⟨q, hq, hover⟩ := Service.settled_iff.mp hsettled
  cases hfails with
  | atOnce _ _ hnew => cases hq.symm.trans hnew
  | waited _ ht hp hnot =>
    obtain ⟨-, q', hq', -, hstage⟩ := h.of_building ht rfl
    cases hp.symm.trans hq'
    cases hp.symm.trans hq
    have hloading := hstage.resolve_right hnot
    simp [Parser.isSettled, Parser.isInitialized, Parser.isDisposed, hloading] at hover

end Valid

/-! ## What callers may rely on -/

namespace Service

/-- The next step of the task ends a call that asked the registry for the parser of the language,
and gives it this one. -/
def Gives (s : Service) (t : TaskId) (r : RegistryId) (language : String) (p : ParserId) : Prop :=
  (s.tasks[t]?).bind TaskStatus.call? = some (.getParser r (some language))
    ∧ (s.step t).result? t = some (.ok (.parser (some p)))

/-- The parser was built for the language of the registry that has this key, and it is
initialized. -/
def Readies (s : Service) (r : RegistryId) (key : String) (p : ParserId) : Prop :=
  ∃ q entry, s.parser? p = some q ∧ q.stage = .initialized ∧ q.origin = some (r, entry)
    ∧ entry.config.key = key

end Service

namespace Valid

variable {s : Service} {t : TaskId} {r : RegistryId} {p p' : ParserId}

theorem readies_of_gives (h : Valid s) {language : String} (hgives : s.Gives t r language p) :
    (s.step t).Readies r (Text.caseFold language) p := by
  obtain ⟨status, ht, hcall⟩ := Option.bind_eq_some_iff.mp hgives.1
  obtain ⟨hkeeps, q, hq, hinit⟩ := h.keeps_of_given ht hcall hgives.2
  obtain ⟨q', entry, hq', -, horigin, hkey⟩ :=
    ((h.happening (.step t)).valid h).agreed.stock.cached hkeeps
  cases hq.symm.trans hq'
  exact ⟨q, entry, hq, hinit, horigin, hkey⟩

theorem readies_unique (h : Valid s) {key : String} (hp : s.Readies r key p)
    (hp' : s.Readies r key p') : p = p' := by
  obtain ⟨q, entry, hq, hinit, horigin, rfl⟩ := hp
  obtain ⟨q', entry', hq', hinit', horigin', hkey⟩ := hp'
  obtain ⟨g, hg, hget⟩ := h.keeps_of_initialized hq hinit horigin
  obtain ⟨g', hg', hget'⟩ := h.keeps_of_initialized hq' hinit' horigin'
  rw [hg, Option.some.injEq] at hg'
  subst hg'
  rw [hkey, hget, Option.some.injEq] at hget'
  exact hget'

end Valid

/-- While the registry is left alone, what was ready stays so: it stays initialized, and its origin
does not change. -/
theorem readies_later {r : RegistryId} {pre more : List Service.Action}
    (hspared : (Service.after pre).sparesAll r more = true) {mid mid' : List Service.Action}
    (hmid : mid <+: mid') (hmid' : mid' <+: more) {key : String} {p : ParserId}
    (h : (Service.after (pre ++ mid)).Readies r key p) :
    (Service.after (pre ++ mid')).Readies r key p := by
  obtain ⟨rest, rfl⟩ := hmid
  obtain ⟨last, rfl⟩ := hmid'
  obtain ⟨q, entry, hq, hinit, horigin, hkey⟩ := h
  have hrest : (Service.after (pre ++ mid)).sparesAll r rest = true := by
    rw [Service.sparesAll_append, Service.sparesAll_append, Bool.and_eq_true, Bool.and_eq_true]
      at hspared
    rw [Service.after_append]
    exact hspared.1.2
  obtain ⟨q', hq', hinit'⟩ :=
    (valid_after (pre ++ mid)).stays_initialized_all (housed_after (pre ++ mid)) hrest hq hinit
    (Service.builtFor_of_origin hq horigin)
  obtain ⟨q'', hq'', hlater⟩ := later_after (pre ++ mid) rest p q hq
  rw [Service.after_append, hq', Option.some.injEq] at hq''
  subst hq''
  rw [← List.append_assoc, Service.after_append]
  exact ⟨q', entry, hq', hinit', hlater.origin ▸ horigin, hkey⟩

/-- What those who ask a registry for parsers may rely on, in the part of a run in which it is left
alone. -/
structure OneParserLaw (r : RegistryId) (pre more : List Service.Action) : Prop where
  /-- A parser that is given is initialized at that moment, and it was built for the language. -/
  given : ∀ {mid t language p}, mid ++ [.step t] <+: more →
    (Service.after (pre ++ mid)).Gives t r language p →
    (Service.after (pre ++ (mid ++ [.step t]))).Readies r (Text.caseFold language) p
  /-- Of all parsers that are built for a language, one at most is ever initialized. -/
  once : ∀ {mid mid' key p p'}, mid <+: more → mid' <+: more →
    (Service.after (pre ++ mid)).Readies r key p →
    (Service.after (pre ++ mid')).Readies r key p' → p = p'
  /-- All who ask for a language, in any letter case, are given the same parser. -/
  same : ∀ {mid mid' t t' language language' p p'}, mid ++ [.step t] <+: more →
    mid' ++ [.step t'] <+: more →
    (Service.after (pre ++ mid)).Gives t r language p →
    (Service.after (pre ++ mid')).Gives t' r language' p' →
    Text.caseFold language = Text.caseFold language' → p = p'
  /-- A parser whose initialization failed, other than by lack of memory or a cancellation, is
  disposed of in the same step, and it is given to nobody, before or after. -/
  failed : ∀ {mid t p e}, mid ++ [.step t] <+: more →
    (Service.after (pre ++ mid)).LoadFails t r p e →
    Service.passesOn e = false →
    (∃ q, (Service.after (pre ++ (mid ++ [.step t]))).parser? p = some q ∧ q.stage = .disposed)
      ∧ ∀ {run u r' language}, run ++ [.step u] <+: pre ++ more →
        ¬(Service.after run).Gives u r' language p

/-- **One parser for each language.** In every run, and in every part of it in which a registry is
left alone, those who ask the registry for one language at any time and in any letter case are given
one and the same initialized parser. -/
theorem one_parser_per_language (r : RegistryId) (pre more : List Service.Action)
    (hspared : (Service.after pre).sparesAll r more = true) : OneParserLaw r pre more := by
  have hgiven : ∀ {run t r language p}, (Service.after run).Gives t r language p →
      (Service.after (run ++ [.step t])).Readies r (Text.caseFold language) p := by
    intro run t r language p hgives
    rw [Service.after_concat]
    exact (valid_after run).readies_of_gives hgives
  have honce : ∀ {mid mid' key p p'}, mid <+: more → mid' <+: more →
      (Service.after (pre ++ mid)).Readies r key p →
      (Service.after (pre ++ mid')).Readies r key p' → p = p' := by
    intro mid mid' key p p' hmid hmid' hp hp'
    -- of two moments one is the earlier, and what is ready then is ready at the later one
    rcases List.prefix_or_prefix_of_prefix hmid hmid' with hle | hle
    · exact (valid_after _).readies_unique (readies_later hspared hle hmid' hp) hp'
    · exact (valid_after _).readies_unique hp (readies_later hspared hle hmid hp')
  refine ⟨fun {mid t language p} hmid hgives => ?_, honce, ?_, ?_⟩
  · rw [← List.append_assoc]
    exact hgiven hgives
  · intro mid mid' t t' language language' p p' hmid hmid' hgives hgives' hfold
    have hp := hgiven hgives
    have hp' := hgiven hgives'
    rw [List.append_assoc] at hp hp'
    exact honce hmid hmid' hp (hfold ▸ hp')
  · intro mid t p e hmid hfails he
    have hvalid := valid_after (pre ++ mid)
    obtain ⟨q, hq, hstage⟩ := hvalid.disposed_of_loadFails hfails he
    have hq : (Service.after (pre ++ mid ++ [.step t])).parser? p = some q := by
      rw [Service.after_concat]
      exact hq
    refine ⟨⟨q, by rwa [← List.append_assoc], hstage⟩, fun {run u r' language} hrun hgives => ?_⟩
    obtain ⟨q', entry, hq', hinit, -⟩ := hgiven hgives
    have hwhole : pre ++ mid ++ [.step t] <+: pre ++ more := by
      rw [List.append_assoc]
      exact (List.prefix_append_right_inj pre).mpr hmid
    -- it is given after the load has failed, in the same step, or before that
    rcases List.prefix_or_prefix_of_prefix hwhole hrun with hafter | hbefore
    · -- what was disposed of stays so
      obtain ⟨rest, heq⟩ := hafter
      obtain ⟨q'', hq'', hlater⟩ := later_after (pre ++ mid ++ [.step t]) rest p q hq
      rw [heq, hq', Option.some.injEq] at hq''
      rw [hq'', hlater.disposed hstage] at hinit
      cases hinit
    · rcases List.prefix_concat_iff.mp hbefore with heq | hbefore
      · rw [heq, hq, Option.some.injEq] at hq'
        rw [← hq', hstage] at hinit
        cases hinit
      · -- what was initialized before does not wait for a load
        obtain ⟨rest, heq⟩ := hbefore
        have hsettled := Service.settled_of_later (later_after (run ++ [.step u]) rest) (p := p)
          (Service.settled_iff.mpr ⟨q', hq',
            by simp [Parser.isSettled, Parser.isInitialized, hinit]⟩)
        rw [heq, hvalid.not_settled_of_loadFails hfails] at hsettled
        cases hsettled

/-- A language whose grammar cannot be loaded. -/
def brokenLanguage : LanguageConfig :=
  let engine : Engine := { load := .error (.ofText .runtime "no grammar") }
  { name := "boom", factory := some {
    build := fun _ => .ok { name := "Parser", language := "boom", engine } } }

/-- A registry with two languages. -/
def twoLanguages : List Service.Action :=
  [.newRegistry {} 0 false, .register 0 slowLanguage, .register 0 brokenLanguage]

/-- Three tasks ask for parsers, the second one in capitals while the first one loads, the third one
in vain. -/
def threeCallers : List Service.Action :=
  [.spawn (.getParser 0 (some "json")), .spawn (.getParser 0 (some "JSON")),
    .spawn (.getParser 0 (some "boom")),
    .step 0, .step 1, .step 2, .finishWork 0, .step 0, .step 1, .step 2]

/-- Two of them are given the same parser, and the one that the third one built is disposed of. -/
theorem one_parser_for_three_callers :
    (Service.after twoLanguages).sparesAll 0 threeCallers = true
      ∧ (Service.after (twoLanguages ++ threeCallers.take 7)).Gives 0 0 "json" 0
      ∧ (Service.after (twoLanguages ++ threeCallers.take 8)).Gives 1 0 "JSON" 0
      ∧ (Service.after (twoLanguages ++ threeCallers.take 9)).LoadFails 2 0 1
        (.ofText .runtime "no grammar")
      ∧ OneParserLaw 0 twoLanguages threeCallers := by
  have hspared : (Service.after twoLanguages).sparesAll 0 threeCallers = true := rfl
  refine ⟨hspared, ⟨rfl, rfl⟩, ⟨rfl, rfl⟩, ?_,
    one_parser_per_language 0 twoLanguages threeCallers hspared⟩
  exact .atOnce rfl rfl rfl rfl rfl rfl

end SyntaxForest
