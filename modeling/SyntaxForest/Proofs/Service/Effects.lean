import SyntaxForest.Proofs.Registry.Endings
import SyntaxForest.Proofs.Service.Runs

/-!
# What tasks do to the world around them

Between two waits a task changes parsers, collectors and registries, and it does so by a few kinds
of small effects. What a call may do is said by the leave it is given: which parsers it may dispose
of and which registries it may edit. Some effects leave a mark: an engine is set to work, or a parse
is counted.

* **`Effect`**, **`Effects`** — one effect, and a sequence of them with the marks they leave.
* **`Effects.goes`**, **`Effects.named`** — what no task changes about a parser: its language, its
  collector and its engine; and that it is initialized, unless the task may dispose of it.
* **`newRegistry_effects`**, **`beginInit_effects`** and their like — one lemma for each operation
  on registries and for each part of an initialization.
-/

namespace SyntaxForest

/-! ## Effects -/

/-- What can be counted about engines: one is set to work, or the collector of its parser counts a
parse. -/
inductive EngineMark where
  | began (p : ParserId)
  | counted (collector : Option CollectorId) (language : String) (success : Bool) (nodes : Int)
deriving DecidableEq

/-- What somebody may do: the parsers that may be disposed of, the registries that may be edited,
and whether parsers may be built. -/
structure Leave where
  retires : ParserId → Prop
  edits : RegistryId → Prop
  builds : Prop

/-- Nothing may be done. -/
def noLeave : Leave := { retires := fun _ => False, edits := fun _ => False, builds := False }

namespace Parser

/-- It is the same parser, as far as tasks are concerned. -/
structure Same (q q' : Parser) : Prop where
  language : q'.language = q.language
  collector : q'.collector = q.collector
  engine : q'.engine = q.engine

theorem Same.refl (q : Parser) : Same q q := ⟨rfl, rfl, rfl⟩

theorem Same.trans {q q' q'' : Parser} (h : Same q q') (h' : Same q' q'') : Same q q'' :=
  ⟨h'.language.trans h.language, h'.collector.trans h.collector, h'.engine.trans h.engine⟩

/-- What becomes of a parser that may have been disposed of or not, and whose engine was set to work
so many times. -/
structure Goes (retired : Prop) (begun : Nat) (q q' : Parser) : Prop where
  same : Same q q'
  parses : q'.tally.parses = q.tally.parses + begun
  initialized : ¬retired → q.stage = .initialized → q'.stage = .initialized

/-- It is neither disposed of nor set to work. -/
abbrev Lasts (q q' : Parser) : Prop := Goes False 0 q q'

theorem Goes.refl (retired : Prop) (q : Parser) : Goes retired 0 q q := ⟨.refl q, rfl, fun _ => id⟩

theorem Goes.trans {retired : Prop} {begun begun' : Nat} {q q' q'' : Parser}
    (h : Goes retired begun q q') (h' : Goes retired begun' q' q'') :
    Goes retired (begun + begun') q q'' := by
  refine ⟨h.same.trans h'.same, ?_, fun hkept hstage => h'.initialized hkept
    (h.initialized hkept hstage)⟩
  rw [h'.parses, h.parses]
  omega

theorem Goes.of_lasts {retired : Prop} {q q' : Parser} (h : Lasts q q') : Goes retired 0 q q' :=
  ⟨h.same, h.parses, fun _ => h.initialized id⟩

theorem same_retire (q : Parser) : Same q q.retire := by
  rw [retire]
  split
  · exact .refl q
  · split <;> exact ⟨rfl, rfl, rfl⟩

theorem parses_retire (q : Parser) : q.retire.tally.parses = q.tally.parses := by
  rw [retire]
  split
  · rfl
  · split <;> rfl

theorem lasts_endLoad (q : Parser) (result : Except Fault Unit) : Lasts q (q.endLoad result) := by
  cases result with
  | ok _ => exact ⟨⟨rfl, rfl, rfl⟩, rfl, fun _ => id⟩
  | error fault =>
    rw [endLoad]
    split <;> exact ⟨⟨rfl, rfl, rfl⟩, rfl, fun _ => id⟩

theorem lasts_moveTo {q q' : Parser} {target : Stage} (h : q.moveTo target = .ok q')
    (htarget : target ≠ .disposed) :
    Lasts q q' := by
  rw [moveTo] at h
  split at h
  · rename_i hmay
    cases h
    refine ⟨⟨rfl, rfl, rfl⟩, rfl, fun _ hstage => ?_⟩
    rw [hstage] at hmay
    exact absurd (by simpa [Stage.successors] using hmay) htarget
  · cases h

end Parser

/-- What a service is besides its parsers, its registries, its log and its tasks. -/
def Service.outside (s : Service) : Array Collector × List String × NativeReply :=
  (s.collectors, s.events, s.native)

/-- Locks, tasks and the log may differ, and nothing else. -/
structure Idle (s s' : Service) : Prop where
  parsers : s'.parsers = s.parsers
  registries : s'.registries = s.registries
  outside : s'.outside = s.outside

/-- What a task can do at a time, with this leave. The list is what is marked by it; effects that
mark nothing leave the list empty. -/
inductive Effect (l : Leave) : List EngineMark → Service → Service → Prop
  | idle {s s' : Service} (h : Idle s s') : Effect l [] s s'
  | change {s : Service} {p : ParserId} {change : Parser → Parser}
      (h : ∀ q, s.parser? p = some q → q.Lasts (change q)) : Effect l [] s (s.modifyParser p change)
  /-- The engine of the parser is set to work. -/
  | engage {s : Service} (p : ParserId) : Effect l [.began p] s (s.modifyParser p Parser.startParse)
  | retire {s : Service} {p : ParserId} (h : l.retires p) :
      Effect l [] s (s.modifyParser p Parser.retire)
  /-- An initialization is timed. -/
  | time {s : Service} (q : Parser) (language : String) (elapsed : Float) :
      Effect l [] s (s.count q fun c => c.recordInitialization language elapsed)
  /-- A parse is counted. -/
  | count {s : Service} (q : Parser) (language : String) (elapsed : Float) (success : Bool)
      (nodes : Int) :
      Effect l [.counted q.collector language success nodes] s
        (s.count q fun c => c.recordParse language elapsed success nodes)
  | add {s : Service} {q : Parser} (hbuilds : l.builds) (h : q.language ≠ "") :
      Effect l [] s (s.addParser q).1
  /-- A registry is made. -/
  | found {s : Service} (settings : Settings) (collector : CollectorId) :
      Effect l [] s { s with registries := s.registries.push { settings, collector } }
  /-- A registry changes, but not its languages and endings unless it may be edited. -/
  | registry {s : Service} {r : RegistryId} {change : Registry → Registry}
      (h : l.edits r ∨ ∀ g, (change g).languages = g.languages
        ∧ (change g).extensions = g.extensions) :
      Effect l [] s (s.modifyRegistry r change)

/-- What a task does in the course of time, and the marks it leaves. -/
inductive Effects (l : Leave) : List EngineMark → Service → Service → Prop
  | refl (s : Service) : Effects l [] s s
  | tail {marks marks' : List EngineMark} {s s' s'' : Service} (h : Effects l marks s s')
      (h' : Effect l marks' s' s'') :
      Effects l (marks ++ marks') s s''

namespace Effects

variable {l : Leave} {marks marks' : List EngineMark} {s s' s'' : Service}

theorem single (h : Effect l marks s s') : Effects l marks s s' := (refl s).tail h

theorem append (h : Effects l marks s s') (h' : Effects l marks' s' s'') :
    Effects l (marks ++ marks') s s'' := by
  induction h' with
  | refl => rwa [List.append_nil]
  | tail _ hlast ih =>
    rw [← List.append_assoc]
    exact (ih h).tail hlast

theorem trans (h : Effects l [] s s') (h' : Effects l [] s' s'') : Effects l [] s s'' := h.append h'

theorem idle (hparsers : s'.parsers = s.parsers) (hregistries : s'.registries = s.registries)
    (houtside : s'.outside = s.outside) : Effects l [] s s' :=
  single (.idle ⟨hparsers, hregistries, houtside⟩)

theorem change (s : Service) (p : ParserId) (change : Parser → Parser)
    (h : ∀ q : Parser, q.Lasts (change q)) : Effects l [] s (s.modifyParser p change) :=
  single (.change fun q _ => h q)

end Effects

/-! ## What follows from the effects -/

theorem Service.parser?_count (s : Service) (c : Parser) (change : Collector → Collector)
    (p : ParserId) :
    (s.count c change).parser? p = s.parser? p := by
  rw [count]
  split <;> rfl

/-- **What an effect does to a parser that is there.** One case for each effect; those that do not
touch the parser are all alike, and only setting its engine to work adds to the count. -/
theorem Effect.goes {l : Leave} {marks : List EngineMark} {s s' : Service} (h : Effect l marks s s')
    {p : ParserId} {q : Parser} (hp : s.parser? p = some q) :
    ∃ q', s'.parser? p = some q' ∧ q.Goes (l.retires p) (marks.count (.began p)) q' := by
  have hstays := Parser.Goes.refl (l.retires p) q
  cases h with
  | idle h => exact ⟨q, by rwa [Service.parser?, h.parsers], hstays⟩
  | time c language elapsed => exact ⟨q, (Service.parser?_count ..).trans hp, hstays⟩
  | count c language elapsed success nodes =>
    exact ⟨q, (Service.parser?_count ..).trans hp, by simpa using hstays⟩
  | found => exact ⟨q, hp, hstays⟩
  | registry => exact ⟨q, hp, hstays⟩
  | add =>
    -- a new parser stands behind all those that are there
    have hlt := (Array.getElem?_eq_some_iff.mp hp).1
    refine ⟨q, ?_, hstays⟩
    rw [Service.parser?, Service.addParser, Array.getElem?_push, if_neg (Nat.ne_of_lt hlt)]
    exact hp
  | @change _ p' change h =>
    by_cases heq : p' = p
    · subst heq
      exact ⟨_, Service.parser?_modifyParser_self hp change, .of_lasts (h q hp)⟩
    · exact ⟨q, (Service.parser?_modifyParser_of_ne s heq change).trans hp, hstays⟩
  | @retire _ p' h =>
    by_cases heq : p' = p
    · subst heq
      exact ⟨_, Service.parser?_modifyParser_self hp _, q.same_retire, q.parses_retire,
        fun hkept => absurd h hkept⟩
    · exact ⟨q, (Service.parser?_modifyParser_of_ne s heq _).trans hp, hstays⟩
  | engage p' =>
    by_cases heq : p' = p
    · subst heq
      exact ⟨_, Service.parser?_modifyParser_self hp _, ⟨rfl, rfl, rfl⟩,
        by rw [List.count_singleton_self]; rfl, fun _ => id⟩
    · refine ⟨q, (Service.parser?_modifyParser_of_ne s heq _).trans hp, ?_⟩
      rw [List.count_singleton, if_neg (by simpa using heq)]
      exact hstays

theorem Effect.size_parsers {l : Leave} {marks : List EngineMark} {s s' : Service}
    (h : Effect l marks s s') (hl : ¬l.builds) :
    s'.parsers.size = s.parsers.size := by
  have hcount : ∀ (c : Parser) (change : Collector → Collector),
      (s.count c change).parsers.size = s.parsers.size := fun c change => by
    rw [Service.count]
    split <;> rfl
  cases h with
  | idle h => rw [h.parsers]
  | time c language elapsed => exact hcount c _
  | count c language elapsed success nodes => exact hcount c _
  | found => rfl
  | registry => rfl
  | add hbuilds => exact absurd hbuilds hl
  | change => exact Array.size_modify
  | retire => exact Array.size_modify
  | engage => exact Array.size_modify

namespace Effects

variable {l : Leave} {marks : List EngineMark} {s s' : Service} {p : ParserId} {q : Parser}

/-- **What a task does to a parser that is there.** -/
theorem goes (h : Effects l marks s s') (hp : s.parser? p = some q) :
    ∃ q', s'.parser? p = some q' ∧ q.Goes (l.retires p) (marks.count (.began p)) q' := by
  induction h with
  | refl => exact ⟨q, hp, .refl _ q⟩
  | tail _ hlast ih =>
    obtain ⟨q₁, hq₁, hgoes⟩ := ih hp
    obtain ⟨q₂, hq₂, hgoes'⟩ := hlast.goes hq₁
    rw [List.count_append]
    exact ⟨q₂, hq₂, hgoes.trans hgoes'⟩

theorem same (h : Effects l marks s s') (hp : s.parser? p = some q) :
    ∃ q', s'.parser? p = some q' ∧ q.Same q' ∧ q'.tally.parses = q.tally.parses + marks.count
      (.began p) := by
  obtain ⟨q', hq', hgoes⟩ := h.goes hp
  exact ⟨q', hq', hgoes.same, hgoes.parses⟩

theorem initialized (h : Effects l marks s s') (hp : s.parser? p = some q)
    (hstage : q.stage = .initialized) (hkeep : ¬l.retires p) :
    ∃ q', s'.parser? p = some q' ∧ q'.stage = .initialized := by
  obtain ⟨q', hq', hgoes⟩ := h.goes hp
  exact ⟨q', hq', hgoes.initialized hkeep hstage⟩

theorem size_parsers (h : Effects l marks s s') (hl : ¬l.builds) :
    s'.parsers.size = s.parsers.size := by
  induction h with
  | refl => rfl
  | tail _ hlast ih => exact (hlast.size_parsers hl).trans ih

end Effects

/-- Every parser is for a language that has a name. -/
def Service.Named (s : Service) : Prop :=
  ∀ {p : ParserId} {q : Parser}, s.parser? p = some q → q.language ≠ ""

theorem Effect.named {l : Leave} {marks : List EngineMark} {s s' : Service}
    (h : Effect l marks s s') (hs : s.Named) :
    s'.Named := by
  intro p q' hq'
  -- a change of one parser is looked up at that parser, or at another one
  have hmodify : ∀ {p' : ParserId} {change : Parser → Parser},
      (∀ q, s.parser? p' = some q → q.Same (change q)) →
      (s.modifyParser p' change).parser? p = some q' → q'.language ≠ "" := by
    intro p' change hchange hq'
    rcases Service.parser?_of_modifyParser hq' with ⟨rfl, q, hq, rfl⟩ | ⟨-, hq⟩
    · rw [(hchange q hq).language]
      exact hs hq
    · exact hs hq
  cases h with
  | idle h => exact hs (by rwa [Service.parser?, ← h.parsers])
  | change h => exact hmodify (fun q hq => (h q hq).same) hq'
  | retire h => exact hmodify (fun q _ => q.same_retire) hq'
  | engage p' => exact @hmodify p' Parser.startParse (fun _ _ => ⟨rfl, rfl, rfl⟩) hq'
  | time c language elapsed => exact hs ((Service.parser?_count ..).symm.trans hq')
  | count c language elapsed success nodes => exact hs ((Service.parser?_count ..).symm.trans hq')
  | add _ h =>
    rcases Service.parser?_of_addParser hq' with ⟨-, rfl⟩ | hq
    · exact h
    · exact hs hq
  | found => exact hs hq'
  | registry => exact hs hq'

theorem Effects.named {l : Leave} {marks : List EngineMark} {s s' : Service}
    (h : Effects l marks s s') (hs : s.Named) :
    s'.Named := by
  induction h with
  | refl => exact hs
  | tail _ hlast ih => exact hlast.named (ih hs)

namespace Service

variable {l : Leave} {t : TaskId}

/-! ## Primitive operations -/

theorem outside_wake (s : Service) (u : TaskId) (sg : Signal) :
    (s.wake u sg).outside = s.outside := by
  rw [wake]
  split <;> rfl

theorem outside_setLockAndWake (s : Service) (id : LockId) (l : Lock × Option TaskId) :
    (s.setLockAndWake id l).outside = s.outside := by
  rw [setLockAndWake]
  split
  · rw [outside_wake]
    rfl
  · rfl

theorem release_effects (s : Service) (id : LockId) : Effects l [] s (s.release id) :=
  .idle (parsers_setLockAndWake ..) (registries_release ..) (outside_setLockAndWake ..)

theorem endWait_effects (s : Service) (t : TaskId) (wait : Wait) (signal : Signal) :
    Effects l [] s (s.endWait t wait signal) := by
  refine .idle (parsers_endWait ..) (registries_endWait ..) ?_
  cases wait with
  | gate name => rfl
  | worker => rfl
  | lock id =>
    cases signal with
    | proceed => rfl
    | cancel =>
      rw [endWait]
      split
      · rfl
      · exact outside_setLockAndWake ..

theorem acquire_effects (s : Service) (id : LockId) (t : TaskId) :
    Effects l [] s (s.acquire id t).1 := by
  rw [acquire]
  split <;> exact .idle rfl rfl rfl

theorem parsers_pauseAt (s : Service) (t : TaskId) (pause : Pause) :
    (s.pauseAt t pause).1.parsers = s.parsers := by
  cases pause with
  | none => rfl
  | worker => rfl
  | gate name =>
    rw [pauseAt]
    split <;> rfl

theorem pauseAt_effects (s : Service) (t : TaskId) (pause : Pause) :
    Effects l [] s (s.pauseAt t pause).1 := by
  cases pause with
  | none => exact .refl s
  | worker => exact .idle rfl rfl rfl
  | gate name =>
    rw [pauseAt]
    split
    · exact .refl s
    · exact .idle rfl rfl rfl

theorem write_effects (s : Service) (record : LogRecord) : Effects l [] s (s.write record) :=
  .idle rfl rfl rfl

theorem note_effects (s : Service) (level : Int) (logger message : String) :
    Effects l [] s (s.note level logger message) := write_effects ..

theorem moveParser_effects {s s' : Service} {p : ParserId} {target : Stage}
    (h : s.moveParser p target = .ok s') (htarget : target ≠ .disposed) : Effects l [] s s' := by
  rw [moveParser] at h
  split at h
  · cases h
    exact .refl s
  · rename_i q hp
    split at h
    · cases h
    · rename_i moved hmoved
      cases h
      refine Effects.trans (.single (.change fun q' hq' => ?_)) (write_effects ..)
      rw [hp, Option.some.injEq] at hq'
      exact hq' ▸ Parser.lasts_moveTo hmoved htarget

theorem outside_disposeParser (s : Service) (p : ParserId) :
    (s.disposeParser p).outside = s.outside := by
  -- moving a parser to another stage changes nothing outside
  have hmoved : ∀ {s'}, s.moveParser p .disposed = .ok s' → s'.outside = s.outside := by
    intro s' h
    rw [moveParser] at h
    split at h
    · cases h
      rfl
    · split at h
      · cases h
      · cases h
        rfl
  rw [disposeParser]
  split
  · rfl
  · split
    · rfl
    · split
      · rfl
      · rename_i moved heq
        have houtside := hmoved heq
        split <;> exact houtside

theorem disposeParser_effects (s : Service) {p : ParserId} (h : l.retires p) :
    Effects l [] s (s.disposeParser p) :=
  Effects.trans (.single (.retire h))
    (.idle (disposeParser_quiet s p).parsers (disposeParser_quiet s p).registries
    (outside_disposeParser s p))

/-! ## Registering

Registering and unregistering are edits of one registry, and the parser of a language that is taken
out is disposed of. -/

/-- **Unregistering is an edit of the registry**, as `Registry.without` says it, whatever becomes of
the parser. -/
theorem registries_unregister (s : Service) (r : RegistryId) (language : String) :
    (s.unregister r language).1.registries = s.registries.modify r (·.without language) := by
  -- registry by registry: only `r` can differ, and only if the language is there to be taken out
  apply Array.ext_getElem?
  intro i
  rw [Array.getElem?_modify, unregister]
  cases hg : s.registries[r]? with
  | none =>
    show s.registries[i]? = _
    split
    · rename_i hi
      rw [← hi, hg]
      rfl
    · rfl
  | some g =>
    rw [Option.bind_some]
    cases hremove : g.remove? language with
    | none =>
      show s.registries[i]? = _
      split
      · rename_i hi
        rw [← hi, hg, Option.map_some, Registry.without, hremove]
      · rfl
    | some found =>
      obtain ⟨g', config, parser⟩ := found
      have hwithout : g.without language = g' := by
        rw [Registry.without, hremove]
      have hmodified : ∀ s' : Service, s'.registries = (s.modifyRegistry r fun _ => g').registries →
          s'.registries[i]? = if r = i then s.registries[i]?.map (·.without language)
            else s.registries[i]? := by
        intro s' hs'
        rw [hs', modifyRegistry, Array.getElem?_modify]
        split
        · rename_i hi
          rw [← hi, hg, Option.map_some, Option.map_some, hwithout]
        · rfl
      cases parser with
      | none => exact hmodified _ rfl
      | some p => exact hmodified _ (registries_disposeParser _ p)

theorem registries_noteAll (s : Service) (messages : List WideText) (level : Int)
    (logger : String) :
    (messages.foldl (fun acc message => acc.noteData level logger (.ofWide message)) s).registries
      = s.registries := (noteAll_quiet s messages level logger).registries

/-- An entry that is not there need not be taken out, so that the test for it can be left out of the
statement. -/
theorem registries_replaceEarlier (s : Service) (r : RegistryId) (config : LanguageConfig) :
    (s.replaceEarlier r config).registries = s.registries.modify r (·.without config.name) := by
  rw [replaceEarlier]
  split
  · exact registries_unregister ..
  · rename_i habsent
    -- nothing is taken out, and `without` would take nothing out either
    apply Array.ext_getElem?
    intro i
    rw [Array.getElem?_modify]
    split
    · rename_i hi
      subst hi
      cases hg : s.registries[r]? with
      | none => rfl
      | some g =>
        rw [hg, Option.any_some, Assoc.contains_eq_isSome, Bool.not_eq_true,
          Option.isSome_eq_false_iff,
          Option.isNone_iff_eq_none] at habsent
        have hremove : g.remove? config.name = none := by
          rw [LanguageConfig.key] at habsent
          rw [Registry.remove?]
          rw [habsent]
        rw [Option.map_some, Registry.without, hremove]
    · rfl

/-- **Registering is an edit of the registry.** -/
theorem registries_register (s : Service) (r : RegistryId) (config : LanguageConfig) :
    (s.register r config).registries = s.registries.modify r (·.edit (.register config)) := by
  have hentered : (s.register r config).registries
      = ((s.replaceEarlier r config).modifyRegistry r (·.enter config)).registries :=
    registries_noteAll ..
  rw [hentered, modifyRegistry, registries_replaceEarlier, modify_modify]
  rfl

theorem keeps_of_register {s : Service} {r : RegistryId} {config : LanguageConfig} {key : String}
    {p : ParserId} (h : (s.register r config).Keeps r key p) : s.Keeps r key p := by
  obtain ⟨g', hg', hget⟩ := h
  rw [registries_register, Array.getElem?_modify, if_pos rfl, Option.map_eq_some_iff] at hg'
  obtain ⟨g, hg, rfl⟩ := hg'
  refine ⟨g, hg, ?_⟩
  have hget : Assoc.get? (g.without config.name).parsers key = some p := hget
  rw [Registry.without, Registry.remove?] at hget
  split at hget
  · rename_i smaller config' parser hremove
    split at hremove
    · cases hremove
    · cases hremove
      rw [Assoc.get?_erase] at hget
      split at hget
      · cases hget
      · exact hget
  · exact hget

/-- Unregistering needs the leave to edit the registry and to dispose of whatever it keeps. -/
theorem unregister_effects {s : Service} {r : RegistryId} (language : String) (hedits : l.edits r)
    (hretires : ∀ {key p}, s.Keeps r key p → l.retires p) :
    Effects l [] s (s.unregister r language).1 := by
  rw [unregister]
  split
  · exact .refl s
  · rename_i registry config parser hremove
    obtain ⟨g, hg, hremove⟩ := Option.bind_eq_some_iff.mp hremove
    have hremoved : Effects l [] s (s.modifyRegistry r fun _ => registry) :=
      .single (.registry (Or.inl hedits))
    dsimp only
    cases parser with
    | none => exact hremoved.trans (note_effects ..)
    | some p =>
      -- the parser that is disposed of is the one that was kept under the key of the language
      refine Effects.trans (hremoved.trans ?_) (note_effects ..)
      refine (disposeParser_effects _ (@hretires (Text.caseFold language) p ⟨g, hg, ?_⟩))
      rw [Registry.remove?] at hremove
      split at hremove
      · cases hremove
      · simp only [Option.some.injEq, Prod.mk.injEq] at hremove
        exact hremove.2.2

theorem replaceEarlier_effects {s : Service} {r : RegistryId} (config : LanguageConfig)
    (hedits : l.edits r) (hretires : ∀ {key p}, s.Keeps r key p → l.retires p) :
    Effects l [] s (s.replaceEarlier r config) := by
  rw [replaceEarlier]
  split
  · exact (note_effects ..).trans (unregister_effects config.name hedits hretires)
  · exact .refl s

theorem noteAll_effects (s : Service) (messages : List WideText) (level : Int) (logger : String) :
    Effects l [] s (messages.foldl (fun acc message => acc.noteData level logger (.ofWide message))
      s) := by
  induction messages generalizing s with
  | nil => exact .refl s
  | cons message rest ih => exact (write_effects s _).trans (ih _)

theorem register_effects {s : Service} {r : RegistryId} (config : LanguageConfig)
    (hedits : l.edits r) (hretires : ∀ {key p}, s.Keeps r key p → l.retires p) :
    Effects l [] s (s.register r config) := by
  have hentered : Effects l [] s ((s.replaceEarlier r config).modifyRegistry r (·.enter config)) :=
    (replaceEarlier_effects config hedits hretires).trans (.single (.registry (Or.inl hedits)))
  exact (hentered.trans (noteAll_effects ..)).trans (note_effects ..)

theorem readTable_effects (s : Service) (path : FilePath) :
    Effects l [] s (s.readTable path).1 := by
  rw [readTable]
  split
  · exact .refl s
  · split
    · exact .refl s
    · exact note_effects ..
    · exact .refl s

theorem loadTable_effects (s : Service) (r : RegistryId) (path : FilePath) :
    Effects l [] s (s.loadTable r path).1 := by
  rw [loadTable]
  split
  · exact .refl s
  · have hread := readTable_effects (l := l) s path
    split
    · rename_i read e heq
      rwa [heq] at hread
    · rename_i read table heq
      rw [heq] at hread
      have hkept : Effects l [] read (read.modifyRegistry r fun g =>
          { g with tables := Assoc.set g.tables path table }) :=
        .single (.registry (Or.inr fun _ => ⟨rfl, rfl⟩))
      exact (hread.trans hkept).trans (note_effects ..)

theorem keeps_of_loadTable {s : Service} (r : RegistryId) {r' : RegistryId} (path : FilePath)
    {key : String} {p : ParserId} (h : (s.loadTable r path).1.Keeps r' key p) :
    s.Keeps r' key p := by
  rw [loadTable] at h
  split at h
  · exact h
  · have hread := (readTable_quiet s path).registries
    split at h
    · rename_i read e heq
      rw [heq] at hread
      exact (Stock.keeps_of_registries hread).mp h
    · rename_i read table heq
      rw [heq] at hread
      obtain ⟨g', hg', hget⟩ := h
      change (read.registries.modify r _)[r']? = some g' at hg'
      rw [Array.getElem?_modify, hread] at hg'
      split at hg'
      · obtain ⟨g, hg, rfl⟩ := Option.map_eq_some_iff.mp hg'
        exact ⟨g, hg, hget⟩
      · exact ⟨g', hg', hget⟩

theorem registerAll_effects {s : Service} {r : RegistryId} (configs : List LanguageConfig)
    (hedits : l.edits r) (hempty : ∀ {key p}, ¬s.Keeps r key p) :
    Effects l [] s (configs.foldl (fun acc config => acc.register r config) s) := by
  induction configs generalizing s with
  | nil => exact .refl s
  | cons config rest ih =>
    exact (register_effects config hedits fun h => absurd h hempty).trans
      (ih fun h => hempty (keeps_of_register h))

theorem newRegistry_effects {s : Service} (settings : Settings) (collector : CollectorId)
    (withTable : Bool) (hedits : l.edits s.registries.size) :
    Effects l [] s (s.newRegistry settings collector withTable).1 := by
  have hmade : Effects l [] s { s with registries := s.registries.push { settings, collector } } :=
    .single (.found settings collector)
  have hempty : ∀ {key p}, ¬Keeps { s with registries := s.registries.push { settings, collector } }
      s.registries.size key p := by
    rintro key p ⟨g, hg, hget⟩
    change (s.registries.push _)[s.registries.size]? = some g at hg
    rw [Array.getElem?_push, if_pos rfl] at hg
    cases hg
    cases hget
  rw [newRegistry]
  split
  · exact hmade
  · have hloaded := hmade.trans
      (loadTable_effects _ s.registries.size (settings.languagesPath.getD builtinPath))
    split
    · rename_i loaded e heq
      rwa [heq] at hloaded
    · rename_i loaded table heq
      rw [heq] at hloaded
      -- reading a table brings no parsers in, so that filling the registry has none to dispose of
      refine hloaded.trans (registerAll_effects table hedits fun {key p} h => ?_)
      refine @hempty key p
        (keeps_of_loadTable s.registries.size (settings.languagesPath.getD builtinPath) ?_)
      rw [heq]
      exact h

theorem disposeAll_effects (s : Service) {parsers : List ParserId}
    (h : ∀ p ∈ parsers, l.retires p) :
    Effects l [] s (parsers.foldl disposeParser s) := by
  induction parsers generalizing s with
  | nil => exact .refl s
  | cons p rest ih =>
    exact (disposeParser_effects s (h p List.mem_cons_self)).trans
      (ih _ fun p' hp' => h p' (List.mem_cons_of_mem _ hp'))

theorem disposeRegistry_effects {s : Service} {r : RegistryId}
    (hretires : ∀ {g}, s.registries[r]? = some g → ∀ p ∈ g.parsers.values, l.retires p) :
    Effects l [] s (s.disposeRegistry r) := by
  rw [disposeRegistry]
  split
  · exact .refl s
  · rename_i g hg
    exact (disposeAll_effects s (hretires hg)).trans
      (.single (.registry (Or.inr fun _ => ⟨rfl, rfl⟩)))

/-! ## Initializing -/

theorem failLoad_effects (s : Service) (p : ParserId) (q : Parser) (fault : Fault) :
    Effects l [] s (s.failLoad p q fault).1 := by
  rw [failLoad]
  split
  · exact release_effects ..
  · refine Effects.trans ?_ (release_effects ..)
    split
    -- with or without a record in the log, the stage goes back if it may
    on_goal 1 => refine Effects.trans ?_ (write_effects ..)
    all_goals
      split
      · split
        · rename_i moved hmoved
          exact moveParser_effects hmoved (by decide)
        · exact .refl s
      · exact .refl s

theorem finishLoad_effects (s : Service) (p : ParserId) (q : Parser) (event : Option String) :
    Effects l [] s (s.finishLoad p q event).1 := by
  rw [finishLoad]
  split
  · exact (Effects.change s p Parser.releaseEngine fun q =>
      ⟨⟨rfl, rfl, rfl⟩, rfl, fun _ => id⟩).trans (release_effects ..)
  · split
    · exact release_effects ..
    · rename_i moved hmoved
      exact ((moveParser_effects hmoved (by decide)).trans (write_effects ..)).trans
        (release_effects ..)

theorem endLoad_effects (s : Service) (p : ParserId) (event : Option String) (signal : Signal) :
    Effects l [] s (s.endLoad p event signal).1 := by
  rw [endLoad]
  split
  · exact release_effects ..
  · rename_i q _
    have hended : Effects l [] s
        ((s.count q fun c => c.recordInitialization q.language s.elapsed).modifyParser p
        (·.endLoad (loadResult q signal))) :=
      Effects.trans (.single (.time q q.language s.elapsed))
        (.change _ p _ fun q' => q'.lasts_endLoad _)
    dsimp only
    -- from here on it matters only whether the load succeeded
    generalize loadResult q signal = result at hended ⊢
    cases result with
    | error fault => exact hended.trans (failLoad_effects ..)
    | ok _ => exact hended.trans (finishLoad_effects ..)

theorem startLoad_effects (s : Service) (p : ParserId) (q : Parser) (event : Option String) :
    Effects l [] s (s.startLoad t p q event).1 := by
  have hpaused : Effects l [] s ((s.modifyParser p Parser.startLoad).pauseAt t
      q.engine.loadPause).1 :=
    (Effects.change s p Parser.startLoad fun q => ⟨⟨rfl, rfl, rfl⟩, rfl, fun _ => id⟩).trans
      (pauseAt_effects ..)
  rw [startLoad]
  split
  · rename_i paused wait heq
    rwa [heq] at hpaused
  · rename_i going heq
    rw [heq] at hpaused
    exact hpaused.trans (endLoad_effects ..)

theorem initLocked_effects (s : Service) (p : ParserId) (event : Option String) :
    Effects l [] s (s.initLocked t p event).1 := by
  -- in all cases but the last there is nothing to load, and the lock is given back at once
  rw [initLocked]
  split
  · exact release_effects ..
  · split
    · exact release_effects ..
    · split
      · exact release_effects ..
      · split
        · exact release_effects ..
        · split
          · exact release_effects ..
          · rename_i moved hmoved
            exact ((moveParser_effects hmoved (by decide)).trans (write_effects ..)).trans
              (startLoad_effects ..)

/-- **An initialization needs no leave**: it disposes of nothing, edits nothing, builds nothing and
sets no engine to work. -/
theorem beginInit_effects (s : Service) (p : ParserId) (event : Option String) :
    Effects l [] s (s.beginInit t p event).1 := by
  rw [beginInit]
  split
  · exact .refl s
  · split
    · exact .refl s
    · split
      · exact .refl s
      · have hacquired := acquire_effects (l := l) s (.lifecycle p) t
        split
        · rename_i locked heq
          rw [heq] at hacquired
          exact hacquired.trans (initLocked_effects ..)
        · rename_i queued heq
          rwa [heq] at hacquired

theorem resumeInit_effects (s : Service) (p : ParserId) (event : Option String) (point : InitPoint)
    (signal : Signal) :
    Effects l [] s (s.resumeInit t p event point signal).1 := by
  cases point with
  | lock =>
    cases signal with
    | proceed => exact initLocked_effects ..
    | cancel => exact .refl s
  | load => exact endLoad_effects ..

end Service

end SyntaxForest
