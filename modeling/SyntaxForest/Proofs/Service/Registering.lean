import SyntaxForest.Proofs.Service.Moves

/-!
# What registering and disposing come to

The operations on registries and parsers that do not wait are sequences of changes (`Change`), with
notes in between.

* **`disposeParser_quiet`** — disposing of a parser is one change, `Parser.retire`.
* **`unregister_changes`**, **`register_changes`**, **`newRegistry_changes`**,
  **`disposeRegistry_changes`**.
-/

namespace SyntaxForest

/-- A sequence of changes. -/
abbrev Changes : Service → Service → Prop :=
  Relation.ReflTransGen fun s s' => Quiet s s' ∨ Change s s'

namespace Changes

variable {s s' s'' : Service}

theorem quiet (h : Quiet s s') : Changes s s' := .single (Or.inl h)

theorem change (h : Change s s') : Changes s s' := .single (Or.inr h)

theorem deals (h : Changes s s') (t : TaskId) {F : Footing}
    (hidle : ∀ r entry p, .build r entry p ∉ F.duties) : Deals t (s, F) (s', F) := by
  induction h with
  | refl => exact .refl
  | tail _ hstep ih =>
    rcases hstep with hquiet | hchange
    · exact ih.tail (.move (.quiet hquiet))
    · exact ih.tail (.change hchange hidle)

theorem later (h : Changes s s') : Later s s' := by
  induction h with
  | refl => exact .refl _
  | tail _ hstep ih =>
    rcases hstep with hquiet | hchange
    · exact ih.trans (.of_parsers hquiet.parsers)
    · exact ih.trans hchange.later

end Changes

namespace Service

/-! ## Disposing of a parser -/

theorem modifyParser_eq_self {s : Service} {p : ParserId} {change : Parser → Parser}
    (h : ∀ q, s.parser? p = some q → change q = q) : s.modifyParser p change = s := by
  have hparsers : s.parsers.modify p change = s.parsers := by
    apply Array.ext_getElem?
    intro i
    rw [Array.getElem?_modify]
    split
    · rename_i heq
      subst heq
      cases hq : s.parsers[p]? with
      | none => rfl
      | some q => rw [Option.map_some, h q hq]
    · rfl
  simp only [modifyParser, hparsers]

theorem moveParser_ok {s : Service} {p : ParserId} {q : Parser} {target : Stage}
    (hp : s.parser? p = some q) (hmay : q.stage.successors.contains target = true) :
    s.moveParser p target
      = .ok ((s.modifyParser p ({ · with stage := target })).write
        (q.transitionRecord target)) := by
  have hmove : q.moveTo target = .ok { q with stage := target } := by
    rw [Parser.moveTo, if_pos hmay]
  simp only [moveParser, hp, hmove]
  rw [modifyParser_congr hp (g := ({ · with stage := target })) rfl]

theorem moveParser_error {s : Service} {p : ParserId} {q : Parser} {target : Stage}
    (hp : s.parser? p = some q) (hmay : q.stage.successors.contains target = false) :
    s.moveParser p target = .error (.ofText .badTransition
      (q.name ++ " cannot move from " ++ q.stage.name ++ " to " ++ target.name)) := by
  have hmove : q.moveTo target = .error (.ofText .badTransition
      (q.name ++ " cannot move from " ++ q.stage.name ++ " to " ++ target.name)) := by
    rw [Parser.moveTo, if_neg (Bool.eq_false_iff.mp hmay)]
  simp only [moveParser, hp, hmove]

theorem disposable {q : Parser} (h : ¬(q.isDisposed = true)) :
    q.stage.successors.contains .disposed = true := by
  cases hstage : q.stage with
  | disposed => exact absurd (decide_eq_true hstage) h
  | uninitialized => rfl
  | initializing => rfl
  | initialized => rfl

/-- Disposing of a parser is one change. -/
theorem disposeParser_quiet (s : Service) (p : ParserId) :
    Quiet (s.modifyParser p Parser.retire) (s.disposeParser p) := by
  rw [disposeParser]
  cases hp : s.parser? p with
  | none =>
    rw [modifyParser_eq_self fun q hq => by rw [hp] at hq; cases hq]
    exact .refl s
  | some q =>
    by_cases hdisposed : q.isDisposed = true
    · rw [modifyParser_eq_self fun q' hq' => by
        rw [hp, Option.some.injEq] at hq'
        subst hq'
        rw [Parser.retire, if_pos hdisposed]]
      simp only [hdisposed, if_true]
      exact .refl s
    · simp only [hdisposed, moveParser_ok hp (disposable hdisposed)]
      by_cases hinit : q.isInitialized = true
      -- the log is written between the two halves of the change, which makes no difference
      · have hretire : q.retire = ({ q with stage := .disposed } : Parser).releaseEngine := by
          rw [Parser.retire, if_neg hdisposed, if_pos hinit]
        rw [modifyParser_congr hp
          (g := fun q => ({ q with stage := .disposed } : Parser).releaseEngine)
          hretire, ← modifyParser_modifyParser]
        simp only [hinit, if_true]
        exact ((Quiet.write _ _).trans (.write _ _)).modifyParser p _
      · have hretire : q.retire = { q with stage := .disposed } := by
          rw [Parser.retire, if_neg hdisposed, if_neg hinit]
        rw [modifyParser_congr hp (g := ({ · with stage := .disposed })) hretire]
        simp only [hinit]
        exact .write _ _

theorem disposeParser_changes (s : Service) (p : ParserId) : Changes s (s.disposeParser p) :=
  (Changes.change (.retire s p)).trans (Changes.quiet (disposeParser_quiet s p))

theorem disposeParser_moves (s : Service) (p : ParserId) (t : TaskId) (F : Footing) :
    Moves t (s, F) (s.disposeParser p, F) :=
  (Relation.ReflTransGen.single (.retire p)).tail (.quiet (disposeParser_quiet s p))

theorem disposed_of_disposeParser {s : Service} {p : ParserId} {q : Parser}
    (h : (s.disposeParser p).parser? p = some q) : q.stage = .disposed := by
  rw [(disposeParser_quiet s p).parser?, parser?_modifyParser, if_pos rfl,
    Option.map_eq_some_iff] at h
  obtain ⟨q', -, rfl⟩ := h
  exact Parser.stage_retire q'

theorem size_disposeParser (s : Service) (p : ParserId) :
    (s.disposeParser p).parsers.size = s.parsers.size := by
  rw [(disposeParser_quiet s p).parsers, modifyParser, Array.size_modify]

theorem registries_disposeParser (s : Service) (p : ParserId) :
    (s.disposeParser p).registries = s.registries := (disposeParser_quiet s p).registries

/-! ## Registries -/

/-- **Taking a language out.** Its parser is disposed of, then the entry is removed. `unregister`
has the other order, which comes to the same service: the two touch different things. In this order
the removal finds the parser gone, as `Change.remove` asks. -/
theorem unregister_changes (s : Service) (r : RegistryId) (language : String) :
    Changes s (s.unregister r language).1 := by
  rw [unregister]
  cases hremove : (s.registries[r]?).bind (·.remove? language) with
  | none => exact .refl
  | some found =>
    obtain ⟨g', config, parser⟩ := found
    obtain ⟨g, hg, hremove⟩ := Option.bind_eq_some_iff.mp hremove
    cases parser with
    | none =>
      refine (Changes.change (.remove hg hremove fun p q hp => ?_)).trans
        (Changes.quiet (Quiet.note _ _ _ _))
      cases hp
    | some p =>
      -- the removal is stated for the service in which the parser is retired already
      have hretired : ∀ p' q, some p = some p' →
          (s.modifyParser p Parser.retire).parser? p' = some q → q.stage = .disposed := by
        intro p' q hp' hq
        rw [Option.some.injEq] at hp'
        subst hp'
        rw [parser?_modifyParser, if_pos rfl, Option.map_eq_some_iff] at hq
        obtain ⟨q', -, rfl⟩ := hq
        exact Parser.stage_retire q'
      have hremoved : Change (s.modifyParser p Parser.retire)
          ((s.modifyParser p Parser.retire).modifyRegistry r fun _ => g') :=
        .remove hg hremove hretired
      exact ((Changes.change (.retire s p)).trans (Changes.change hremoved)).trans
        (Changes.quiet ((disposeParser_quiet (s.modifyRegistry r fun _ => g') p).trans
          (Quiet.note _ _ _ _)))

/-- A language that was taken out is not found any more, whether it had been there or not. -/
theorem languages_unregister {s : Service} {r : RegistryId} {language : String} {g : Registry}
    (hg : (s.unregister r language).1.registries[r]? = some g) :
    Assoc.get? g.languages (Text.caseFold language) = none := by
  rw [unregister] at hg
  cases hremove : (s.registries[r]?).bind (·.remove? language) with
  | none =>
    rw [hremove] at hg
    have hg : s.registries[r]? = some g := hg
    rw [hg, Option.bind_some, Registry.remove?] at hremove
    split at hremove
    · assumption
    · cases hremove
  | some found =>
    obtain ⟨g', config, parser⟩ := found
    rw [hremove] at hg
    obtain ⟨g₀, hg₀, hremove⟩ := Option.bind_eq_some_iff.mp hremove
    -- disposing of the parser leaves registries alone, so this is the one with the language taken
    -- out
    have hg' : g' = g := by
      have hmodified : (s.modifyRegistry r fun _ => g').registries[r]? = some g := by
        cases parser with
        | none => exact hg
        | some p => exact registries_disposeParser _ p ▸ hg
      rw [modifyRegistry, Array.getElem?_modify, if_pos rfl, hg₀] at hmodified
      exact Option.some.inj hmodified
    rw [Registry.remove?] at hremove
    split at hremove
    · cases hremove
    · simp only [Option.some.injEq, Prod.mk.injEq] at hremove
      rw [← hg', ← hremove.1, Assoc.get?_erase, if_pos rfl]

theorem replaceEarlier_changes (s : Service) (r : RegistryId) (config : LanguageConfig) :
    Changes s (s.replaceEarlier r config) := by
  rw [replaceEarlier]
  split
  · exact (Changes.quiet (Quiet.note _ _ _ _)).trans (unregister_changes _ r config.name)
  · exact .refl

theorem languages_replaceEarlier {s : Service} {r : RegistryId} {config : LanguageConfig}
    {g : Registry} (hg : (s.replaceEarlier r config).registries[r]? = some g) :
    Assoc.get? g.languages config.key = none := by
  rw [replaceEarlier] at hg
  split at hg
  · exact languages_unregister hg
  · rename_i habsent
    rw [hg, Option.any_some, Assoc.contains_eq_isSome] at habsent
    simpa using habsent

theorem noteAll_quiet (s : Service) (messages : List WideText) (level : Int) (logger : String) :
    Quiet s (messages.foldl (fun acc message => acc.noteData level logger (.ofWide message))
      s) := by
  induction messages generalizing s with
  | nil => exact .refl s
  | cons message rest ih => exact (Quiet.write _ _).trans (ih _)

/-- **Registering a language.** An earlier entry is taken out, then the new one is entered. -/
theorem register_changes (s : Service) (r : RegistryId) (config : LanguageConfig) :
    Changes s (s.register r config) :=
  ((replaceEarlier_changes s r config).trans
    (Changes.change (.enter fun _ => languages_replaceEarlier))).trans
    (Changes.quiet ((noteAll_quiet _ _ _ _).trans (Quiet.note _ _ _ _)))

theorem readTable_quiet (s : Service) (path : FilePath) : Quiet s (s.readTable path).1 := by
  rw [readTable]
  split
  · exact .refl s
  · split
    · exact .refl s
    · exact .note _ _ _ _
    · exact .refl s

theorem loadTable_changes (s : Service) (r : RegistryId) (path : FilePath) :
    Changes s (s.loadTable r path).1 := by
  rw [loadTable]
  split
  · exact .refl
  · split
    · rename_i read e hread
      exact Changes.quiet (by simpa [hread] using readTable_quiet s path)
    · rename_i read table hread
      have hquiet : Quiet s read := by simpa [hread] using readTable_quiet s path
      exact ((Changes.quiet hquiet).trans (Changes.change (.table read r path table))).trans
        (Changes.quiet (Quiet.note _ _ _ _))

theorem registerAll_changes (s : Service) (r : RegistryId) (configs : List LanguageConfig) :
    Changes s (configs.foldl (fun acc config => acc.register r config) s) := by
  induction configs generalizing s with
  | nil => exact .refl
  | cons config rest ih => exact (register_changes s r config).trans (ih _)

theorem newRegistry_changes (s : Service) (settings : Settings) (collector : CollectorId)
    (withTable : Bool) : Changes s (s.newRegistry settings collector withTable).1 := by
  have hmade := Changes.change (.found s settings collector)
  rw [newRegistry]
  split
  · exact hmade
  · have hloaded := hmade.trans (loadTable_changes _ s.registries.size
      (settings.languagesPath.getD builtinPath))
    split
    · rename_i loaded e hload
      rwa [hload] at hloaded
    · rename_i loaded table hload
      rw [hload] at hloaded
      exact hloaded.trans (registerAll_changes _ _ _)

/-! ## Disposing of a registry's parsers -/

theorem disposeAll_changes (s : Service) (parsers : List ParserId) :
    Changes s (parsers.foldl disposeParser s) := by
  induction parsers generalizing s with
  | nil => exact .refl
  | cons p rest ih => exact (disposeParser_changes s p).trans (ih _)

theorem size_disposeAll (s : Service) (parsers : List ParserId) :
    (parsers.foldl disposeParser s).parsers.size = s.parsers.size := by
  induction parsers generalizing s with
  | nil => rfl
  | cons p rest ih => rw [List.foldl_cons, ih, size_disposeParser]

theorem registries_disposeAll (s : Service) (parsers : List ParserId) :
    (parsers.foldl disposeParser s).registries = s.registries := by
  induction parsers generalizing s with
  | nil => rfl
  | cons p rest ih => rw [List.foldl_cons, ih, registries_disposeParser]

theorem disposed_of_disposeAll {s : Service} {parsers : List ParserId} {p : ParserId} {q : Parser}
    (hp : p ∈ parsers) (hq : (parsers.foldl disposeParser s).parser? p = some q) :
    q.stage = .disposed := by
  induction parsers generalizing s with
  | nil => simp at hp
  | cons first rest ih =>
    rcases List.mem_cons.mp hp with rfl | hrest
    · -- disposed of at once, and so ever after
      have hlt : p < (s.disposeParser p).parsers.size := by
        rw [← size_disposeAll (s.disposeParser p) rest]
        exact (Array.getElem?_eq_some_iff.mp hq).1
      have hthen : (s.disposeParser p).parser? p = some ((s.disposeParser p).parsers[p]) :=
        Array.getElem?_eq_getElem hlt
      obtain ⟨q', hq', hlater⟩ := (disposeAll_changes (s.disposeParser p) rest).later p _ hthen
      rw [List.foldl_cons, hq', Option.some.injEq] at hq
      exact hq ▸ hlater.disposed (disposed_of_disposeParser hthen)
    · exact ih hrest hq

theorem disposeRegistry_changes (s : Service) (r : RegistryId) :
    Changes s (s.disposeRegistry r) := by
  rw [disposeRegistry]
  split
  · exact .refl
  · rename_i g hg
    -- disposing of parsers does not touch registries, so it is the same registry that forgets
    have hg' : (g.parsers.values.foldl disposeParser s).registries[r]? = some g := by
      rw [registries_disposeAll, hg]
    exact (disposeAll_changes s _).trans
      (Changes.change (.forget hg' fun p hp q hq => disposed_of_disposeAll hp hq))

end Service

end SyntaxForest
