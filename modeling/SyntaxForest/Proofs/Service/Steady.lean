import SyntaxForest.Proofs.Service.CallEffects

/-!
# What tasks leave alone

Tasks work on parsers. They set and clear no events, and whatever they do to registries, the
languages and the endings of those that are there stay as they are: only callers register and
unregister.

* **`Steady`** — events are the same, and so are the languages and the endings of every registry.
* **`Effects.steady`** — whoever may edit no registry that is there leaves all this alone.
* **`Service.act_steady`** — so does everything that happens to a service but setting and clearing
  events, registrations and removals.
-/

namespace SyntaxForest

/-- Tasks could have led from the one service to the other as far as events and languages are
concerned. -/
structure Steady (s s' : Service) : Prop where
  events : s'.events = s.events
  tables : ∀ {r : RegistryId} {g : Registry}, s.registries[r]? = some g →
    ∃ g', s'.registries[r]? = some g' ∧ g'.languages = g.languages ∧ g'.extensions = g.extensions

namespace Steady

variable {s s' : Service}

theorem of_same (hevents : s'.events = s.events) (hregistries : s'.registries = s.registries) :
    Steady s s' :=
  ⟨hevents, fun {_ g} hg => ⟨g, hregistries ▸ hg, rfl, rfl⟩⟩

theorem isSet (h : Steady s s') (event : Option String) : s'.isSet event = s.isSet event := by
  rw [Service.isSet, Service.isSet, h.events]

end Steady

/-! ## Effects on the tables of registries -/

/-- One effect leaves the languages and the endings of a registry alone, unless whoever has it may
edit that registry. Of the effects only adding a registry and changing one touch registries. -/
theorem Effect.tables {l : Leave} {marks : List EngineMark} {s s' : Service}
    (h : Effect l marks s s') {r : RegistryId} (hr : ¬l.edits r) {g : Registry}
    (hg : s.registries[r]? = some g) :
    ∃ g', s'.registries[r]? = some g' ∧ g'.languages = g.languages
      ∧ g'.extensions = g.extensions := by
  have hcount : ∀ (q : Parser) (change : Collector → Collector),
      (s.count q change).registries[r]? = some g :=
    fun q change => by
      rw [Service.count]
      split <;> exact hg
  cases h with
  | idle h => exact ⟨g, by rwa [h.registries], rfl, rfl⟩
  | time q language elapsed => exact ⟨g, hcount q _, rfl, rfl⟩
  | count q language elapsed success nodes => exact ⟨g, hcount q _, rfl, rfl⟩
  | change h => exact ⟨g, hg, rfl, rfl⟩
  | engage p => exact ⟨g, hg, rfl, rfl⟩
  | retire h => exact ⟨g, hg, rfl, rfl⟩
  | add h => exact ⟨g, hg, rfl, rfl⟩
  | found settings collector =>
    -- a registry that is added stands after those that are there
    have hlt := (Array.getElem?_eq_some_iff.mp hg).1
    refine ⟨g, ?_, rfl, rfl⟩
    show (s.registries.push _)[r]? = some g
    rw [Array.getElem?_push, if_neg (by omega), hg]
  | registry h =>
    rename_i r' change
    show ∃ g', (s.registries.modify r' change)[r]? = some g' ∧ _
    rw [Array.getElem?_modify]
    split
    · rename_i hsame
      -- it is not a registry that may be edited, so the change leaves its tables alone
      have htables := h.resolve_left fun hedits => hr (hsame ▸ hedits)
      exact ⟨change g, by rw [hg]; rfl, htables g⟩
    · exact ⟨g, hg, rfl, rfl⟩

/-- **Whoever may edit no registry that is there leaves events, languages and endings alone.** -/
theorem Effects.steady {l : Leave} {marks : List EngineMark} {s s' : Service}
    (h : Effects l marks s s') (hedits : ∀ r, l.edits r → s.registries.size ≤ r) : Steady s s' := by
  have htables : ∀ {r : RegistryId} {g : Registry}, ¬l.edits r → s.registries[r]? = some g →
      ∃ g', s'.registries[r]? = some g' ∧ g'.languages = g.languages
        ∧ g'.extensions = g.extensions := by
    -- induction over the effects; the leave stays the same, so each of them is a case of
    -- `Effect.tables`
    intro r g hr hg
    clear hedits
    induction h with
    | refl => exact ⟨g, hg, rfl, rfl⟩
    | tail _ hlast ih =>
      obtain ⟨g₁, hg₁, hlanguages, hextensions⟩ := ih hg
      obtain ⟨g₂, hg₂, hlanguages', hextensions'⟩ := hlast.tables hr hg₁
      exact ⟨g₂, hg₂, hlanguages'.trans hlanguages, hextensions'.trans hextensions⟩
  refine ⟨h.surroundings.1, fun {r g} hg => htables (fun hr => ?_) hg⟩
  have hlt := (Array.getElem?_eq_some_iff.mp hg).1
  have hle := hedits r hr
  omega

namespace Service

variable {t : TaskId}

theorem release_steady (s : Service) (id : LockId) : Steady s (s.release id) :=
  (release_effects (l := noLeave) s id).steady fun _ h => h.elim

theorem endWait_steady (s : Service) (t : TaskId) (wait : Wait) (signal : Signal) :
    Steady s (s.endWait t wait signal) :=
  (endWait_effects (l := noLeave) s t wait signal).steady fun _ h => h.elim

theorem beginInit_steady (s : Service) (p : ParserId) (event : Option String) :
    Steady s (s.beginInit t p event).1 :=
  (beginInit_effects (l := noLeave) s p event).steady fun _ h => h.elim

theorem resumeInit_steady (s : Service) (p : ParserId) (event : Option String) (point : InitPoint)
    (signal : Signal) : Steady s (s.resumeInit t p event point signal).1 :=
  (resumeInit_effects (l := noLeave) s p event point signal).steady fun _ h => h.elim

theorem loadTable_steady (s : Service) (r : RegistryId) (path : FilePath) :
    Steady s (s.loadTable r path).1 :=
  (loadTable_effects (l := noLeave) s r path).steady fun _ h => h.elim

theorem events_unregister (s : Service) (r : RegistryId) (language : String) :
    (s.unregister r language).1.events = s.events := by
  obtain ⟨marks, h, -⟩ := act_effects s (a := .unregister r language) rfl
  exact h.surroundings.1

theorem events_register (s : Service) (r : RegistryId) (config : LanguageConfig) :
    (s.register r config).events = s.events := by
  obtain ⟨marks, h, -⟩ := act_effects s (a := .register r config) rfl
  exact h.surroundings.1

/-! ## Actions -/

/-- Only events, registrations and removals are not steady. -/
def Action.isSteady : Service.Action → Bool
  | .register _ _ | .unregister _ _ | .setEvent _ | .clearEvent _ => false
  | _ => true

/-- **Nothing else changes events, languages or endings.** -/
theorem act_steady (s : Service) {a : Service.Action} (h : a.isSteady = true) :
    Steady s (s.act a) := by
  -- what happens inside of the service has effects; what comes from outside is looked at one by one
  cases houtside : a.isOutside with
  | false =>
    obtain ⟨marks, heffects, -⟩ := act_effects s houtside
    refine heffects.steady fun r hedits => ?_
    cases a with
    | register r' config => cases h
    | unregister r' language => cases h
    | newRegistry settings collector withTable => exact Nat.le_of_eq (Eq.symm hedits)
    | step t => exact Nat.le_of_eq (Eq.symm hedits)
    | _ => exact hedits.elim
  | true =>
    cases a with
    | setEvent event => cases h
    | clearEvent event => cases h
    | addCollector => exact .of_same rfl rfl
    | setEngine p engine => exact .of_same rfl rfl
    | setNative reply => exact .of_same rfl rfl
    | _ => cases houtside

end Service

end SyntaxForest
