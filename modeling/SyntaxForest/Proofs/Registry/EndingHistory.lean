import SyntaxForest.Proofs.Service.Steady

/-!
# Endings and the history of a registry

A registry starts with the languages of its table, and from then on callers register and unregister
languages, while tasks ask it for parsers. Which language an ending belongs to is told by the
registrations and removals alone.

* **`Service.Action.edit?`** — what an action does to the languages of a registry.
* **`records_after`** — whatever else happens, the tables of a registry are what its edits make of
  them.
* **`endings_follow_history`** — an ending belongs to the language that listed it last, until that
  language is taken out or registered anew.
* **`ending_recognized_iff`** — so an ending that a known language lists is recognized unless
  another language has listed it later and is gone, or has come back without it.
-/

namespace SyntaxForest

namespace Service

variable {s : Service} {r : RegistryId} {g : Registry} {settings : Settings} {withTable : Bool}

/-! ## A new registry -/

/-- The languages that a new registry starts with. -/
def firstLanguages (s : Service) (settings : Settings) (withTable : Bool) : List LanguageConfig :=
  if withTable then (s.readTable (settings.languagesPath.getD builtinPath)).2.toOption.getD
    [] else []

theorem made_of_readTable {path : FilePath} {table : List LanguageConfig}
    (h : (s.readTable path).2 = .ok table) : ∀ config ∈ table, config.Made := by
  rw [readTable] at h
  split at h
  · cases h
  · split at h
    · cases h
    · cases h
    · exact LanguageTable.made_of_ofDocument h

theorem made_of_firstLanguages
    {config : LanguageConfig} (h : config ∈ s.firstLanguages settings withTable) : config.Made := by
  rw [firstLanguages] at h
  split at h
  · cases htable : (s.readTable (settings.languagesPath.getD builtinPath)).2 with
    | error e =>
      rw [htable] at h
      cases h
    | ok table =>
      rw [htable] at h
      exact made_of_readTable htable config h
  · cases h

theorem readTable_push (s : Service) (g : Registry) (path : FilePath) :
    (({ s with registries := s.registries.push g } : Service).readTable path).2
      = (s.readTable path).2 := by
  have htext : ({ s with registries := s.registries.push g } : Service).configText path
      = s.configText path := rfl
  rw [readTable, readTable, htext]
  split
  · rfl
  · split <;> rfl

theorem registry_register (hg : s.registries[r]? = some g) (config : LanguageConfig) :
    (s.register r config).registries[r]? = some (g.edit (.register config)) := by
  rw [registries_register, Array.getElem?_modify, if_pos rfl, hg]
  rfl

theorem registry_unregister (hg : s.registries[r]? = some g) (language : String) :
    (s.unregister r language).1.registries[r]? = some (g.edit (.unregister language)) := by
  rw [registries_unregister, Array.getElem?_modify, if_pos rfl, hg]
  rfl

theorem registerAll_records {history : List Edit}
    (hg : s.registries[r]? = some g) (hrecords : g.Records history)
    (configs : List LanguageConfig) :
    ∃ g', (configs.foldl (fun acc config => acc.register r config) s).registries[r]? = some g'
      ∧ g'.Records (history ++ configs.map .register) := by
  induction configs generalizing s g history with
  | nil => exact ⟨g, hg, by simpa using hrecords⟩
  | cons config rest ih =>
    obtain ⟨g', hg', hrecords'⟩ :=
      ih (registry_register hg config) (hrecords.edit (.register config))
    refine ⟨g', hg', ?_⟩
    rwa [List.append_assoc] at hrecords'

theorem loadTable_of_unread {path : FilePath}
    (hg : s.registries[r]? = some g) (hunread : Assoc.get? g.tables path = none) :
    (s.loadTable r path).2 = (s.readTable path).2 := by
  rw [loadTable, hg, Option.bind_some, hunread]
  dsimp only
  split
  · rename_i read e heq
    rw [heq]
  · rename_i read table heq
    rw [heq]

/-- A new registry knows the languages of its table and no others. Its tables are empty at first,
and then the languages are registered in order. -/
theorem newRegistry_records {collector : CollectorId}
    (h : (s.newRegistry settings collector withTable).2 = .ok r) :
    ∃ g, (s.newRegistry settings collector withTable).1.registries[r]? = some g
      ∧ g.Records ((s.firstLanguages settings withTable).map .register) := by
  have hempty := Registry.Records.empty settings collector
  have hpushed : (s.registries.push { settings, collector })[s.registries.size]?
      = some { settings, collector } := by
    rw [Array.getElem?_push, if_pos rfl]
  rw [newRegistry] at h ⊢
  cases withTable with
  | false =>
    cases h
    exact ⟨_, hpushed, hempty⟩
  | true =>
    simp only [Bool.not_true, Bool.false_eq_true, if_false] at h ⊢
    -- loading the table writes it down in the registry but enters no language yet
    have hsteady := loadTable_steady
      { s with registries := s.registries.push { settings, collector } }
      s.registries.size (settings.languagesPath.getD builtinPath)
    have hread := (loadTable_of_unread hpushed rfl).trans
      (readTable_push s { settings, collector } (settings.languagesPath.getD builtinPath))
    split at h
    · cases h
    · rename_i loaded table heq
      cases h
      rw [heq] at hsteady hread
      obtain ⟨g, hg, hlanguages, hextensions⟩ := hsteady.tables hpushed
      have hfirst : s.firstLanguages settings true = table := by
        rw [firstLanguages, if_pos rfl, ← hread]
        rfl
      rw [hfirst]
      exact registerAll_records hg (hempty.congr hlanguages hextensions) table

/-! ## Runs -/

/-- What an action does to the languages of a registry. -/
def Action.edit? (r : RegistryId) : Service.Action → Option Edit
  | .register r' config => if r' = r then some (.register config) else none
  | .unregister r' language => if r' = r then some (.unregister language) else none
  | _ => none

/-- **One action.** It edits the registry, or it leaves the languages and the endings alone.
Registrations in other registries are among the latter. -/
theorem act_records {history : List Edit}
    (hg : s.registries[r]? = some g) (hrecords : g.Records history) (a : Service.Action) :
    ∃ g', (s.act a).registries[r]? = some g' ∧ g'.Records (history ++ (a.edit? r).toList) := by
  have hsteady : Steady s (s.act a) → a.edit? r = none →
      ∃ g', (s.act a).registries[r]? = some g' ∧ g'.Records (history ++ (a.edit? r).toList) := by
    intro hsteady hnone
    obtain ⟨g', hg', hlanguages, hextensions⟩ := hsteady.tables hg
    rw [hnone, Option.toList_none, List.append_nil]
    exact ⟨g', hg', hrecords.congr hlanguages hextensions⟩
  -- registrations edit one registry, and all else leaves the tables of all registries alone
  cases a with
  | register r' config =>
    by_cases hr : r' = r
    · subst hr
      refine ⟨_, registry_register hg config, ?_⟩
      rw [Action.edit?, if_pos rfl]
      exact hrecords.edit (.register config)
    · refine ⟨g, ?_, ?_⟩
      · rw [act, registries_register, Array.getElem?_modify, if_neg hr, hg]
      · rw [Action.edit?, if_neg hr, Option.toList_none, List.append_nil]
        exact hrecords
  | unregister r' language =>
    by_cases hr : r' = r
    · subst hr
      refine ⟨_, registry_unregister hg language, ?_⟩
      rw [Action.edit?, if_pos rfl]
      exact hrecords.edit (.unregister language)
    · refine ⟨g, ?_, ?_⟩
      · rw [act, registries_unregister, Array.getElem?_modify, if_neg hr, hg]
      · rw [Action.edit?, if_neg hr, Option.toList_none, List.append_nil]
        exact hrecords
  | setEvent event => exact ⟨g, hg, by simpa [Action.edit?] using hrecords⟩
  | clearEvent event => exact ⟨g, hg, by simpa [Action.edit?] using hrecords⟩
  | _ => exact hsteady (act_steady s rfl) rfl

/-- The edits of a registry: the languages that it started with, and what was done to it later. -/
def editsOf (s : Service) (settings : Settings) (withTable : Bool) (r : RegistryId)
    (more : List Service.Action) :
    List Edit :=
  (s.firstLanguages settings withTable).map .register ++ more.filterMap (Action.edit? r)

/-- **The tables of a registry are what its edits make of them**, whatever else happens. The
induction is on what happens after the registry was made. -/
theorem records_after {run : List Service.Action} {collector : CollectorId}
    (hnew : ((after run).newRegistry settings collector withTable).2 = .ok r)
    (more : List Service.Action) :
    ∃ g, (after (run ++ .newRegistry settings collector withTable :: more)).registries[r]? = some g
      ∧ g.Records ((after run).editsOf settings withTable r more) := by
  induction more using List.reverseRecOn with
  | nil =>
    obtain ⟨g, hg, hrecords⟩ := newRegistry_records hnew
    refine ⟨g, ?_, by simpa [editsOf] using hrecords⟩
    rw [after_concat]
    exact hg
  -- the last action adds its edit to the history, if it is one of this registry
  | append_singleton more a ih =>
    obtain ⟨g, hg, hrecords⟩ := ih
    obtain ⟨g', hg', hrecords'⟩ := act_records hg hrecords a
    refine ⟨g', ?_, ?_⟩
    · rw [← List.cons_append, ← List.append_assoc, after_concat]
      exact hg'
    · rw [editsOf, List.filterMap_append, ← List.append_assoc]
      have hlast : [a].filterMap (Action.edit? r) = (a.edit? r).toList := by
        cases h : Action.edit? r a <;> simp [h]
      rw [hlast]
      exact hrecords'

/-- If all that is registered by callers is made from records, so is all that the registry has ever
seen. -/
theorem made_of_editsOf
    {more : List Service.Action} (hmade : ∀ config, .register r config ∈ more → config.Made)
    {config : LanguageConfig} (h : .register config ∈ s.editsOf settings withTable r more) :
    config.Made := by
  rcases List.mem_append.mp h with hfirst | hlater
  · obtain ⟨config', hconfig', heq⟩ := List.mem_map.mp hfirst
    cases heq
    exact made_of_firstLanguages hconfig'
  · obtain ⟨a, ha, hedit⟩ := List.mem_filterMap.mp hlater
    cases a with
    | register r' config' =>
      rw [Action.edit?] at hedit
      split at hedit
      · rename_i hr
        cases hedit
        exact hmade config (hr ▸ ha)
      · cases hedit
    | unregister r' language =>
      rw [Action.edit?] at hedit
      split at hedit <;> cases hedit
    | _ => cases hedit

end Service

/-! ## Looking an ending up -/

/-- What callers may rely on about the endings of a registry that has seen these edits. Nothing but
the edits is mentioned: neither the tables that the registry keeps nor what its parsers are at. -/
structure EndingLaw (g : Registry) (history : List Edit) : Prop where
  /-- An ending belongs to the language that listed it last and has neither been taken out nor
  registered anew. -/
  found : ∀ e name, g.languageOfExtension (some e) = .ok (some name)
    ↔ e.spelling ≠ "" ∧ ∃ config, config.name = name ∧ Owns history (LanguageConfig.kept e) config
  /-- Every other ending belongs to none; looking up is never a fault. -/
  answered : ∀ e, ∃ answer, g.languageOfExtension e = .ok answer
  owned : ∀ e key, (e, key) ∈ g.extensions →
    ∃ entry, (key, entry) ∈ g.languages ∧ e ∈ entry.config.extensions
  ofFile : ∀ (s : Service) path, (s.languageOfFile g path).2
    = g.languageOfExtension (some (path.respell fun text => (FilePath.ofText text).ending))
  distinct : (g.languageNames.map Text.caseFold).Nodup

/-- Tables that agree with the edits give the answers that the law asks for. -/
theorem Registry.Records.endingLaw {g : Registry} {history : List Edit} (h : g.Records history)
    (hmade : ∀ config, .register config ∈ history → config.Made) : EndingLaw g history := by
  refine ⟨fun e name => ?_, fun e => ?_, fun e key hmem => ?_, fun s path => ?_, h.nodup_names⟩
  -- an empty ending is answered without a look at the tables
  · rw [h.languageOfExtension_eq hmade]
    split
    · rename_i hempty
      constructor
      · intro hname
        cases hname
      · exact fun hname => absurd hempty hname.1
    · rename_i hsome
      rw [h.ownerOf_eq_some]
      exact ⟨fun howner => ⟨hsome, howner⟩, fun howner => howner.2⟩
  · cases e with
    | none => exact ⟨none, rfl⟩
    | some e =>
      rcases h.languageOfExtension_cases hmade e with ⟨config, -, hfound⟩ | hnone
      · exact ⟨_, hfound⟩
      · exact ⟨none, hnone⟩
  · obtain ⟨entry, hentry, hlists⟩ := h.owned (Assoc.get?_of_mem h.extensionKeys hmem)
    exact ⟨entry, Assoc.mem_of_get? hentry, hlists⟩
  · rw [← h.languageOfFile_eq hmade, Service.languageOfFile]
    split
    · rename_i hnone
      exact hnone.symm
    · rfl

/-- **Endings follow the history.** In every run, and whatever tasks do meanwhile, a registry
answers for an ending what its own registrations and removals say, the languages of its table being
registered first. -/
theorem endings_follow_history (run more : List Service.Action) {settings : Settings}
    {collector : CollectorId} {withTable : Bool} {r : RegistryId}
    (hnew : ((Service.after run).newRegistry settings collector withTable).2 = .ok r)
    (hmade : ∀ config, .register r config ∈ more → config.Made) :
    ∃ g, (Service.after (run ++ .newRegistry settings collector withTable :: more)).registries[r]?
      = some g
      ∧ EndingLaw g ((Service.after run).editsOf settings withTable r more) := by
  obtain ⟨g, hg, hrecords⟩ := Service.records_after hnew more
  exact ⟨g, hg, hrecords.endingLaw fun config hconfig => Service.made_of_editsOf hmade hconfig⟩

/-- Two languages share an ending, which the first one loses and the second one takes with it. -/
def sharedEnding : List Service.Action :=
  [.register 0 (.ofTexts "C" ["c", " .H "]), .register 0 (.ofTexts "D" ["h", "d"]),
    .unregister 0 "d"]

theorem made_of_sharedEnding {config : LanguageConfig} (h : .register 0 config ∈ sharedEnding) :
    config.Made := by
  simp only [sharedEnding, List.mem_cons, Service.Action.register.injEq, reduceCtorEq,
    List.not_mem_nil, true_and,
    or_false] at h
  rcases h with rfl | rfl
  · exact LanguageConfig.made_ofTexts
      (Schema.nonEmptyText_of_unmarked (by decide) (by decide) (by decide)) _
  · exact LanguageConfig.made_ofTexts
      (Schema.nonEmptyText_of_unmarked (by decide) (by decide) (by decide)) _

/-- The law at a registry that has seen three edits. -/
theorem endings_follow_history_shared :
    ∃ g, (Service.after (.newRegistry {} 0 false :: sharedEnding)).registries[0]? = some g
      ∧ EndingLaw g [.register (.ofTexts "C" ["c", " .H "]), .register (.ofTexts "D" ["h", "d"]),
        .unregister "d"] :=
  endings_follow_history [] sharedEnding rfl fun _ => made_of_sharedEnding

/-! ## Endings that known languages list -/

/-- The registration was the last one to list the ending, and its language has been taken out or
registered anew. -/
def Lapsed (history : List Edit) (e : WideText) (config : LanguageConfig) : Prop :=
  e ∈ config.extensions ∧ ∃ before after, history = before ++ .register config :: after
    ∧ (∀ edit ∈ after, ¬edit.Lists e) ∧ ∃ edit ∈ after, edit.key = config.key

/-- If the ending was ever listed, there is a last registration that lists it. -/
theorem exists_last_listing {history : List Edit} {e : WideText}
    (h : ∃ edit ∈ history, edit.Lists e) :
    ∃ before config after, history = before ++ .register config :: after ∧ e ∈ config.extensions
      ∧ ∀ edit ∈ after, ¬edit.Lists e := by
  induction history with
  | nil =>
    obtain ⟨edit, hedit, -⟩ := h
    cases hedit
  | cons first rest ih =>
    by_cases hrest : ∃ edit ∈ rest, edit.Lists e
    · obtain ⟨before, config, after, rfl, hconfig⟩ := ih hrest
      exact ⟨first :: before, config, after, rfl, hconfig⟩
    · obtain ⟨edit, hedit, hlists⟩ := h
      rcases List.mem_cons.mp hedit with rfl | hmem
      · cases edit with
        | register config =>
          exact ⟨[], config, rest, rfl, hlists, fun other hother hlists' =>
            hrest ⟨other, hother, hlists'⟩⟩
        | unregister language => exact absurd hlists id
      · exact absurd ⟨edit, hmem, hlists⟩ hrest

theorem owns_or_lapsed {history : List Edit} {e : WideText} (h : ∃ edit ∈ history, edit.Lists e) :
    (∃ config, Owns history e config) ∨ ∃ config, Lapsed history e config := by
  obtain ⟨before, config, after, heq, hlists, hlast⟩ := exists_last_listing h
  by_cases hgone : ∃ edit ∈ after, edit.key = config.key
  · exact Or.inr ⟨config, hlists, before, after, heq, hlast, hgone⟩
  · refine Or.inl ⟨config, hlists, before, after, heq, fun edit hedit => ?_⟩
    rintro (hlists' | hkey)
    · exact hlast edit hedit hlists'
    · exact hgone ⟨edit, hedit, hkey⟩

theorem not_lapsed_of_owns {history : List Edit} {e : WideText} {config config' : LanguageConfig}
    (howns : Owns history e config) : ¬Lapsed history e config' := by
  rintro ⟨hlists', before', after', heq', hlast', edit, hedit, hkey⟩
  obtain ⟨hlists, before, after, heq, hafter⟩ := howns
  rcases places_cases (heq.symm.trans heq') with ⟨hsame, rfl⟩ | hmem | hmem
  · cases hsame
    exact hafter edit hedit (Or.inr hkey)
  · exact hafter _ hmem (Or.inl hlists')
  · exact hlast' _ hmem hlists

theorem key_ne_of_lapsed {history : List Edit} {e : WideText} {config config' : LanguageConfig}
    (hstands : Stands history config) (hlists : e ∈ config.extensions)
    (hlapsed : Lapsed history e config') :
    config'.key ≠ config.key := by
  obtain ⟨-, before', after', heq', hlast', edit, hedit, hkey⟩ := hlapsed
  obtain ⟨before, after, heq, hafter⟩ := hstands
  rcases places_cases (heq.symm.trans heq') with ⟨hsame, rfl⟩ | hmem | hmem
  · cases hsame
    exact absurd hkey (hafter edit hedit)
  · exact hafter _ hmem
  · exact absurd hlists (hlast' _ hmem)

namespace Registry

/-- The ending is found to belong to a language that is known and lists it. -/
def Recognizes (g : Registry) (e : WideText) : Prop :=
  ∃ name, g.languageOfExtension (some e) = .ok (some name) ∧ g.isSupported (some name) = true
    ∧ e ∈ g.extensionsOf (some name)

namespace Records

variable {g : Registry} {history : List Edit}

theorem stands_of_extensionsOf (h : g.Records history) {language : String} {e : WideText}
    (he : e ∈ g.extensionsOf (some language)) :
    ∃ config, config.key = Text.caseFold language ∧ Stands history config
      ∧ e ∈ config.extensions := by
  rw [extensionsOf] at he
  split at he
  · cases he
  · cases hconfig : g.find? language with
    | none =>
      rw [hconfig] at he
      cases he
    | some config =>
      rw [hconfig] at he
      obtain ⟨hkey, hstands⟩ := h.languages.mp hconfig
      exact ⟨config, hkey, hstands, he⟩

theorem recognizes_of_owns (h : g.Records history)
    (hmade : ∀ config, .register config ∈ history → config.Made) {e : WideText}
    {config : LanguageConfig} (howns : Owns history e config) : g.Recognizes e := by
  have hconfig := made_of_owns hmade howns
  have hname : config.name ≠ "" := hconfig.fields.1
  have hfind : g.find? config.name = some config := h.languages.mpr ⟨rfl, howns.stands⟩
  refine ⟨config.name, ?_, ?_, ?_⟩
  · rw [h.languageOfExtension_eq hmade, if_neg (hconfig.extension_ne howns.1),
      hconfig.kept_eq howns.1]
    exact h.ownerOf_of_owns howns
  · obtain ⟨entry, hentry, -⟩ := Option.map_eq_some_iff.mp hfind
    simp [isSupported, hname, Assoc.contains_eq_isSome, hentry]
  · rw [extensionsOf, if_neg hname, hfind]
    exact howns.1

theorem owns_of_recognizes (h : g.Records history)
    (hmade : ∀ config, .register config ∈ history → config.Made) {e : WideText}
    (hkept : LanguageConfig.kept e = e) (hrecognizes : g.Recognizes e) :
    ∃ config, Owns history e config := by
  obtain ⟨name, hname, -⟩ := hrecognizes
  rw [h.languageOfExtension_eq hmade, hkept] at hname
  split at hname
  · cases hname
  · obtain ⟨config, -, howns⟩ := h.ownerOf_eq_some.mp hname
    exact ⟨config, howns⟩

/-- **An ending that a known language lists** is recognized unless another language has let it
lapse. -/
theorem recognizes_iff (h : g.Records history)
    (hmade : ∀ config, .register config ∈ history → config.Made) {language : String} {e : WideText}
    (he : e ∈ g.extensionsOf (some language)) :
    g.Recognizes e ↔ ¬∃ config, config.key ≠ Text.caseFold language ∧ Lapsed history e config := by
  obtain ⟨config, hkey, hstands, hlists⟩ := h.stands_of_extensionsOf he
  have hkept : LanguageConfig.kept e = e := (hmade config hstands.mem).kept_eq hlists
  constructor
  · rintro hrecognizes ⟨config', -, hlapsed⟩
    obtain ⟨config'', howns⟩ := h.owns_of_recognizes hmade hkept hrecognizes
    exact not_lapsed_of_owns howns hlapsed
  · intro hnone
    rcases owns_or_lapsed ⟨.register config, hstands.mem, hlists⟩ with ⟨config', howns⟩
      | ⟨config', hlapsed⟩
    · exact h.recognizes_of_owns hmade howns
    · exact absurd ⟨config', hkey ▸ key_ne_of_lapsed hstands hlists hlapsed, hlapsed⟩ hnone

theorem not_found_of_not_recognizes (h : g.Records history)
    (hmade : ∀ config, .register config ∈ history → config.Made) {e : WideText}
    (hkept : LanguageConfig.kept e = e) (hnot : ¬g.Recognizes e) :
    g.languageOfExtension (some e) = .ok none := by
  rcases h.languageOfExtension_cases hmade e with ⟨config, howns, -⟩ | hnone
  · rw [hkept] at howns
    exact absurd (h.recognizes_of_owns hmade howns) hnot
  · exact hnone

end Records

end Registry

/-- **Endings are recognized until they lapse.** An ending that a known language lists is found to
belong to a known language that lists it, unless another language was the last one to list it and
has been taken out or registered anew since; then it is found to belong to none. -/
theorem ending_recognized_iff (run more : List Service.Action) {settings : Settings}
    {collector : CollectorId} {withTable : Bool} {r : RegistryId}
    (hnew : ((Service.after run).newRegistry settings collector withTable).2 = .ok r)
    (hmade : ∀ config, .register r config ∈ more → config.Made) :
    ∃ g, (Service.after (run ++ .newRegistry settings collector withTable :: more)).registries[r]?
      = some g
      ∧ ∀ language e, g.isSupported (some language) = true → e ∈ g.extensionsOf (some language) →
        (g.Recognizes e ↔ ¬∃ config, config.key ≠ Text.caseFold language
            ∧ Lapsed ((Service.after run).editsOf settings withTable r more) e config)
          ∧ (¬g.Recognizes e → g.languageOfExtension (some e) = .ok none) := by
  obtain ⟨g, hg, hrecords⟩ := Service.records_after hnew more
  have hall : ∀ config, .register config ∈ (Service.after run).editsOf settings withTable r more →
      config.Made :=
    fun config hconfig => Service.made_of_editsOf hmade hconfig
  refine ⟨g, hg, fun language e _ he => ⟨hrecords.recognizes_iff hall he, fun hnot => ?_⟩⟩
  obtain ⟨config, -, hstands, hlists⟩ := hrecords.stands_of_extensionsOf he
  exact hrecords.not_found_of_not_recognizes hall ((hall config hstands.mem).kept_eq hlists) hnot

theorem registry_of_sharedEnding :
    ∃ g, (Service.after (.newRegistry {} 0 false :: sharedEnding)).registries[0]? = some g
      ∧ g.isSupported (some "C") = true ∧ g.extensionsOf (some "C") = [⟨".c"⟩, ⟨".h"⟩]
      ∧ (g.languageOfExtension (some ⟨".h"⟩)).toOption = some none := by
  have hnew : ((Service.after []).newRegistry {} 0 false).2 = .ok 0 := rfl
  obtain ⟨g, hg, -⟩ := Service.records_after hnew sharedEnding
  have hanswers : ((Service.after (.newRegistry {} 0 false :: sharedEnding)).registries[0]?).all
      (fun g =>
      g.isSupported (some "C") && decide (g.extensionsOf (some "C") = [⟨".c"⟩, ⟨".h"⟩])
        && decide ((g.languageOfExtension (some ⟨".h"⟩)).toOption = some none)) = true := by
    decide +kernel
  have hg' : (Service.after (.newRegistry {} 0 false :: sharedEnding)).registries[0]? = some g := hg
  rw [hg', Option.all_some, Bool.and_eq_true, Bool.and_eq_true, decide_eq_true_eq,
    decide_eq_true_eq] at hanswers
  exact ⟨g, hg', hanswers.1.1, hanswers.1.2, hanswers.2⟩

/-- The first language still lists the ending, and nobody finds it any more. -/
theorem ending_unrecognized_after_removal :
    ∃ g, (Service.after (.newRegistry {} 0 false :: sharedEnding)).registries[0]? = some g
      ∧ g.isSupported (some "C") = true ∧ ⟨".h"⟩ ∈ g.extensionsOf (some "C")
      ∧ g.languageOfExtension (some ⟨".h"⟩) = .ok none ∧ ¬g.Recognizes ⟨".h"⟩ := by
  obtain ⟨g, hg, hsupported, hextensions, hanswer⟩ := registry_of_sharedEnding
  have hnone : g.languageOfExtension (some ⟨".h"⟩) = .ok none := by
    cases hresult : g.languageOfExtension (some ⟨".h"⟩) with
    | ok answer =>
      rw [hresult] at hanswer
      exact congrArg Except.ok (Option.some.inj hanswer)
    | error e =>
      rw [hresult] at hanswer
      cases hanswer
  refine ⟨g, hg, hsupported, ?_, hnone, ?_⟩
  · rw [hextensions]
    decide
  · rintro ⟨name, hname, -⟩
    rw [hnone] at hname
    cases hname

/-- The law at the registry of two languages with a shared ending. -/
theorem ending_recognized_iff_shared :
    ∃ g, (Service.after (.newRegistry {} 0 false :: sharedEnding)).registries[0]? = some g
      ∧ g.isSupported (some "C") = true ∧ ⟨".h"⟩ ∈ g.extensionsOf (some "C")
      ∧ (g.Recognizes ⟨".h"⟩ ↔ ¬∃ config, config.key ≠ "c"
        ∧ Lapsed [.register (.ofTexts "C" ["c", " .H "]),
        .register (.ofTexts "D" ["h", "d"]), .unregister "d"] ⟨".h"⟩ config) := by
  have hnew : ((Service.after []).newRegistry {} 0 false).2 = .ok 0 := rfl
  obtain ⟨g, hg, hlaw⟩ := ending_recognized_iff [] sharedEnding hnew fun _ => made_of_sharedEnding
  obtain ⟨g', hg', hsupported, hextensions, -⟩ := registry_of_sharedEnding
  have hsame : g = g' := Option.some.inj (hg.symm.trans hg')
  subst hsame
  have hlisted : ⟨".h"⟩ ∈ g.extensionsOf (some "C") := by
    rw [hextensions]
    decide
  exact ⟨g, hg, hsupported, hlisted, (hlaw "C" ⟨".h"⟩ hsupported hlisted).1⟩

end SyntaxForest
