import SyntaxForest.Proofs.Data.Assoc
import SyntaxForest.Proofs.Registry.Entries
import SyntaxForest.Registry.Basic

/-!
# Whose files end so

A registry keeps, for every ending of file names, the key of the language that it belongs to. What
it keeps can be told from the list of registrations and removals that the registry has seen.

* **`Edit`**, **`Registry.edit`** — a registration or a removal, and what it does to a registry.
* **`Stands`**, **`Owns`** — told by a list of edits alone: the registration still counts, and the
  ending is its.
* **`Records`** — the tables of the registry agree with a list of edits. **`Records.edit`** — one
  more edit keeps them in agreement.
* **`Records.ownerOf_eq_some`**, **`Records.languageOfExtension_eq`** — what looking up an ending
  comes to.
-/

namespace SyntaxForest

/-! ## Edits -/

/-- A change of the languages that a registry knows. -/
inductive Edit where
  | register (config : LanguageConfig)
  | unregister (language : String)

namespace Edit

/-- The key of the language that is entered or taken out. -/
def key : Edit → String
  | register config => config.key
  | unregister language => Text.caseFold language

/-- The edit is a registration that lists the ending. -/
def Lists (e : WideText) : Edit → Prop
  | register config => e ∈ config.extensions
  | unregister _ => False

end Edit

namespace Registry

/-- The registry without a language. -/
def without (g : Registry) (language : String) : Registry :=
  match g.remove? language with
  | some (smaller, _, _) => smaller
  | none => g

/-- The registry after an edit. -/
def edit (g : Registry) : Edit → Registry
  | .register config => (g.without config.name).enter config
  | .unregister language => g.without language

end Registry

/-! ## What a list of edits tells -/

/-- The entry was registered, and no edit of a certain kind has come after that. -/
def RegisteredSince (spoils : Edit → Prop) (history : List Edit) (config : LanguageConfig) : Prop :=
  ∃ before after, history = before ++ .register config :: after ∧ ∀ edit ∈ after, ¬spoils edit

/-- The entry counts: its language was neither taken out nor registered anew. -/
def Stands (history : List Edit) (config : LanguageConfig) : Prop :=
  RegisteredSince (fun edit => edit.key = config.key) history config

/-- The ending is the entry's: no later registration lists it, and the entry counts. -/
def Owns (history : List Edit) (e : WideText) (config : LanguageConfig) : Prop :=
  e ∈ config.extensions
    ∧ RegisteredSince (fun edit => edit.Lists e ∨ edit.key = config.key) history config

theorem not_registeredSince_nil {spoils : Edit → Prop} {config : LanguageConfig} :
    ¬RegisteredSince spoils [] config := by
  rintro ⟨before, after, h, -⟩
  cases before <;> cases h

/-- One more edit either registers the entry or leaves it alone. -/
theorem registeredSince_concat {spoils : Edit → Prop} {history : List Edit} {edit : Edit}
    {config : LanguageConfig} :
    RegisteredSince spoils (history ++ [edit]) config
      ↔ edit = .register config ∨ (RegisteredSince spoils history config ∧ ¬spoils edit) := by
  constructor
  · rintro ⟨before, after, heq, hafter⟩
    -- the registration is the last edit of all, or the last edit comes after it
    rcases List.eq_nil_or_concat after with rfl | ⟨after', last, rfl⟩
    · obtain ⟨-, hlast⟩ := List.append_inj' heq rfl
      exact Or.inl (List.cons.inj hlast).1
    · rw [List.concat_eq_append] at heq hafter
      rw [← List.cons_append, ← List.append_assoc] at heq
      obtain ⟨hhistory, hlast⟩ := List.append_inj' heq rfl
      cases hlast
      refine Or.inr ⟨⟨before, after', hhistory, fun other hother => ?_⟩, ?_⟩
      · exact hafter other (List.mem_append_left _ hother)
      · exact hafter edit (List.mem_append_right _ List.mem_cons_self)
  · rintro (rfl | ⟨⟨before, after, rfl, hafter⟩, hspoils⟩)
    · exact ⟨history, [], rfl, fun other hother => by cases hother⟩
    · refine ⟨before, after ++ [edit], by simp, fun other hother => ?_⟩
      rcases List.mem_append.mp hother with hother | hother
      · exact hafter other hother
      · rw [List.mem_singleton.mp hother]
        exact hspoils

theorem Owns.stands {history : List Edit} {e : WideText} {config : LanguageConfig}
    (h : Owns history e config) :
    Stands history config := by
  obtain ⟨-, before, after, heq, hafter⟩ := h
  exact ⟨before, after, heq, fun edit hedit hkey => hafter edit hedit (Or.inr hkey)⟩

theorem Stands.mem {history : List Edit} {config : LanguageConfig} (h : Stands history config) :
    .register config ∈ history := by
  obtain ⟨before, after, rfl, -⟩ := h
  exact List.mem_append_right _ List.mem_cons_self

theorem registeredSince_replace {spoils : Edit → Prop} {history : List Edit} {language : String}
    {entry config : LanguageConfig}
    (hspoils : spoils (.unregister language) → spoils (.register entry)) :
    RegisteredSince spoils (history ++ [.unregister language] ++ [.register entry]) config
      ↔ RegisteredSince spoils (history ++ [.register entry]) config := by
  rw [registeredSince_concat, registeredSince_concat, registeredSince_concat]
  constructor
  · rintro (heq | ⟨heq | ⟨hsince, -⟩, hnew⟩)
    · exact Or.inl heq
    · cases heq
    · exact Or.inr ⟨hsince, hnew⟩
  · rintro (heq | ⟨hsince, hnew⟩)
    · exact Or.inl heq
    · exact Or.inr ⟨Or.inr ⟨hsince, fun hold => hnew (hspoils hold)⟩, hnew⟩

/-! ## The tables of a registry after its edits -/

namespace Registry

theorem get?_claim (extensions : Assoc WideText String) (key : String) (wanted : List WideText)
    (e : WideText) :
    Assoc.get? (claim extensions key wanted) e
      = if e ∈ wanted then some key else Assoc.get? extensions e := by
  induction wanted generalizing extensions with
  | nil => rfl
  | cons first rest ih =>
    show Assoc.get? (claim (Assoc.set extensions first key) key rest) e = _
    rw [ih, Assoc.get?_set]
    by_cases hrest : e ∈ rest
    · rw [if_pos hrest, if_pos (List.mem_cons_of_mem first hrest)]
    · rw [if_neg hrest]
      by_cases hfirst : first = e
      · rw [if_pos hfirst, if_pos (hfirst ▸ List.mem_cons_self)]
      · rw [if_neg hfirst, if_neg fun h => ?_]
        rcases List.mem_cons.mp h with heq | hmem
        · exact hfirst heq.symm
        · exact hrest hmem

/-- Taking a language out takes the endings that it lists, but only those that are its own: another
language may have listed one of them later. -/
theorem get?_unclaim (extensions : Assoc WideText String) (key : String) (given : List WideText)
    (e : WideText) :
    Assoc.get? (unclaim extensions key given) e
      = if e ∈ given ∧ Assoc.get? extensions e = some key then none else Assoc.get?
        extensions e := by
  induction given generalizing extensions with
  | nil => simp [unclaim]
  | cons first rest ih =>
    show Assoc.get? (unclaim (if Assoc.get? extensions first = some key
      then Assoc.erase extensions first
      else extensions) key rest) e = _
    rw [ih]
    -- the first ending is the language's, and then it is erased, or it is somebody else's
    by_cases hfirst : Assoc.get? extensions first = some key
    · rw [if_pos hfirst, Assoc.get?_erase]
      by_cases he : first = e
      · subst he
        simp [hfirst]
      · have hmem : e ∈ first :: rest ↔ e ∈ rest := by
          rw [List.mem_cons]
          exact or_iff_right (Ne.symm he)
        simp only [if_neg he, hmem]
    · rw [if_neg hfirst]
      by_cases he : first = e
      · subst he
        simp [hfirst]
      · have hmem : e ∈ first :: rest ↔ e ∈ rest := by
          rw [List.mem_cons]
          exact or_iff_right (Ne.symm he)
        simp only [hmem]

theorem nodup_claim {extensions : Assoc WideText String} (h : (Assoc.keys extensions).Nodup)
    (key : String) (wanted : List WideText) : (Assoc.keys (claim extensions key wanted)).Nodup := by
  induction wanted generalizing extensions with
  | nil => exact h
  | cons first rest ih => exact ih (Assoc.nodup_keys_set h first key)

theorem nodup_unclaim {extensions : Assoc WideText String} (h : (Assoc.keys extensions).Nodup)
    (key : String) (given : List WideText) : (Assoc.keys (unclaim extensions key given)).Nodup := by
  induction given generalizing extensions with
  | nil => exact h
  | cons first rest ih =>
    apply ih
    dsimp only
    split
    · exact Assoc.nodup_keys_erase h first
    · exact h

/-- The tables of the registry are what the edits make of them. -/
structure Records (g : Registry) (history : List Edit) : Prop where
  languages : ∀ {key : String} {config : LanguageConfig},
    (Assoc.get? g.languages key).map (·.config) = some config ↔ config.key = key
      ∧ Stands history config
  extensions : ∀ {e : WideText} {key : String},
    Assoc.get? g.extensions e = some key ↔ ∃ config, config.key = key ∧ Owns history e config
  languageKeys : (Assoc.keys g.languages).Nodup
  extensionKeys : (Assoc.keys g.extensions).Nodup

namespace Records

variable {g g' : Registry} {history history' : List Edit}

theorem congr (h : g.Records history) (hlanguages : g'.languages = g.languages)
    (hextensions : g'.extensions = g.extensions) : g'.Records history := by
  constructor
  · rw [hlanguages]
    exact h.languages
  · rw [hextensions]
    exact h.extensions
  · rw [hlanguages]
    exact h.languageKeys
  · rw [hextensions]
    exact h.extensionKeys

theorem empty (settings : Settings) (collector : CollectorId) :
    ({ settings, collector } : Registry).Records [] := by
  refine ⟨?_, ?_, List.nodup_nil, List.nodup_nil⟩
  · intro key config
    constructor
    · intro h
      cases h
    · exact fun h => absurd h.2 not_registeredSince_nil
  · intro e key
    constructor
    · intro h
      cases h
    · rintro ⟨config, -, -, h⟩
      exact absurd h not_registeredSince_nil

theorem owned (h : g.Records history) {e : WideText} {key : String}
    (he : Assoc.get? g.extensions e = some key) :
    ∃ entry, Assoc.get? g.languages key = some entry ∧ e ∈ entry.config.extensions := by
  obtain ⟨config, hkey, howns⟩ := h.extensions.mp he
  obtain ⟨entry, hentry, rfl⟩ := Option.map_eq_some_iff.mp (h.languages.mpr ⟨hkey, howns.stands⟩)
  exact ⟨entry, hentry, howns.1⟩

/-! ### One more edit -/

theorem get?_languages_without (g : Registry) (language key : String) :
    Assoc.get? (g.without language).languages key
      = if Text.caseFold language = key then none else Assoc.get? g.languages key := by
  rw [Registry.without, Registry.remove?]
  cases hentry : Assoc.get? g.languages (Text.caseFold language) with
  | none =>
    show Assoc.get? g.languages key = _
    split
    · rename_i hkey
      rw [← hkey, hentry]
    · rfl
  | some entry => exact Assoc.get?_erase ..

/-- Taking a language out takes all endings that it has. Only listed endings are looked at, which is
enough since a language has no others. -/
theorem get?_extensions_without (h : g.Records history) (language : String) (e : WideText) :
    Assoc.get? (g.without language).extensions e
      = if Assoc.get? g.extensions e = some (Text.caseFold language) then none
        else Assoc.get? g.extensions e := by
  rw [Registry.without, Registry.remove?]
  cases hentry : Assoc.get? g.languages (Text.caseFold language) with
  | none =>
    show Assoc.get? g.extensions e = _
    split
    · rename_i howner
      -- an ending would belong to a language that the registry does not have
      obtain ⟨entry, hentry', -⟩ := h.owned howner
      rw [hentry] at hentry'
      cases hentry'
    · rfl
  | some entry =>
    show Assoc.get? (unclaim g.extensions _ entry.config.extensions) e = _
    rw [get?_unclaim]
    split
    · rename_i hboth
      rw [if_pos hboth.2]
    · rename_i hnot
      -- endings are only looked for in the list of the entry, but every one it owns is in that list
      rw [if_neg fun howner => hnot ⟨?_, howner⟩]
      obtain ⟨entry', hentry', hlists⟩ := h.owned howner
      rw [hentry, Option.some.injEq] at hentry'
      exact hentry' ▸ hlists

/-- A removal keeps the tables in agreement with the edits. -/
theorem without (h : g.Records history) (language : String) :
    (g.without language).Records (history ++ [.unregister language]) := by
  have hsince : ∀ {spoils : Edit → Prop} {config : LanguageConfig},
      RegisteredSince spoils (history ++ [.unregister language]) config
        ↔ RegisteredSince spoils history config ∧ ¬spoils (.unregister language) := fun {_ _} => by
    rw [registeredSince_concat]
    refine or_iff_right fun heq => ?_
    cases heq
  -- entries, endings, and that the keys of either stay distinct
  refine ⟨?_, ?_, ?_, ?_⟩
  · intro key config
    rw [get?_languages_without, Stands, hsince]
    split
    · rename_i hkey
      constructor
      · intro hnone
        cases hnone
      · exact fun hstands => absurd (hkey.trans hstands.1.symm) hstands.2.2
    · rename_i hkey
      rw [h.languages]
      constructor
      · exact fun hstands => ⟨hstands.1, hstands.2, fun heq => hkey (heq.trans hstands.1)⟩
      · exact fun hstands => ⟨hstands.1, hstands.2.1⟩
  · intro e key
    rw [h.get?_extensions_without]
    simp only [Owns, hsince]
    split
    · rename_i howner
      constructor
      · intro hnone
        cases hnone
      · rintro ⟨config, hkey, hlists, hsince', hspared⟩
        -- the ending was the language's, and so was the entry
        have howner' := h.extensions.mpr ⟨config, rfl, hlists, hsince'⟩
        rw [howner, Option.some.injEq] at howner'
        exact absurd (Or.inr howner') hspared
    · rename_i howner
      rw [h.extensions]
      constructor
      · rintro ⟨config, rfl, hlists, hsince'⟩
        refine ⟨config, rfl, hlists, hsince', ?_⟩
        rintro (hfalse | hkey)
        · exact hfalse
        · exact howner (h.extensions.mpr ⟨config, hkey.symm, hlists, hsince'⟩)
      · rintro ⟨config, hkey, hlists, hsince', -⟩
        exact ⟨config, hkey, hlists, hsince'⟩
  · rw [Registry.without, Registry.remove?]
    cases Assoc.get? g.languages (Text.caseFold language) with
    | none => exact h.languageKeys
    | some entry => exact Assoc.nodup_keys_erase h.languageKeys _
  · rw [Registry.without, Registry.remove?]
    cases Assoc.get? g.languages (Text.caseFold language) with
    | none => exact h.extensionKeys
    | some entry => exact nodup_unclaim h.extensionKeys _ _

/-- So does a registration, of a language that is not known. Languages that are known are taken out
first. -/
theorem enter (h : g.Records history) {config : LanguageConfig}
    (habsent : Assoc.get? g.languages config.key = none) :
    (g.enter config).Records (history ++ [.register config]) := by
  refine ⟨?_, ?_, Assoc.nodup_keys_set h.languageKeys _ _, nodup_claim h.extensionKeys _ _⟩
  · intro key config'
    rw [Registry.enter, Assoc.get?_set, Stands, registeredSince_concat]
    split
    · rename_i hkey
      constructor
      · intro heq
        cases heq
        exact ⟨hkey, Or.inl rfl⟩
      · rintro ⟨hkey', heq | ⟨-, hspared⟩⟩
        · cases heq
          rfl
        · exact absurd (hkey.trans hkey'.symm) hspared
    · rename_i hkey
      rw [h.languages]
      constructor
      · exact fun hstands => ⟨hstands.1, Or.inr ⟨hstands.2, fun heq => hkey (heq.trans hstands.1)⟩⟩
      · rintro ⟨hkey', heq | ⟨hstands, -⟩⟩
        · cases heq
          exact absurd hkey' hkey
        · exact ⟨hkey', hstands⟩
  · intro e key
    rw [Registry.enter, get?_claim]
    simp only [Owns, registeredSince_concat]
    split
    · rename_i hlists
      constructor
      · intro heq
        cases heq
        exact ⟨config, rfl, hlists, Or.inl rfl⟩
      · rintro ⟨config', rfl, -, heq | ⟨-, hspared⟩⟩
        · cases heq
          rfl
        · exact absurd (Or.inl hlists) hspared
    · rename_i hlists
      rw [h.extensions]
      constructor
      · rintro ⟨config', rfl, howns⟩
        refine ⟨config', rfl, howns.1, Or.inr ⟨howns.2, ?_⟩⟩
        rintro (hlists' | hkey)
        · exact hlists hlists'
        -- an owner under the same key would still have its entry
        · have hentry : (Assoc.get? g.languages config.key).map (·.config) = some config' :=
            h.languages.mpr ⟨hkey.symm, howns.stands⟩
          rw [habsent] at hentry
          cases hentry
      · rintro ⟨config', hkey, hlists', heq | ⟨hsince, -⟩⟩
        · cases heq
          exact absurd hlists' hlists
        · exact ⟨config', hkey, hlists', hsince⟩

/-- **One more edit.** -/
theorem edit (h : g.Records history) (a : Edit) : (g.edit a).Records (history ++ [a]) := by
  cases a with
  | unregister language => exact h.without language
  | register config =>
    have habsent : Assoc.get? (g.without config.name).languages config.key = none := by
      rw [get?_languages_without]
      exact if_pos rfl
    have hentered := (h.without config.name).enter habsent
    have hstands : ∀ {other : LanguageConfig},
        Stands (history ++ [.unregister config.name] ++ [.register config]) other
        ↔ Stands (history ++ [.register config]) other := registeredSince_replace id
    have howns : ∀ {e : WideText} {other : LanguageConfig},
        Owns (history ++ [.unregister config.name] ++ [.register config]) e other
          ↔ Owns (history ++ [.register config]) e other := fun {e other} =>
      and_congr_right fun _ => registeredSince_replace fun hspoils =>
        Or.inr (hspoils.resolve_left id)
    refine ⟨fun {key other} => ?_, fun {e key} => ?_, hentered.languageKeys, hentered.extensionKeys⟩
    · rw [← hstands]
      exact hentered.languages
    · simp only [← howns]
      exact hentered.extensions

/-! ### Looking an ending up -/

theorem ownerOf_of_owns (h : g.Records history) {e : WideText} {config : LanguageConfig}
    (howns : Owns history e config) : g.ownerOf e = .ok (some config.name) := by
  have hkey := h.extensions.mpr ⟨config, rfl, howns⟩
  obtain ⟨entry, hentry, rfl⟩ := Option.map_eq_some_iff.mp (h.languages.mpr ⟨rfl, howns.stands⟩)
  rw [Registry.ownerOf, hkey]
  show (g.nameOf entry.config.key).map some = _
  rw [Registry.nameOf, Lookup.value, hentry]
  rfl

theorem ownerOf_of_not_owns (h : g.Records history) {e : WideText}
    (hnone : ∀ config, ¬Owns history e config) :
    g.ownerOf e = .ok none := by
  rw [Registry.ownerOf]
  cases hkey : Assoc.get? g.extensions e with
  | none => rfl
  | some key =>
    obtain ⟨config, -, howns⟩ := h.extensions.mp hkey
    exact absurd howns (hnone config)

/-- **An ending that a language has is found**, and no other one is. -/
theorem ownerOf_eq_some (h : g.Records history) {e : WideText} {name : String} :
    g.ownerOf e = .ok (some name) ↔ ∃ config, config.name = name ∧ Owns history e config := by
  constructor
  · intro hname
    by_cases howned : ∃ config, Owns history e config
    · obtain ⟨config, howns⟩ := howned
      rw [h.ownerOf_of_owns howns] at hname
      cases hname
      exact ⟨config, rfl, howns⟩
    · rw [h.ownerOf_of_not_owns fun config howns => howned ⟨config, howns⟩] at hname
      cases hname
  · rintro ⟨config, rfl, howns⟩
    exact h.ownerOf_of_owns howns

theorem made_of_owns (hmade : ∀ config, .register config ∈ history → config.Made) {e : WideText}
    {config : LanguageConfig} (howns : Owns history e config) : config.Made :=
  hmade config howns.stands.mem

/-- An ending is looked up in kept form. -/
theorem languageOfExtension_eq (h : g.Records history)
    (hmade : ∀ config, .register config ∈ history → config.Made) (e : WideText) :
    g.languageOfExtension (some e)
      = if e.spelling = "" then .ok none else g.ownerOf (LanguageConfig.kept e) := by
  rw [languageOfExtension]
  split
  · rfl
  · show _ = g.ownerOf (e.respell fun s => LanguageConfig.dotted (Text.lowerCase s))
    rw [Registry.ownerOf]
    cases hkey : Assoc.get? g.extensions
      (e.respell fun s => LanguageConfig.dotted (Text.lowerCase s)) with
    | none => rfl
    | some key =>
      obtain ⟨config, rfl, howns⟩ := h.extensions.mp hkey
      exact if_neg (made_of_owns hmade howns).key_ne

theorem languageOfExtension_cases (h : g.Records history)
    (hmade : ∀ config, .register config ∈ history → config.Made) (e : WideText) :
    (∃ config, Owns history (LanguageConfig.kept e) config
        ∧ g.languageOfExtension (some e) = .ok (some config.name))
      ∨ g.languageOfExtension (some e) = .ok none := by
  rw [h.languageOfExtension_eq hmade]
  split
  · exact Or.inr rfl
  · by_cases howned : ∃ config, Owns history (LanguageConfig.kept e) config
    · obtain ⟨config, howns⟩ := howned
      exact Or.inl ⟨config, howns, h.ownerOf_of_owns howns⟩
    · exact Or.inr (h.ownerOf_of_not_owns fun config howns => howned ⟨config, howns⟩)

/-! ### Files and names -/

theorem ending_cases (p : FilePath) : p.ending = "" ∨ ∃ rest, p.ending.toList = '.' :: rest := by
  simp only [FilePath.ending, FilePath.endingOf]
  split
  · exact Or.inl rfl
  · exact Or.inr ⟨_, String.toList_ofList⟩

theorem dot_of_lowerCase {s : String} {rest : List Char} (h : s.toList = '.' :: rest) :
    ∃ rest', (Text.lowerCase s).toList = '.' :: rest' := by
  have hdot : Text.isLowered '.'.toNat = true := Text.isLowered_of_lt (by decide) (by decide)
  rw [Text.lowerCase, String.toList_ofList, h, Text.lowerChars, Text.lowerChar_of_isLowered hdot]
  exact ⟨_, rfl⟩

/-- A file belongs to the language that its ending belongs to. The ending of a path has its dot
already, so the dot that a lookup may add makes no difference. -/
theorem languageOfFile_eq (h : g.Records history)
    (hmade : ∀ config, .register config ∈ history → config.Made) (path : WideText) :
    g.languageOfFile path = g.languageOfExtension
      (some (path.respell fun s => (FilePath.ofText s).ending)) := by
  rw [h.languageOfExtension_eq hmade, languageOfFile]
  rcases ending_cases (FilePath.ofText path.spelling) with hnone | ⟨rest, hrest⟩
  · -- no language lists the empty ending
    have hempty : (path.respell fun s => (FilePath.ofText s).ending).spelling = "" := hnone
    rw [if_pos hempty]
    refine h.ownerOf_of_not_owns fun config howns => ?_
    have hspelling : (fileExtension path).spelling = "" := by
      simp only [fileExtension, WideText.respell, hnone]
      rfl
    exact (made_of_owns hmade howns).extension_ne howns.1 hspelling
  · have hsome : (path.respell fun s => (FilePath.ofText s).ending).spelling ≠ "" := by
      intro hempty
      have hnil : (FilePath.ofText path.spelling).ending.toList = [] :=
        congrArg String.toList hempty
      rw [hrest] at hnil
      cases hnil
    -- the ending has its dot, also in lower case, so it gets no second one
    obtain ⟨rest', hrest'⟩ := dot_of_lowerCase hrest
    rw [if_neg hsome]
    simp only [fileExtension, LanguageConfig.kept, WideText.respell]
    rw [LanguageConfig.dotted_of_dot hrest']

theorem nodup_names (h : g.Records history) : (g.languageNames.map Text.caseFold).Nodup := by
  have hkeys : g.languageNames.map Text.caseFold = Assoc.keys g.languages := by
    rw [languageNames, Assoc.values, Assoc.keys, List.map_map, List.map_map]
    refine List.map_congr_left fun entry hentry => ?_
    have hget : Assoc.get? g.languages entry.1 = some entry.2 :=
      Assoc.get?_of_mem h.languageKeys hentry
    exact (h.languages.mp (by rw [hget]; rfl)).1
  rw [hkeys]
  exact h.languageKeys

end Records

end Registry

end SyntaxForest
