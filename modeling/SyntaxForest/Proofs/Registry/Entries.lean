import SyntaxForest.Proofs.Data.Assoc
import SyntaxForest.Proofs.Text.LetterCase
import SyntaxForest.Registry.LanguageTable

/-!
# Entries of languages

An entry that was made from a record has a name, and its endings are in the form in which endings
are looked up.

* **`LanguageConfig.Made`** — the entry comes from a record. **`Made.fields`** — what its checks
  have seen to.
* **`Made.kept_eq`** — its endings are found as they stand.
* **`LanguageTable.made_of_ofDocument`** — the entries of a table are made from records.
-/

namespace SyntaxForest

/-! ## Good checks -/

namespace Schema.Checked

variable {α β : Type}

theorem good_of_orFault {record : String} {x : Checked α} {a : α} (h : x.orFault record = .ok a) :
    x = .good a := by
  cases x with
  | good b =>
    cases h
    rfl
  | bad issues => cases h

theorem good_of_map {f : α → β} {x : Checked α} {b : β} (h : x.map f = .good b) :
    ∃ a, x = .good a ∧ f a = b := by
  cases x with
  | good a =>
    cases h
    exact ⟨a, rfl, rfl⟩
  | bad issues => cases h

theorem good_of_both {f : Checked (α → β)} {x : Checked α} {b : β} (h : f.both x = .good b) :
    ∃ g a, f = .good g ∧ x = .good a ∧ g a = b := by
  cases f with
  | good g =>
    cases x with
    | good a =>
      cases h
      exact ⟨g, a, rfl, rfl, rfl⟩
    | bad issues => cases h
  | bad issues => cases x <;> cases h

theorem good_of_under {step : Step} {x : Checked α} {a : α} (h : x.under step = .good a) :
    x = .good a := by
  cases x with
  | good b =>
    cases h
    rfl
  | bad issues => cases h

end Schema.Checked

theorem WideText.text?_of_unmarked {w : WideText} (h : mark ∉ w.spelling.toList) :
    w.text? = some w.spelling := by
  have hmark : w.spelling.contains mark = false := by
    rw [String.contains_char_eq]
    exact decide_eq_false h
  rw [text?, hmark]
  rfl

theorem Schema.nonEmptyText_of_unmarked {name : String} (hsome : name ≠ "")
    (hsame : WideText.ofText name = ⟨name⟩) (h : WideText.mark ∉ name.toList) :
    nonEmptyText (.text name) = .good name := by
  have hwhole : (WideText.ofText name).text? = some name := by
    rw [hsame]
    exact WideText.text?_of_unmarked h
  simp only [nonEmptyText, text, wideText, Checked.andThen, hwhole]
  exact if_neg hsome

namespace LanguageConfig

/-- The entry was made from a record. -/
def Made (c : LanguageConfig) : Prop := ∃ fields factory, make fields factory = .ok c

/-- The form in which an ending is looked up. -/
def kept (extension : WideText) : WideText := extension.respell fun s => dotted (Text.lowerCase s)

/-- A made entry has a name, and its endings went through `normalize?`. -/
theorem Made.fields {c : LanguageConfig} (h : c.Made) :
    c.name ≠ "" ∧ ∃ given, c.extensions = normalize given := by
  obtain ⟨fields, factory, hmake⟩ := h
  -- one field after the other, the last one first
  obtain ⟨make₄, factory', hfour, -, hc⟩ :=
    Schema.Checked.good_of_both (Schema.Checked.good_of_orFault hmake)
  obtain ⟨make₃, path, hthree, -, rfl⟩ := Schema.Checked.good_of_both hfour
  obtain ⟨make₂, extensions, htwo, hextensions, rfl⟩ := Schema.Checked.good_of_both hthree
  obtain ⟨make₁, shown, hone, -, rfl⟩ := Schema.Checked.good_of_both htwo
  obtain ⟨name, hname, rfl⟩ := Schema.Checked.good_of_map hone
  obtain ⟨given, -, rfl⟩ := Schema.Checked.good_of_map hextensions
  subst hc
  refine ⟨?_, given, rfl⟩
  have hgood := Schema.Checked.good_of_under hname
  split at hgood
  · simp only [Schema.nonEmptyText, Schema.Checked.andThen] at hgood
    split at hgood
    · split at hgood
      · cases hgood
      · rename_i hname
        cases hgood
        exact hname
    · cases hgood
  · cases hgood

theorem Made.key_ne {c : LanguageConfig} (h : c.Made) : c.key ≠ "" := fun hkey =>
  h.fields.1 (Text.caseFold_eq_empty_iff.mp hkey)

/-! ### Endings in kept form -/

theorem startsWith_dot_iff {s : String} :
    Text.startsWith s "." = true ↔ ∃ rest, s.toList = '.' :: rest := by
  have hdot : ".".toList = ['.'] := by decide
  rw [Text.startsWith, hdot]
  cases s.toList with
  | nil => simp
  | cons c rest => simpa using eq_comm

theorem dotted_of_dot {s : String} {rest : List Char} (h : s.toList = '.' :: rest) : dotted s = s :=
  if_pos (startsWith_dot_iff.mpr ⟨rest, h⟩)

theorem dot_of_dotted (s : String) : ∃ rest, (dotted s).toList = '.' :: rest := by
  rw [dotted]
  split
  · rename_i h
    exact startsWith_dot_iff.mp h
  · exact ⟨s.toList, by rw [String.toList_append]; rfl⟩

theorem lowerCase_dotted (s : String) :
    Text.lowerCase (dotted (Text.lowerCase s)) = dotted (Text.lowerCase s) := by
  apply Text.lowerCase_of_isLowered
  intro c hc
  rw [dotted] at hc
  split at hc
  · exact Text.isLowered_of_mem_lowerCase hc
  · rw [String.toList_append, List.mem_append] at hc
    rcases hc with hdot | hrest
    · rw [List.mem_singleton.mp hdot]
      exact Text.isLowered_of_lt (by decide) (by decide)
    · exact Text.isLowered_of_mem_lowerCase hrest

/-- An ending in kept form is looked up as it is. -/
theorem Made.kept_eq {c : LanguageConfig} (h : c.Made) {e : WideText} (he : e ∈ c.extensions) :
    kept e = e := by
  obtain ⟨-, given, hgiven⟩ := h.fields
  rw [hgiven, normalize, List.mem_filterMap] at he
  obtain ⟨raw, -, hraw⟩ := he
  rw [normalize?] at hraw
  split at hraw
  · cases hraw
  · rw [← Option.some.inj hraw]
    obtain ⟨rest, hrest⟩ := dot_of_dotted (Text.lowerCase (Text.trim raw.spelling))
    simp only [kept, WideText.respell]
    rw [lowerCase_dotted, dotted_of_dot hrest]

theorem kept_ne_empty (e : WideText) : (kept e).spelling ≠ "" := by
  obtain ⟨rest, hrest⟩ := dot_of_dotted (Text.lowerCase e.spelling)
  simp only [kept, WideText.respell]
  intro h
  rw [h] at hrest
  cases hrest

theorem Made.extension_ne {c : LanguageConfig} (h : c.Made) {e : WideText} (he : e ∈ c.extensions) :
    e.spelling ≠ "" := h.kept_eq he ▸ kept_ne_empty e

/-! ### Entries of a name and endings -/

/-- The entry of a language with nothing but a name and endings. -/
def ofTexts (name : String) (given : List String) : LanguageConfig :=
  { name, extensions := normalize (given.map .ofText) }

theorem items_wideText (given : List String) (i : Nat) :
    Schema.items Schema.wideText i (given.map .text) = .good (given.map .ofText) := by
  induction given generalizing i with
  | nil => rfl
  | cons first rest ih =>
    rw [List.map_cons, Schema.items, ih]
    rfl

theorem made_ofTexts {name : String} (hname : Schema.nonEmptyText (.text name) = .good name)
    (given : List String) :
    (ofTexts name given).Made := by
  refine ⟨[("name", .text name), ("file_extensions", .list (given.map .text))], none, ?_⟩
  have hrequired : Schema.required [("name", .text name),
      ("file_extensions", .list (given.map .text))] "name"
      Schema.nonEmptyText = .good name := by
    show (Schema.nonEmptyText (.text name)).under _ = _
    rw [hname]
    rfl
  have hextensions : Schema.defaulted [("name", .text name),
      ("file_extensions", .list (given.map .text))]
      "file_extensions" [] (Schema.listOf Schema.wideText) = .good (given.map .ofText) := by
    show (Schema.items Schema.wideText 0 (given.map .text)).under _ = _
    rw [items_wideText]
    rfl
  rw [make, check, hrequired, hextensions]
  rfl

end LanguageConfig

/-! ## Entries of a table -/

namespace LanguageTable

theorem made_of_entryOf {path : String} {name : Except Fault WideText} {d : Yaml.Document}
    {value : Yaml.Cell} {config : LanguageConfig} (h : entryOf path name d value = .ok config) :
    config.Made := by
  simp only [entryOf, bind, Except.bind] at h
  split at h
  · cases h
  · split at h
    · cases h
    · split at h
      · split at h
        · cases h
        · split at h
          · cases h
          · exact ⟨_, _, h⟩
      · cases h

theorem made_of_entriesOf {path : String} {d : Yaml.Document}
    {entries : List (Yaml.Atom × Yaml.NodeRef)} {acc : Assoc String LanguageConfig}
    (hacc : ∀ config ∈ acc.values, config.Made) {table : List LanguageConfig}
    (h : entriesOf path d entries acc = .ok table) : ∀ config ∈ table, config.Made := by
  induction entries generalizing acc with
  | nil =>
    cases h
    exact hacc
  | cons first rest ih =>
    simp only [entriesOf, bind, Except.bind] at h
    split at h
    · cases h
    · rename_i entry hentry
      refine ih (fun config hconfig => ?_) h
      rcases Assoc.mem_values_of_mem_set hconfig with rfl | hold
      · exact made_of_entryOf hentry
      · exact hacc config hold

/-- **All entries of a table are made from records.** -/
theorem made_of_ofDocument {path : String} {d : Yaml.Document} {table : List LanguageConfig}
    (h : ofDocument path d = .ok table) : ∀ config ∈ table, config.Made := by
  rw [ofDocument] at h
  split at h
  · split at h
    · refine made_of_entriesOf (fun config hconfig => ?_) h
      cases hconfig
    · cases h
  · cases h

end LanguageTable

end SyntaxForest
