import SyntaxForest.Proofs.Service.Runs

/-!
# Parsers that are kept and the languages they were built for

A registry is coherent if every parser that it keeps was built from the entry that its language has
now. A language is taken out together with its parser, so registering and unregistering keep
registries coherent, and so does a task as long as what it builds is up to date.

* **`Service.current`**, **`Coherent`** — the entry of a language, and the parsers that fit it.
* **`Coherent.change`** — registering and unregistering.
* **`UpToDate.deals`** — a task that builds parsers for entries that are still there.
-/

namespace SyntaxForest

/-- The entry of the language that is now known under the key. -/
def Service.current (s : Service) (r : RegistryId) (key : String) : Option LanguageConfig :=
  (s.registries[r]?).bind fun g => (Assoc.get? g.languages key).map (·.config)

/-- Every parser that is kept was built from the entry of the language that is now known under its
key. -/
structure Coherent (s : Service) : Prop where
  fits : ∀ {r : RegistryId} {key : String} {p : ParserId}, s.Keeps r key p →
    ∃ q entry, s.parser? p = some q ∧ q.origin = some (r, entry)
      ∧ s.current r key = some entry.config

/-! ## What keeps registries coherent -/

namespace Service

variable {s s' : Service}

theorem current_of_registries (h : s'.registries = s.registries) (r : RegistryId) (key : String) :
    s'.current r key = s.current r key := by
  rw [current, current, h]

theorem current_eq_some {r : RegistryId} {key : String} {config : LanguageConfig} :
    s.current r key = some config ↔
      ∃ g entry, s.registries[r]? = some g ∧ Assoc.get? g.languages key = some entry
        ∧ entry.config = config := by
  rw [current, Option.bind_eq_some_iff]
  simp only [Option.map_eq_some_iff]
  constructor
  · rintro ⟨g, hg, entry, hentry, hconfig⟩
    exact ⟨g, entry, hg, hentry, hconfig⟩
  · rintro ⟨g, entry, hg, hentry, hconfig⟩
    exact ⟨g, hg, entry, hentry, hconfig⟩

theorem current_modifyRegistry {r r' : RegistryId} {change : Registry → Registry} {key : String}
    {config : LanguageConfig} (h : s.current r' key = some config)
    (hsame : ∀ g entry, r = r' → s.registries[r]? = some g →
      Assoc.get? g.languages key = some entry → Assoc.get? (change g).languages key = some entry) :
    (s.modifyRegistry r change).current r' key = some config := by
  obtain ⟨g, entry, hg, hentry, hconfig⟩ := current_eq_some.mp h
  by_cases hr : r = r'
  · subst hr
    refine current_eq_some.mpr ⟨change g, entry, ?_, hsame g entry rfl hg hentry, hconfig⟩
    rw [registries_modifyRegistry, if_pos rfl, hg]
    rfl
  · refine current_eq_some.mpr ⟨g, entry, ?_, hentry, hconfig⟩
    rw [registries_modifyRegistry, if_neg hr, hg]

theorem current_keep (s : Service) (r r' : RegistryId) (key key' : String) (p : ParserId) :
    (s.keep r key p).current r' key' = s.current r' key' := by
  rw [current, current, keep, registries_modifyRegistry]
  split
  · cases s.registries[r']? <;> rfl
  · rfl

end Service

namespace Coherent

variable {s s' : Service} {t : TaskId}

theorem later (h : Coherent s) (hlater : Later s s')
    (hkept : ∀ r key p, s'.Keeps r key p → s.Keeps r key p ∧ ∀ config,
      s.current r key = some config → s'.current r key = some config) :
    Coherent s' := by
  refine ⟨fun {r key p} hk => ?_⟩
  obtain ⟨hk', hcurrent'⟩ := hkept r key p hk
  obtain ⟨q, entry, hq, horigin, hcurrent⟩ := h.fits hk'
  obtain ⟨q', hq', hsame⟩ := hlater p q hq
  exact ⟨q', entry, hq', hsame.origin ▸ horigin, hcurrent' _ hcurrent⟩

theorem of_registries (h : Coherent s) (hlater : Later s s')
    (hregistries : s'.registries = s.registries) :
    Coherent s' :=
  h.later hlater fun r key _ hk => ⟨(Stock.keeps_of_registries hregistries).mp hk, fun _ hcurrent =>
    (Service.current_of_registries hregistries r key).trans hcurrent⟩

theorem modifyRegistry (h : Coherent s) {r : RegistryId} {change : Registry → Registry}
    (hkept : ∀ g key p, s.registries[r]? = some g → Assoc.get? (change g).parsers key = some p →
      Assoc.get? g.parsers key = some p ∧ ∀ entry, Assoc.get? g.languages key = some entry →
      Assoc.get? (change g).languages key = some entry) :
    Coherent (s.modifyRegistry r change) := by
  refine h.later (.of_parsers rfl) fun r' key p hk => ?_
  obtain ⟨g', hg', hget⟩ := hk
  rcases Service.registry_of_modifyRegistry hg' with ⟨rfl, g, hg, rfl⟩ | ⟨hne, hg⟩
  · obtain ⟨hget', hentries⟩ := hkept g key p hg hget
    refine ⟨⟨g, hg, hget'⟩, fun config hcurrent =>
      Service.current_modifyRegistry hcurrent fun g₀ entry _ hg₀ hentry => ?_⟩
    rw [hg, Option.some.injEq] at hg₀
    exact hg₀ ▸ hentries entry (hg₀ ▸ hentry)
  · exact ⟨⟨g', hg, hget⟩, fun config hcurrent =>
      Service.current_modifyRegistry hcurrent fun _ _ heq => absurd heq hne⟩

/-- **Registering and unregistering keep registries coherent.** A language goes together with its
parser, and a language that comes finds none under its key. -/
theorem change (h : Coherent s) (hchange : Change s s') : Coherent s' := by
  cases hchange with
  | retire p => exact h.of_registries (Change.retire s p).later rfl
  | table r path table => exact h.modifyRegistry fun _ _ _ _ hget => ⟨hget, fun _ hentry => hentry⟩
  | forget hg hretired => exact h.modifyRegistry fun _ _ _ _ hget => by cases hget
  | found settings collector =>
    refine h.later (.of_parsers rfl) fun r key p hk => ?_
    obtain ⟨g, hg, hget⟩ := hk
    have hold : s.registries[r]? = some g := by
      rw [Array.getElem?_push] at hg
      split at hg
      · cases hg
        cases hget
      · exact hg
    have hlt : r < s.registries.size := (Array.getElem?_eq_some_iff.mp hold).1
    refine ⟨⟨g, hold, hget⟩, fun config hcurrent => ?_⟩
    rw [Service.current, Array.getElem?_push, if_neg (Nat.ne_of_lt hlt)]
    exact hcurrent
  | enter hnew =>
    -- nothing is kept under the key of a language that was not known
    rename_i r config
    refine h.modifyRegistry fun g key p hg hget => ⟨hget, fun entry hentry => ?_⟩
    rw [Registry.enter, Assoc.get?_set, if_neg fun hkey => ?_]
    · exact hentry
    · rw [← hkey, hnew g hg] at hentry
      cases hentry
  | remove hg hremove hretired =>
    rw [Registry.remove?] at hremove
    split at hremove
    · cases hremove
    · simp only [Option.some.injEq, Prod.mk.injEq] at hremove
      obtain ⟨rfl, -, -⟩ := hremove
      refine h.modifyRegistry fun g₀ key p hg₀ hget => ?_
      rw [hg, Option.some.injEq] at hg₀
      subst hg₀
      rw [Assoc.get?_erase] at hget
      split at hget
      · cases hget
      · rename_i hkey
        exact ⟨hget, fun entry hentry => by rwa [Assoc.get?_erase, if_neg hkey]⟩

theorem changes (h : Coherent s) (hchanges : Changes s s') : Coherent s' := by
  induction hchanges with
  | refl => exact h
  | tail _ hstep ih =>
    rcases hstep with hquiet | hchange
    · exact ih.of_registries (.of_parsers hquiet.parsers) hquiet.registries
    · exact ih.change hchange

end Coherent

/-! ## What a task builds -/

/-- Registries are coherent, and what the task builds is up to date. -/
structure UpToDate (x : Stance) : Prop where
  coherent : Coherent x.1
  builds : ∀ {r : RegistryId} {entry : Registration} {p : ParserId}, .build r entry p ∈ x.2.duties →
    x.1.current r entry.config.key = some entry.config

namespace UpToDate

variable {t : TaskId} {x y : Stance}

/-- One deal. A parser is built for the entry that was just looked up, and it is kept while that
entry is still there. A task that registers or unregisters builds nothing meanwhile. -/
theorem deal (h : UpToDate x) (hdeal : Deal t x y) (hl : Lives x.1 (x.1.standing t x.2)) :
    UpToDate y := by
  have hlater := hdeal.later
  cases hdeal with
  | move hmove =>
    refine ⟨h.coherent.of_registries hlater hmove.registries, fun hbuild => ?_⟩
    rw [Service.current_of_registries hmove.registries]
    exact h.builds ((hmove.builds ..).mp hbuild)
  | change hchange hidle =>
    exact ⟨h.coherent.change hchange, fun hbuild => absurd hbuild (hidle _ _ _)⟩
  | build hg hentry hkept horigin hstage htally hgrammar =>
    refine ⟨h.coherent.of_registries hlater rfl, fun hbuild => ?_⟩
    rcases List.mem_cons.mp hbuild with heq | hmem
    · cases heq
      exact Service.current_eq_some.mpr ⟨_, _, hg, hentry, rfl⟩
    · exact h.builds hmem
  | keep hp hstage =>
    rename_i s D r entry p q
    -- what is kept now is what the task had to build, with its origin noted
    have hown : .build r entry
        p ∈ (⟨.build r entry p :: .hold (.registry r) :: D, none⟩ : Footing).duties :=
      List.mem_cons_self ..
    have hstack := hl.stacked t
    rw [Service.standing_self] at hstack
    obtain ⟨-, -, q', hq', horigin⟩ := hstack.of_build hown
    refine ⟨⟨fun {r' key p'} hk => ?_⟩, fun hbuild => ?_⟩
    · rw [Service.current_keep]
      rcases hk.of_keep with hk | ⟨rfl, rfl, rfl⟩
      · exact h.coherent.fits hk
      · exact ⟨q', entry, hq', horigin, h.builds hown⟩
    · rw [Service.current_keep]
      exact h.builds (List.mem_cons_of_mem _ hbuild)
  | abandon hp => exact ⟨h.coherent, fun hbuild => h.builds (List.mem_cons_of_mem _ hbuild)⟩

/-- **A task whose builds are up to date keeps registries coherent.** -/
theorem deals (h : UpToDate x) (hdeals : Deals t x y) (hagreed : Agreed x.1 (x.1.standing t x.2)) :
    UpToDate y := by
  induction hdeals with
  | refl => exact h
  | tail hbefore hdeal ih => exact ih.deal hdeal (hagreed.deals hbefore).lives

end UpToDate

end SyntaxForest
