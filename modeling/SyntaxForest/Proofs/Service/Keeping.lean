import SyntaxForest.Proofs.Service.Lives

/-!
# What registries keep

A registry keeps the parsers that it built, each under the key of the entry that it was built for.
While a parser is being built, the registry keeps no usable parser under its key, so keeping the new
one loses nothing.

* **`Stock`** — entries stand under their own keys, parsers that are kept are settled, and a parser
  that was built and initialized is kept or about to be kept.
* **`Stock.move`**, **`Stock.change`**, **`Stock.deal`** — whatever happens to registries keeps it
  so.
-/

namespace SyntaxForest

/-- Registries, parsers and tasks agree about what is kept. With the lock of a registry nobody else
can build for it (`Stock.alone`), so that what is kept under a key is the only usable parser for
it. -/
structure Stock (s : Service) (foot : TaskId → Footing) : Prop where
  keyed : ∀ {r : RegistryId} {g : Registry} {key : String} {entry : Registration},
    s.registries[r]? = some g → Assoc.get? g.languages key = some entry → entry.config.key = key
  cached : ∀ {r : RegistryId} {key : String} {p : ParserId}, s.Keeps r key p →
    ∃ q entry, s.parser? p = some q ∧ q.isSettled = true ∧ q.origin = some (r, entry)
      ∧ entry.config.key = key
  /-- What is kept under the key of a parser that is being built has been disposed of. -/
  built : ∀ {u : TaskId} {r : RegistryId} {entry : Registration} {p p' : ParserId} {q : Parser},
    .build r entry p ∈ (foot u).duties → s.Keeps r entry.config.key p' → s.parser? p' = some q →
      q.stage = .disposed
  /-- A parser that was built and initialized is kept, or the task that built it is about to. -/
  kept : ∀ {p : ParserId} {q : Parser} {r : RegistryId} {entry : Registration},
    s.parser? p = some q → q.stage = .initialized → q.origin = some (r, entry) →
      s.Keeps r entry.config.key p ∨ ∃ u, .build r entry p ∈ (foot u).duties

/-! ## Moves -/

theorem Move.builds {t : TaskId} {x y : Stance} (h : Move t x y) (r : RegistryId)
    (entry : Registration) (p : ParserId) :
    .build r entry p ∈ y.2.duties ↔ .build r entry p ∈ x.2.duties := by
  cases h <;> simp

theorem Service.initialized_of_modifyParser {s : Service} {p p' : ParserId}
    (change : Parser → Parser)
    (hstage : ∀ q : Parser, (change q).stage = .initialized → q.stage = .initialized)
    (horigin : ∀ q : Parser, (change q).origin = q.origin) {q' : Parser}
    (hq' : (s.modifyParser p' change).parser? p = some q') (hinit : q'.stage = .initialized) :
    ∃ q, s.parser? p = some q ∧ q.stage = .initialized ∧ q'.origin = q.origin := by
  rcases parser?_of_modifyParser hq' with ⟨rfl, q, hq, rfl⟩ | ⟨-, hq⟩
  · exact ⟨q, hq, hstage q hinit, horigin q⟩
  · exact ⟨q', hq, hinit, rfl⟩

/-- A parser is initialized by the end of its load alone. All other moves leave stages alone, or
lead away from it. -/
theorem Move.initialized {t : TaskId} {x y : Stance} (h : Move t x y) {p : ParserId} {q' : Parser}
    (hq' : y.1.parser? p = some q') (hinit : q'.stage = .initialized) :
    (∃ q, x.1.parser? p = some q ∧ q.stage = .initialized ∧ q'.origin = q.origin)
      ∨ .load p ∈ x.2.duties := by
  -- most moves leave parsers alone
  have hsame : ∀ {s s' : Service}, s'.parsers = s.parsers → s'.parser? p = some q' →
      ∃ q, s.parser? p = some q ∧ q.stage = .initialized ∧ q'.origin = q.origin :=
    fun hparsers hq => ⟨q', by rwa [Service.parser?, ← hparsers], hinit, rfl⟩
  cases h with
  | quiet h => exact Or.inl (hsame h.parsers hq')
  | arrive => exact Or.inl (hsame (Service.parsers_endWait ..) hq')
  | goOn => exact Or.inl (hsame (Service.parsers_endWait ..) hq')
  | release => exact Or.inl (hsame (Service.parsers_setLockAndWake ..) hq')
  | take => exact Or.inl (hsame rfl hq')
  | queue => exact Or.inl (hsame rfl hq')
  | gate => exact Or.inl (hsame rfl hq')
  | work => exact Or.inl (hsame rfl hq')
  | retire p' =>
    exact Or.inl (Service.initialized_of_modifyParser Parser.retire
      (fun q h => absurd (q.stage_retire.symm.trans h) (by decide)) Parser.origin_retire hq' hinit)
  | beginLoad =>
    exact Or.inl (Service.initialized_of_modifyParser Parser.beginLoad
      (fun _ h => by cases h) (fun _ => rfl) hq' hinit)
  | startParse =>
    exact Or.inl (Service.initialized_of_modifyParser Parser.startParse (fun _ h => h)
      (fun _ => rfl) hq' hinit)
  | endParse =>
    exact Or.inl (Service.initialized_of_modifyParser Parser.endParse (fun _ h => h) (fun _ => rfl)
      hq' hinit)
  -- the one move after which a parser can be newly initialized, and its load was the task's duty
  | endLoad result =>
    rcases Service.parser?_of_modifyParser hq' with ⟨rfl, -, -, -⟩ | ⟨-, hq⟩
    · exact Or.inr (List.mem_cons_self ..)
    · exact Or.inl ⟨q', hq, hinit, rfl⟩

namespace Stock

variable {s s' : Service} {foot : TaskId → Footing} {t : TaskId}

theorem keeps_of_registries (h : s'.registries = s.registries) {r : RegistryId} {key : String}
    {p : ParserId} : s'.Keeps r key p ↔ s.Keeps r key p := by
  rw [Service.Keeps, Service.Keeps, h]

theorem cached_later (h : Stock s foot) (hlater : Later s s') {r : RegistryId} {key : String}
    {p : ParserId} (hkeeps : s.Keeps r key p) :
    ∃ q entry, s'.parser? p = some q ∧ q.isSettled = true ∧ q.origin = some (r, entry)
      ∧ entry.config.key = key := by
  obtain ⟨q, entry, hq, hsettled, horigin, hkey⟩ := h.cached hkeeps
  obtain ⟨q', hq', hlater'⟩ := hlater p q hq
  exact ⟨q', entry, hq', hlater'.settled hsettled, hlater'.origin ▸ horigin, hkey⟩

theorem built_later (h : Stock s foot) (hlater : Later s s') {u : TaskId} {r : RegistryId}
    {entry : Registration} {p p' : ParserId} {q' : Parser}
    (hbuild : .build r entry p ∈ (foot u).duties) (hkeeps : s.Keeps r entry.config.key p')
    (hq' : s'.parser? p' = some q') :
    q'.stage = .disposed := by
  obtain ⟨q, -, hq, -⟩ := h.cached hkeeps
  obtain ⟨q'', hq'', hlater'⟩ := hlater p' q hq
  rw [hq', Option.some.injEq] at hq''
  exact hq'' ▸ hlater'.disposed (h.built hbuild hkeeps hq)

theorem carry {foot' : TaskId → Footing} (h : Stock s foot) (hparsers : s'.parsers = s.parsers)
    (hregistries : s'.registries = s.registries) (hfoot : ∀ u, (foot' u).duties = (foot u).duties) :
    Stock s' foot' := by
  have hkeeps : ∀ {r key p}, s'.Keeps r key p ↔ s.Keeps r key p := keeps_of_registries hregistries
  have hparser : ∀ p, s'.parser? p = s.parser? p := fun p => by
    rw [Service.parser?, Service.parser?, hparsers]
  refine ⟨fun hg => h.keyed (hregistries ▸ hg), fun {r key p} hk => ?_, fun hbuild hk hq => ?_,
    fun hq hinit horigin => ?_⟩
  · rw [hparser]
    exact h.cached (hkeeps.mp hk)
  · rw [hfoot] at hbuild
    rw [hparser] at hq
    exact h.built hbuild (hkeeps.mp hk) hq
  · simp only [hfoot]
    rw [hparser] at hq
    rw [hkeeps]
    exact h.kept hq hinit horigin

/-- **What a task does with locks and parsers keeps the stock.** Moves touch no registry; the one
thing that has to be looked at is a parser that is initialized now and was not before. -/
theorem move {x y : Stance} (hmove : Move t x y) (hl : Lives x.1 (x.1.standing t x.2))
    (h : Stock x.1 (x.1.standing t x.2)) : Stock y.1 (y.1.standing t y.2) := by
  -- no move begins or ends a build, neither for the running task nor for others
  have hbuilds : ∀ {r entry p u}, .build r entry p ∈ (y.1.standing t y.2 u).duties →
      .build r entry p ∈ (x.1.standing t x.2 u).duties := fun {r entry p u} hu => by
    by_cases hut : u = t
    · subst hut
      rw [Service.standing_self] at hu ⊢
      exact (hmove.builds r entry p).mp hu
    · rwa [(hmove.undisturbed.standing t x.2 y.2 hut).1] at hu
  have hkeeps : ∀ {r key p}, y.1.Keeps r key p ↔ x.1.Keeps r key p :=
    keeps_of_registries hmove.registries
  refine ⟨fun hg => h.keyed (hmove.registries ▸ hg),
    fun hk => h.cached_later hmove.later (hkeeps.mp hk),
    fun hbuild hk hq => h.built_later hmove.later (hbuilds hbuild) (hkeeps.mp hk) hq,
    fun {p q' r entry} hq' hinit horigin => ?_⟩
  rw [hkeeps, hmove.undisturbed.exists_duty (hmove.builds r entry p)]
  rcases hmove.initialized hq' hinit with ⟨q, hq, hinit', horigin'⟩ | hload
  · exact h.kept hq hinit' (horigin' ▸ horigin)
  · -- the load of a parser that was built stands on its building
    have hstack := hl.stacked t
    rw [Service.standing_self] at hstack
    obtain ⟨-, q, hq, hmay⟩ := hstack.of_load hload
    obtain ⟨q'', hq'', hlater⟩ := hmove.later p q hq
    rw [hq', Option.some.injEq] at hq''
    subst hq''
    rcases hmay with hnone | ⟨r', entry', hbuild⟩
    · rw [← hlater.origin, horigin] at hnone
      cases hnone
    · obtain ⟨-, -, q₁, hq₁, horigin₁⟩ := hstack.of_build hbuild
      rw [hq, Option.some.injEq] at hq₁
      subst hq₁
      rw [← hlater.origin, horigin, Option.some.injEq, Prod.mk.injEq] at horigin₁
      obtain ⟨rfl, rfl⟩ := horigin₁
      exact Or.inr ⟨t, by rwa [Service.standing_self]⟩

end Stock

/-! ## Changes of registries -/

namespace Service

theorem registries_modifyRegistry (s : Service) (r r' : RegistryId) (change : Registry → Registry) :
    (s.modifyRegistry r change).registries[r']?
      = if r = r' then (s.registries[r']?).map change else s.registries[r']? :=
  Array.getElem?_modify

theorem registry_of_modifyRegistry {s : Service} {r r' : RegistryId} {change : Registry → Registry}
    {g' : Registry} (h : (s.modifyRegistry r change).registries[r']? = some g') :
    (r = r' ∧ ∃ g, s.registries[r]? = some g ∧ g' = change g)
      ∨ (r ≠ r' ∧ s.registries[r']? = some g') := by
  rw [registries_modifyRegistry] at h
  split at h
  · rename_i heq
    subst heq
    obtain ⟨g, hg, rfl⟩ := Option.map_eq_some_iff.mp h
    exact Or.inl ⟨rfl, g, hg, rfl⟩
  · rename_i hne
    exact Or.inr ⟨hne, h⟩

theorem Keeps.modifyRegistry {s : Service} {r r' : RegistryId} {change : Registry → Registry}
    {key : String} {p : ParserId} (h : s.Keeps r' key p)
    (hsame : ∀ g, r = r' → s.registries[r]? = some g → Assoc.get? g.parsers key = some p →
      Assoc.get? (change g).parsers key = some p) : (s.modifyRegistry r change).Keeps r' key p := by
  obtain ⟨g, hg, hget⟩ := h
  by_cases hr : r = r'
  · subst hr
    exact ⟨change g, by rw [registries_modifyRegistry, if_pos rfl, hg]; rfl, hsame g rfl hg hget⟩
  · exact ⟨g, by rw [registries_modifyRegistry, if_neg hr, hg], hget⟩

theorem Keeps.of_keep {s : Service} {r r' : RegistryId} {key key' : String} {p p' : ParserId}
    (h : (s.keep r key p).Keeps r' key' p') :
    s.Keeps r' key' p' ∨ (r' = r ∧ key' = key ∧ p' = p) := by
  obtain ⟨g', hg', hget⟩ := h
  rcases registry_of_modifyRegistry hg' with ⟨rfl, g, hg, rfl⟩ | ⟨-, hg⟩
  · rw [Assoc.get?_set] at hget
    split at hget
    · rename_i hkey
      exact Or.inr ⟨rfl, hkey.symm, (Option.some.inj hget).symm⟩
    · exact Or.inl ⟨g, hg, hget⟩
  · exact Or.inl ⟨g', hg, hget⟩

theorem keeps_keep {s : Service} {r : RegistryId} (hr : r < s.registries.size) (key : String)
    (p : ParserId) : (s.keep r key p).Keeps r key p := by
  have hg := Array.getElem?_eq_getElem hr
  exact ⟨_, by rw [keep, registries_modifyRegistry, if_pos rfl, hg]; rfl, Assoc.get?_set_self ..⟩

end Service

namespace Stock

variable {s s' : Service} {foot : TaskId → Footing} {t : TaskId} {r : RegistryId} {g : Registry}
  {entry : Registration} {p : ParserId} {q : Parser} {D : List Duty}

/-- A registry changes, and forgets no parser that is initialized. -/
theorem modifyRegistry (h : Stock s foot) {r : RegistryId} {change : Registry → Registry}
    (hkeyed : ∀ g key entry, s.registries[r]? = some g →
      Assoc.get? (change g).languages key = some entry → entry.config.key = key)
    (hfewer : ∀ g key p, s.registries[r]? = some g → Assoc.get? (change g).parsers key = some p →
      Assoc.get? g.parsers key = some p)
    (hgone : ∀ g key p q, s.registries[r]? = some g → Assoc.get? g.parsers key = some p →
      s.parser? p = some q → q.stage = .initialized → Assoc.get? (change g).parsers key = some p) :
    Stock (s.modifyRegistry r change) foot := by
  have hkeeps : ∀ {r' key p}, (s.modifyRegistry r change).Keeps r' key p → s.Keeps r' key p := by
    rintro r' key p ⟨g', hg', hget⟩
    rcases Service.registry_of_modifyRegistry hg' with ⟨rfl, g, hg, rfl⟩ | ⟨-, hg⟩
    · exact ⟨g, hg, hfewer g key p hg hget⟩
    · exact ⟨g', hg, hget⟩
  refine ⟨fun {r' g' key entry} hg' hget => ?_, fun hk => h.cached (hkeeps hk),
    fun hbuild hk hq => h.built hbuild (hkeeps hk) hq, fun {p q r' entry} hq hinit horigin => ?_⟩
  · rcases Service.registry_of_modifyRegistry hg' with ⟨rfl, g, hg, rfl⟩ | ⟨-, hg⟩
    · exact hkeyed g key entry hg hget
    · exact h.keyed hg hget
  · refine (h.kept hq hinit horigin).imp_left fun hk => hk.modifyRegistry fun g _ hg hget => ?_
    exact hgone g _ p q hg hget hq hinit

theorem retire (h : Stock s foot) (p : ParserId) : Stock (s.modifyParser p Parser.retire) foot := by
  have hlater : Later s (s.modifyParser p Parser.retire) := .modifyParser fun q _ => q.later_retire
  refine ⟨h.keyed, fun hk => h.cached_later hlater hk,
    fun hbuild hk hq => h.built_later hlater hbuild hk hq,
    fun {p' q' r entry} hq' hinit horigin => ?_⟩
  obtain ⟨q, hq, hinit', horigin'⟩ := Service.initialized_of_modifyParser Parser.retire
    (fun q h => absurd (q.stage_retire.symm.trans h) (by decide)) Parser.origin_retire hq' hinit
  exact h.kept hq hinit' (horigin' ▸ horigin)

/-- A registry is made: it knows nothing and keeps nothing. -/
theorem found (h : Stock s foot) (settings : Settings) (collector : CollectorId) :
    Stock { s with registries := s.registries.push { settings, collector } } foot := by
  -- a registry is an old one or the new one, which is empty
  have hold : ∀ {r : RegistryId} {g : Registry},
      (s.registries.push { settings, collector })[r]? = some g →
      s.registries[r]? = some g ∨ g = { settings, collector } := by
    intro r g hg
    rw [Array.getElem?_push] at hg
    split at hg
    · exact Or.inr (Option.some.inj hg).symm
    · exact Or.inl hg
  have hkeeps : ∀ {r key p},
      ({ s with registries := s.registries.push { settings, collector } } : Service).Keeps r key p →
      s.Keeps r key p := by
    rintro r key p ⟨g, hg, hget⟩
    rcases hold hg with hg | rfl
    · exact ⟨g, hg, hget⟩
    · cases hget
  refine ⟨fun {r g key entry} hg hget => ?_, fun hk => h.cached (hkeeps hk),
    fun hbuild hk hq => h.built hbuild (hkeeps hk) hq, fun {p q r entry} hq hinit horigin => ?_⟩
  · rcases hold hg with hg | rfl
    · exact h.keyed hg hget
    · cases hget
  · refine (h.kept hq hinit horigin).imp_left fun ⟨g, hg, hget⟩ => ⟨g, ?_, hget⟩
    have hlt : r < s.registries.size := (Array.getElem?_eq_some_iff.mp hg).1
    rw [Array.getElem?_push, if_neg (Nat.ne_of_lt hlt)]
    exact hg

/-- A language is taken out, with what was kept under its key. That parser is disposed of, so that
no initialized one is forgotten. -/
theorem remove (h : Stock s foot) {r : RegistryId} {g g' : Registry} {language : String}
    {config : LanguageConfig} {parser : Option ParserId} (hg : s.registries[r]? = some g)
    (hremove : g.remove? language = some (g', config, parser))
    (hretired : ∀ p q, parser = some p → s.parser? p = some q → q.stage = .disposed) :
    Stock (s.modifyRegistry r fun _ => g') foot := by
  rw [Registry.remove?] at hremove
  split at hremove
  · cases hremove
  · simp only [Option.some.injEq, Prod.mk.injEq] at hremove
    obtain ⟨rfl, -, rfl⟩ := hremove
    refine h.modifyRegistry (fun g₀ key entry hg₀ hget => ?_) (fun g₀ key p hg₀ hget => ?_)
      (fun g₀ key p q hg₀ hget hq hinit => ?_)
    · rw [Assoc.get?_erase] at hget
      split at hget
      · cases hget
      · exact h.keyed hg hget
    -- fewer parsers than before
    · rw [hg, Option.some.injEq] at hg₀
      subst hg₀
      rw [Assoc.get?_erase] at hget
      split at hget
      · cases hget
      · exact hget
    · rw [hg, Option.some.injEq] at hg₀
      subst hg₀
      rw [Assoc.get?_erase]
      split
      · rename_i hkey
        rw [hretired p q (hkey ▸ hget) hq] at hinit
        cases hinit
      · exact hget

/-- **Changes of registries keep the stock.** Entering a language touches no parser, and the changes
that forget parsers ask for disposed ones. -/
theorem change (h : Stock s foot) (hchange : Change s s') : Stock s' foot := by
  cases hchange with
  | retire p => exact h.retire p
  | found settings collector => exact h.found settings collector
  | table r path table =>
    exact h.modifyRegistry (fun _ _ _ hg hget => h.keyed hg hget) (fun _ _ _ _ hget => hget)
      fun _ _ _ _ _ hget _ _ => hget
  | enter hnew =>
    refine h.modifyRegistry (fun g key entry hg hget => ?_) (fun _ _ _ _ hget => hget)
      fun _ _ _ _ _ hget _ _ => hget
    rw [Registry.enter, Assoc.get?_set] at hget
    split at hget
    · rename_i hkey
      cases hget
      exact hkey
    · exact h.keyed hg hget
  | remove hg hremove hretired => exact h.remove hg hremove hretired
  -- all that is forgotten is disposed of, so no initialized parser goes missing
  | forget hg hretired =>
    refine h.modifyRegistry (fun _ _ _ hg hget => h.keyed hg hget)
      (fun _ _ _ _ hget => by cases hget)
      fun g₀ key p q hg₀ hget hq hinit => ?_
    rw [hg, Option.some.injEq] at hg₀
    subst hg₀
    rw [hretired p (Assoc.mem_values_of_get? hget) q hq] at hinit
    cases hinit

/-! ## Building and keeping -/

/-- A parser is built: what the registry keeps under its key has been disposed of, as it was not
found fit to be given away. -/
theorem build (h : Stock s (s.standing t ⟨.hold (.registry r) :: D, none⟩))
    (hg : s.registries[r]? = some g) (hkept : s.keptParser? g entry.config.key = none)
    (hstage : q.stage = .uninitialized) :
    Stock (s.addParser q).1 ((s.addParser q).1.standing t
      ⟨.build r entry s.parsers.size :: .hold (.registry r) :: D, none⟩) := by
  have hlater : Later s (s.addParser q).1 := .addParser s q
  have hothers : Undisturbed s (s.addParser q).1 := .of_tasks rfl
  refine ⟨h.keyed, fun hk => h.cached_later hlater hk,
    fun {u r' entry' p p' q'} hbuild hk hq' => ?_,
    fun {p q' r' entry'} hq' hinit horigin => ?_⟩
  · by_cases hu : u = t
    · subst hu
      rw [Service.standing_self] at hbuild
      rcases List.mem_cons.mp hbuild with heq | hmem
      · cases heq
        -- the building that begins now: what is kept under its key was looked up by `keptParser?`
        obtain ⟨g', hg', hget⟩ := hk
        have hg' : s.registries[r]? = some g' := hg'
        rw [hg, Option.some.injEq] at hg'
        subst hg'
        obtain ⟨q₀, -, hq₀, -⟩ := h.cached ⟨g, hg, hget⟩
        obtain ⟨q₁, hq₁, hlater'⟩ := hlater p' q₀ hq₀
        rw [hq', Option.some.injEq] at hq₁
        subst hq₁
        refine hlater'.disposed ?_
        simpa [Service.keptParser?, hget, hq₀, Parser.isDisposed] using hkept
      · exact h.built_later hlater (u := u) (by rwa [Service.standing_self]) hk hq'
    · rw [(hothers.standing t ⟨.hold (.registry r) :: D, none⟩ _ hu).1] at hbuild
      exact h.built_later hlater hbuild hk hq'
  · rcases Service.parser?_of_addParser hq' with ⟨-, rfl⟩ | hq'
    · rw [hstage] at hinit
      cases hinit
    · refine (h.kept hq' hinit horigin).imp_right fun hbuilt => ?_
      obtain ⟨u, hu⟩ := hbuilt
      refine ⟨u, ?_⟩
      by_cases hut : u = t
      · subst hut
        rw [Service.standing_self] at hu ⊢
        exact List.mem_cons_of_mem _ hu
      · rwa [(hothers.standing t ⟨.hold (.registry r) :: D, none⟩ _ hut).1]

/-- The lock of a registry sees to it that no other parser is built for it: whoever builds holds the
lock, and there is one holder, who holds it once. -/
theorem alone (ho : Orderly s (s.standing t ⟨.build r entry p :: .hold (.registry r) :: D, none⟩))
    (hl : Lives s (s.standing t ⟨.build r entry p :: .hold (.registry r) :: D, none⟩))
    (hothers : Undisturbed s s') {u : TaskId} {r' : RegistryId} {entry' : Registration}
    {p' : ParserId}
    (hu : .build r' entry' p' ∈ (s'.standing t ⟨.hold (.registry r) :: D, none⟩ u).duties) :
    .build r' entry' p' ∈
      (s.standing t ⟨.build r entry p :: .hold (.registry r) :: D, none⟩ u).duties ∧ r' ≠ r := by
  have hstack := hl.stacked t
  by_cases hut : u = t
  · subst hut
    rw [Service.standing_self] at hu hstack ⊢
    -- a second build for the registry would hold its lock a second time
    refine ⟨List.mem_cons_of_mem _ hu, ?_⟩
    rintro rfl
    have hD : .build r' entry' p' ∈ D := (List.mem_cons.mp hu).resolve_left (fun h => by cases h)
    exact ho.not_held_below rfl (hstack.tail.tail.of_build hD).1
  · rw [(hothers.standing t ⟨.build r entry p :: .hold (.registry r) :: D, none⟩ _ hut).1] at hu
    refine ⟨hu, ?_⟩
    rintro rfl
    -- whoever builds for the registry holds its lock, and one task holds it
    have hlock := Footing.mem_locks.mpr ((hl.stacked u).of_build hu).1
    have hlock' : .registry r' ∈
        (s.standing t ⟨.build r' entry p :: .hold (.registry r') :: D, none⟩ t).locks := by
      rw [Service.standing_self]
      exact Footing.mem_locks.mpr (by simp)
    exact hut ((ho.locks (.registry r')).unique hlock hlock')

/-- The parser that was built is kept. It takes the place of a parser that was disposed of, if it
takes any. -/
theorem keep (ho : Orderly s (s.standing t ⟨.build r entry p :: .hold (.registry r) :: D, none⟩))
    (hl : Lives s (s.standing t ⟨.build r entry p :: .hold (.registry r) :: D, none⟩))
    (h : Stock s (s.standing t ⟨.build r entry p :: .hold (.registry r) :: D, none⟩))
    (hp : s.parser? p = some q) (hstage : q.stage = .initialized) :
    Stock (s.keep r entry.config.key p)
      ((s.keep r entry.config.key p).standing t ⟨.hold (.registry r) :: D, none⟩) := by
  have hothers : Undisturbed s (s.keep r entry.config.key p) := .of_tasks rfl
  have hown : .build r entry p
      ∈ (s.standing t ⟨.build r entry p :: .hold (.registry r) :: D, none⟩ t).duties := by
    rw [Service.standing_self]
    exact List.mem_cons_self ..
  -- the duty of building it says where it comes from, and that the registry is there
  obtain ⟨-, hr, q₀, hq₀, horigin₀⟩ := (hl.stacked t).of_build hown
  rw [hp, Option.some.injEq] at hq₀
  subst hq₀
  refine ⟨fun {r' g' key entry'} hg' hget => ?_, fun {r' key p'} hk => ?_,
    fun {u r' entry' p' p'' q'} hbuild hk hq' => ?_, fun {p' q' r' entry'} hq' hinit horigin => ?_⟩
  · rcases Service.registry_of_modifyRegistry hg' with ⟨rfl, g, hg, rfl⟩ | ⟨-, hg⟩
    · exact h.keyed hg hget
    · exact h.keyed hg hget
  · rcases hk.of_keep with hk | ⟨rfl, rfl, rfl⟩
    · exact h.cached hk
    · exact ⟨q, entry, hp, by simp [Parser.isSettled, Parser.isInitialized, hstage], horigin₀, rfl⟩
  · obtain ⟨hbuild, hne⟩ := alone ho hl hothers hbuild
    rcases hk.of_keep with hk | ⟨rfl, -, -⟩
    · exact h.built hbuild hk hq'
    · exact absurd rfl hne
  · have hq' : s.parser? p' = some q' := hq'
    rcases h.kept hq' hinit horigin with hk | ⟨u, hu⟩
    · -- a parser that is replaced has been disposed of
      refine Or.inl (hk.modifyRegistry fun g heq hg hget => ?_)
      subst heq
      by_cases hkey : entry.config.key = entry'.config.key
      · rw [h.built hown (hkey ▸ hk) hq'] at hinit
        cases hinit
      · rw [Assoc.get?_set, if_neg hkey, hget]
    · by_cases hut : u = t
      · subst hut
        rw [Service.standing_self] at hu
        rcases List.mem_cons.mp hu with heq | hmem
        · cases heq
          exact Or.inl (Service.keeps_keep hr _ _)
        · exact Or.inr ⟨u, by rwa [Service.standing_self]⟩
      · refine Or.inr ⟨u, ?_⟩
        rwa [(hothers.standing t ⟨.build r entry p :: .hold (.registry r) :: D, none⟩ _ hut).1]

/-- The parser that was built is given up; it is not initialized. -/
theorem abandon (h : Stock s (s.standing t ⟨.build r entry p :: D, none⟩))
    (hp : ∀ q, s.parser? p = some q → q.stage ≠ .initialized) :
    Stock s (s.standing t ⟨D, none⟩) := by
  have hothers : Undisturbed s s := .of_tasks rfl
  refine ⟨h.keyed, h.cached, fun {u r' entry' p' p'' q'} hbuild hk hq' => ?_,
    fun {p' q' r' entry'} hq' hinit horigin => ?_⟩
  · have hbuild' : .build r' entry' p' ∈ (s.standing t ⟨.build r entry p :: D, none⟩ u).duties := by
      by_cases hut : u = t
      · subst hut
        rw [Service.standing_self] at hbuild ⊢
        exact List.mem_cons_of_mem _ hbuild
      · rwa [(hothers.standing t ⟨.build r entry p :: D, none⟩ _ hut).1] at hbuild
    exact h.built hbuild' hk hq'
  · refine (h.kept hq' hinit horigin).imp_right fun ⟨u, hu⟩ => ⟨u, ?_⟩
    by_cases hut : u = t
    · subst hut
      rw [Service.standing_self] at hu ⊢
      -- the build that was given up is not the one of an initialized parser
      rcases List.mem_cons.mp hu with heq | hmem
      · cases heq
        exact absurd hinit (hp q' hq')
      · exact hmem
    · rwa [(hothers.standing t ⟨.build r entry p :: D, none⟩ _ hut).1]

/-- **What a task does when it asks a registry keeps the stock.** -/
theorem deal {x y : Stance} (hdeal : Deal t x y) (ho : Orderly x.1 (x.1.standing t x.2))
    (hl : Lives x.1 (x.1.standing t x.2)) (h : Stock x.1 (x.1.standing t x.2)) :
    Stock y.1 (y.1.standing t y.2) := by
  cases hdeal with
  | move hmove => exact h.move hmove hl
  | change hchange _ =>
    rw [Service.standing_of_tasks hchange.traffic.tasks]
    exact h.change hchange
  | build hg _ hkept _ hstage _ _ => exact h.build hg hkept hstage
  | keep hp hstage => exact keep ho hl h hp hstage
  | abandon hp => exact h.abandon hp

end Stock

end SyntaxForest
