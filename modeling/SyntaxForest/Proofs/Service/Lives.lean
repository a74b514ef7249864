import SyntaxForest.Proofs.Service.Waiting

/-!
# The lives of parsers

How often the grammar of a parser was loaded and let go follows its stage, and a load is under way
if and only if a task has it to end.

* **`Parser.Sound`** — the counts of a parser fit its stage: one load at a time, at most one that
  succeeds or runs out of memory, and a grammar that was loaded is let go once, when the parser is
  disposed of.
* **`Stacked`** — duties come in the order in which calls take them on. A load stands on the lock
  that it needs, and on the building of the parser if the parser was built for a registry.
* **`Lives`**, **`Lives.move`**, **`Lives.deal`** — the agreement of parsers with tasks, and that
  tasks keep it.
-/

namespace SyntaxForest

/-! ## Counts and stages -/

namespace Parser

/-- The counts of a parser fit its stage. A load that ran out of memory counts like one that is
still under way: it leaves the parser in the middle of its initialization for good, so that there
never is a second load beside it. -/
structure Sound (q : Parser) : Prop where
  peak : q.tally.loadPeak ≤ 1
  once : q.tally.loading + q.tally.exhausted + q.tally.loaded ≤ 1
  idle : q.stage = .uninitialized → q.tally.loading + q.tally.exhausted + q.tally.loaded = 0
  busy : q.stage = .initializing → q.tally.loading + q.tally.exhausted = 1
  ready : q.stage = .initialized → q.tally.loaded = 1
  released : q.tally.disposals = if q.stage = .disposed then q.tally.loaded else 0
  grammar : q.grammarLoaded = q.isInitialized

namespace Sound

variable {q : Parser}

theorem fresh (hstage : q.stage = .uninitialized) (htally : q.tally = {})
    (hgrammar : q.grammarLoaded = false) : q.Sound := by
  constructor <;> simp [hstage, htally, hgrammar, isInitialized]

theorem stage_of_loading (h : q.Sound) (hloading : q.tally.loading = 1) :
    q.stage = .initializing ∨ q.stage = .disposed := by
  cases hstage : q.stage with
  | uninitialized =>
    have := h.idle hstage
    omega
  | initialized =>
    have := h.ready hstage
    have := h.once
    omega
  | initializing => exact Or.inl rfl
  | disposed => exact Or.inr rfl

theorem beginLoad (h : q.Sound) (hstage : q.stage = .uninitialized) : q.beginLoad.Sound := by
  have hidle := h.idle hstage
  have hloading : q.tally.loading = 0 := by omega
  have hreleased : q.tally.disposals = 0 := by simpa [hstage] using h.released
  have hgrammar : q.grammarLoaded = false := by simpa [isInitialized, hstage] using h.grammar
  refine ⟨?_, ?_, (fun h => by cases h), fun _ => ?_, (fun h => by cases h), hreleased, hgrammar⟩
  · show max q.tally.loadPeak (q.tally.loading + 1) ≤ 1
    have := h.peak
    omega
  · show q.tally.loading + 1 + q.tally.exhausted + q.tally.loaded ≤ 1
    omega
  · show q.tally.loading + 1 + q.tally.exhausted = 1
    omega

theorem loading_beginLoad (h : q.Sound) (hstage : q.stage = .uninitialized) :
    q.beginLoad.tally.loading = 1 := by
  have hidle := h.idle hstage
  show q.tally.loading + 1 = 1
  omega

/-- A load ends well: the parser is initialized, or the grammar is let go at once because the parser
was disposed of meanwhile. -/
theorem settleLoad_ok (h : q.Sound) (hloading : q.tally.loading = 1) :
    (q.settleLoad (.ok ())).Sound := by
  have honce := h.once
  -- there was one load under way, so none has succeeded before
  have hloaded : q.tally.loaded = 0 := by omega
  rw [Parser.settleLoad]
  rcases h.stage_of_loading hloading with hstage | hstage
  · have hnot : ¬(q.isDisposed = true) := by simp [isDisposed, hstage]
    have hreleased : q.tally.disposals = 0 := by simpa [hstage] using h.released
    rw [if_neg hnot]
    refine ⟨h.peak, ?_, (fun h => by cases h), (fun h => by cases h), fun _ => ?_, hreleased, rfl⟩
    · show q.tally.loading - 1 + q.tally.exhausted + (q.tally.loaded + 1) ≤ 1
      omega
    · show q.tally.loaded + 1 = 1
      omega
  · have hreleased : q.tally.disposals = q.tally.loaded := by simpa [hstage] using h.released
    have hstage' : ((q.endLoad (.ok ())).releaseEngine).stage = .disposed := hstage
    have hyes : q.isDisposed = true := decide_eq_true hstage
    rw [if_pos hyes]
    refine ⟨h.peak, ?_, fun h => ?_, fun h => ?_, fun h => ?_, ?_, ?_⟩
    · show q.tally.loading - 1 + q.tally.exhausted + (q.tally.loaded + 1) ≤ 1
      omega
    · rw [hstage'] at h
      cases h
    · rw [hstage'] at h
      cases h
    · rw [hstage'] at h
      cases h
    · rw [if_pos hstage']
      show q.tally.disposals + 1 = q.tally.loaded + 1
      rw [hreleased]
    · rw [isInitialized, hstage']
      rfl

/-- A load fails: the parser goes back to its first stage, unless memory ran out. Then it stays
where it is, and the failed load goes on being counted. -/
theorem settleLoad_error (h : q.Sound) (hloading : q.tally.loading = 1) (fault : Fault) :
    (q.settleLoad (.error fault)).Sound := by
  have honce := h.once
  have hgrammar : q.grammarLoaded = false := by
    have := h.grammar
    rcases h.stage_of_loading hloading with hstage | hstage <;> simpa [isInitialized, hstage]
      using this
  have hreleased : q.tally.disposals = 0 := by
    have := h.released
    split at this <;> omega
  rw [Parser.settleLoad, endLoad]
  -- memory first: this is the case in which the stage stays and another count goes up
  by_cases hmemory : fault.isOutOfMemory = true
  · simp only [hmemory, Bool.not_true, Bool.false_and, Bool.false_eq_true, if_false, if_true]
    refine ⟨h.peak, ?_, fun hstage => ?_, fun _ => ?_, fun hstage => ?_, ?_, h.grammar⟩
    · show q.tally.loading - 1 + (q.tally.exhausted + 1) + q.tally.loaded ≤ 1
      omega
    · have := h.idle hstage
      omega
    · show q.tally.loading - 1 + (q.tally.exhausted + 1) = 1
      omega
    · have := h.ready hstage
      omega
    · exact h.released
  · simp only [hmemory, Bool.not_false, Bool.true_and, Bool.false_eq_true, if_false,
      decide_eq_true_eq]
    split
    · refine ⟨h.peak, ?_, fun _ => ?_, (fun h => by cases h), (fun h => by cases h),
        hreleased, hgrammar⟩
      · show q.tally.loading - 1 + q.tally.exhausted + q.tally.loaded ≤ 1
        omega
      · show q.tally.loading - 1 + q.tally.exhausted + q.tally.loaded = 0
        omega
    · rename_i hnot
      refine ⟨h.peak, ?_, fun hstage => ?_, fun hstage => absurd hstage hnot, fun hstage => ?_,
        h.released, h.grammar⟩
      · show q.tally.loading - 1 + q.tally.exhausted + q.tally.loaded ≤ 1
        omega
      · have := h.idle hstage
        omega
      · have := h.ready hstage
        omega

/-- **The end of a load keeps the counts in step with the stage**, whether the load succeeded or
failed. -/
theorem settleLoad (h : q.Sound) (hloading : q.tally.loading = 1) (result : Except Fault Unit) :
    (q.settleLoad result).Sound := by
  cases result with
  | ok _ => exact h.settleLoad_ok hloading
  | error fault => exact h.settleLoad_error hloading fault

/-- A disposal keeps the counts in step: an initialized parser lets go of the grammar that it
loaded, and any other has none to let go of. -/
theorem retire (h : q.Sound) : q.retire.Sound := by
  rw [Parser.retire]
  split
  · exact h
  · rename_i hdisposed
    have hstage : q.stage ≠ .disposed := fun h => hdisposed (decide_eq_true h)
    have hreleased : q.tally.disposals = 0 := by simpa [hstage] using h.released
    split
    · rename_i hinit
      have hloaded := h.ready (of_decide_eq_true hinit)
      refine ⟨h.peak, h.once, (fun h => by cases h), (fun h => by cases h), (fun h => by cases h),
        ?_, rfl⟩
      show q.tally.disposals + 1 = q.tally.loaded
      omega
    · rename_i hinit
      -- a parser that is neither initialized nor disposed of has no loaded grammar
      have hloaded : q.tally.loaded = 0 := by
        have honce := h.once
        cases hq : q.stage with
        | uninitialized =>
          have := h.idle hq
          omega
        | initializing =>
          have := h.busy hq
          omega
        | initialized => exact absurd (decide_eq_true hq) hinit
        | disposed => exact absurd hq hstage
      refine ⟨h.peak, h.once, (fun h => by cases h), (fun h => by cases h),
        (fun h => by cases h), ?_, ?_⟩
      · show q.tally.disposals = q.tally.loaded
        omega
      · rw [h.grammar, Bool.eq_false_iff.mpr hinit]
        rfl

end Sound

@[simp] theorem loading_settleLoad (q : Parser) (result : Except Fault Unit) :
    (q.settleLoad result).tally.loading = q.tally.loading - 1 := by
  cases result with
  | ok _ =>
    rw [settleLoad]
    split <;> rfl
  | error fault =>
    rw [settleLoad, endLoad]
    split <;> split <;> rfl

@[simp] theorem loading_retire (q : Parser) : q.retire.tally.loading = q.tally.loading := by
  rw [retire]
  split
  · rfl
  · split <;> rfl

end Parser

/-! ## The order of duties -/

/-- Duties as calls take them on. Each constructor says what a duty stands on: a load on the lock of
the life cycle, the engine on the lock of parsing, and building on the lock of the registry. -/
inductive Stacked (s : Service) : List Duty → Prop
  | nil : Stacked s []
  | hold {D : List Duty} {id : LockId} (hid : s.Knows id) (h : Stacked s D) :
      Stacked s (.hold id :: D)
  | load {D : List Duty} {p : ParserId} {q : Parser} (hp : s.parser? p = some q)
      (hmay : q.origin = none ∨ ∃ r entry, .build r entry p ∈ D)
      (h : Stacked s (.hold (.lifecycle p) :: D)) : Stacked s (.load p :: .hold (.lifecycle p) :: D)
  | engine {D : List Duty} {p : ParserId} (h : Stacked s (.hold (.parsing p) :: D)) :
      Stacked s (.engine p :: .hold (.parsing p) :: D)
  | build {D : List Duty} {r : RegistryId} {entry : Registration} {p : ParserId} {q : Parser}
      (hr : r < s.registries.size) (hp : s.parser? p = some q)
      (horigin : q.origin = some (r, entry)) (h : Stacked s (.hold (.registry r) :: D)) :
      Stacked s (.build r entry p :: .hold (.registry r) :: D)

namespace Stacked

variable {s s' : Service} {D : List Duty}

theorem later (h : Stacked s D) (hlater : Later s s')
    (hsize : s.registries.size ≤ s'.registries.size) :
    Stacked s' D := by
  induction h with
  | nil => exact .nil
  | hold hid _ ih => exact .hold (hid.later hlater) ih
  | load hp hmay _ ih =>
    obtain ⟨q', hq', hlater'⟩ := hlater _ _ hp
    exact .load hq' (hlater'.origin ▸ hmay) ih
  | engine _ ih => exact .engine ih
  | build hr hp horigin _ ih =>
    obtain ⟨q', hq', hlater'⟩ := hlater _ _ hp
    exact .build (Nat.lt_of_lt_of_le hr hsize) hq' (hlater'.origin ▸ horigin) ih

theorem tail {d : Duty} (h : Stacked s (d :: D)) : Stacked s D := by
  cases h <;> assumption

theorem of_mem (h : Stacked s D) {d : Duty} (hd : d ∈ D) :
    ∃ below, Stacked s (d :: below) ∧ ∀ d' ∈ below, d' ∈ D := by
  induction D with
  | nil => cases hd
  | cons first rest ih =>
    rcases List.mem_cons.mp hd with rfl | hrest
    · exact ⟨rest, h, fun _ => List.mem_cons_of_mem _⟩
    · obtain ⟨below, hbelow, hsub⟩ := ih h.tail hrest
      exact ⟨below, hbelow, fun d' hd' => List.mem_cons_of_mem _ (hsub d' hd')⟩

theorem knows (h : Stacked s D) {id : LockId} (hid : .hold id ∈ D) : s.Knows id := by
  obtain ⟨below, hbelow, -⟩ := h.of_mem hid
  cases hbelow
  assumption

theorem of_load (h : Stacked s D) {p : ParserId} (hload : .load p ∈ D) :
    .hold (.lifecycle p) ∈ D ∧ ∃ q, s.parser? p = some q
      ∧ (q.origin = none ∨ ∃ r entry, .build r entry p ∈ D) := by
  obtain ⟨below, hbelow, hsub⟩ := h.of_mem hload
  cases hbelow with
  | load hp hmay _ =>
    refine ⟨hsub _ (List.mem_cons_self ..), _, hp, hmay.imp_right fun ⟨r, entry, hmem⟩ => ?_⟩
    exact ⟨r, entry, hsub _ (List.mem_cons_of_mem _ hmem)⟩

theorem of_build (h : Stacked s D) {r : RegistryId} {entry : Registration} {p : ParserId}
    (hbuild : .build r entry p ∈ D) :
    .hold (.registry r) ∈ D ∧ r < s.registries.size
      ∧ ∃ q, s.parser? p = some q ∧ q.origin = some (r, entry) := by
  obtain ⟨below, hbelow, hsub⟩ := h.of_mem hbuild
  cases hbelow with
  | build hr hp horigin _ => exact ⟨hsub _ (List.mem_cons_self ..), hr, _, hp, horigin⟩

end Stacked

/-! ## Parsers agree with tasks -/

/-- Parsers agree with tasks. The counts of every parser fit its stage, and a load is under way if
and only if one of the tasks has it to end. -/
structure Lives (s : Service) (foot : TaskId → Footing) : Prop where
  stacked : ∀ u, Stacked s (foot u).duties
  waits : ∀ {u : TaskId} {id : LockId}, (foot u).waitsFor = some (.lock id) → s.Knows id
  sound : ∀ {p : ParserId} {q : Parser}, s.parser? p = some q → q.Sound
  loading : ∀ {p : ParserId} {q : Parser}, s.parser? p = some q →
    (q.tally.loading = 1 ↔ ∃ u, .load p ∈ (foot u).duties)

theorem Undisturbed.exists_duty {s s' : Service} (h : Undisturbed s s') {t : TaskId}
    {F F' : Footing} {d : Duty} (hown : d ∈ F'.duties ↔ d ∈ F.duties) :
    (∃ u, d ∈ (s'.standing t F' u).duties) ↔ ∃ u, d ∈ (s.standing t F u).duties := by
  have heach : ∀ u, d ∈ (s'.standing t F' u).duties ↔ d ∈ (s.standing t F u).duties := fun u => by
    by_cases hu : u = t
    · subst hu
      rw [Service.standing_self, Service.standing_self, hown]
    · rw [(h.standing t F F' hu).1]
  simp only [heach]

namespace Lives

variable {s s' : Service} {foot : TaskId → Footing} {t : TaskId}

theorem stage_of_load (h : Lives s foot) {u : TaskId} {p : ParserId}
    (hload : .load p ∈ (foot u).duties) :
    ∃ q, s.parser? p = some q ∧ (q.stage = .initializing ∨ q.stage = .disposed) := by
  obtain ⟨-, q, hq, -⟩ := (h.stacked u).of_load hload
  exact ⟨q, hq, (h.sound hq).stage_of_loading ((h.loading hq).mpr ⟨u, hload⟩)⟩

/-- What has to be looked at after a move: the running task, and the parsers. -/
theorem next {x y : Stance} (h : Lives x.1 (x.1.standing t x.2)) (hlater : Later x.1 y.1)
    (hsize : x.1.registries.size ≤ y.1.registries.size) (hothers : Undisturbed x.1 y.1)
    (hstack : Stacked y.1 y.2.duties)
    (hwait : ∀ id, y.2.waitsFor = some (.lock id) → y.1.Knows id)
    (hparsers : ∀ p q, y.1.parser? p = some q →
      q.Sound ∧ (q.tally.loading = 1 ↔ ∃ u, .load p ∈ (y.1.standing t y.2 u).duties)) :
    Lives y.1 (y.1.standing t y.2) := by
  refine ⟨fun u => ?_, fun {u id} hid => ?_, fun hq => (hparsers _ _ hq).1,
    fun hq => (hparsers _ _ hq).2⟩
  · by_cases hu : u = t
    · subst hu
      rwa [Service.standing_self]
    · rw [(hothers.standing t x.2 y.2 hu).1]
      exact (h.stacked u).later hlater hsize
  · by_cases hu : u = t
    · subst hu
      rw [Service.standing_self] at hid
      exact hwait id hid
    · rw [(hothers.standing t x.2 y.2 hu).2] at hid
      exact (h.waits hid).later hlater

theorem parsers_same {x y : Stance} (h : Lives x.1 (x.1.standing t x.2))
    (hothers : Undisturbed x.1 y.1) (hown : ∀ p, .load p ∈ y.2.duties ↔ .load p ∈ x.2.duties)
    (hsame : ∀ p q', y.1.parser? p = some q' → ∃ q, x.1.parser? p = some q
      ∧ (q.Sound → q'.Sound) ∧ q'.tally.loading = q.tally.loading)
    (p : ParserId) (q' : Parser) (hq' : y.1.parser? p = some q') :
    q'.Sound ∧ (q'.tally.loading = 1 ↔ ∃ u, .load p ∈ (y.1.standing t y.2 u).duties) := by
  obtain ⟨q, hq, hsound, hloading⟩ := hsame p q' hq'
  refine ⟨hsound (h.sound hq), ?_⟩
  rw [hloading, hothers.exists_duty (hown p)]
  exact h.loading hq

end Lives

theorem Service.parser?_of_modifyParser {s : Service} {p p' : ParserId} {change : Parser → Parser}
    {q' : Parser} (h : (s.modifyParser p change).parser? p' = some q') :
    (p = p' ∧ ∃ q, s.parser? p = some q ∧ q' = change q) ∨ (p ≠ p' ∧ s.parser? p' = some q') := by
  rw [parser?_modifyParser] at h
  split at h
  · rename_i heq
    subst heq
    obtain ⟨q, hq, rfl⟩ := Option.map_eq_some_iff.mp h
    exact Or.inl ⟨rfl, q, hq, rfl⟩
  · rename_i hne
    exact Or.inr ⟨hne, h⟩

namespace Lives

variable {s s' : Service} {t : TaskId}

theorem same_of_modifyParser {p : ParserId} {change : Parser → Parser}
    (hsound : ∀ q : Parser, q.Sound → (change q).Sound)
    (hloading : ∀ q : Parser, (change q).tally.loading = q.tally.loading) (p' : ParserId)
    (q' : Parser) (hq' : (s.modifyParser p change).parser? p' = some q') :
    ∃ q, s.parser? p' = some q ∧ (q.Sound → q'.Sound) ∧ q'.tally.loading = q.tally.loading := by
  rcases Service.parser?_of_modifyParser hq' with ⟨rfl, q, hq, rfl⟩ | ⟨-, hq⟩
  · exact ⟨q, hq, hsound q, hloading q⟩
  · exact ⟨q', hq, id, rfl⟩

theorem same_of_parsers (h : s'.parsers = s.parsers) (p : ParserId) (q' : Parser)
    (hq' : s'.parser? p = some q') :
    ∃ q, s.parser? p = some q ∧ (q.Sound → q'.Sound) ∧ q'.tally.loading = q.tally.loading :=
  ⟨q', by rwa [Service.parser?, ← h], id, rfl⟩

theorem beginLoad {D : List Duty} {p : ParserId} {q : Parser}
    (h : Lives s (s.standing t ⟨.hold (.lifecycle p) :: D, none⟩)) (hp : s.parser? p = some q)
    (hstage : q.stage = .uninitialized) (p' : ParserId) (q' : Parser)
    (hq' : (s.modifyParser p Parser.beginLoad).parser? p' = some q') :
    q'.Sound ∧ (q'.tally.loading = 1
      ↔ ∃ u, .load p' ∈ ((s.modifyParser p Parser.beginLoad).standing t
      ⟨.load p :: .hold (.lifecycle p) :: D, none⟩ u).duties) := by
  have hothers : Undisturbed s (s.modifyParser p Parser.beginLoad) := .of_tasks rfl
  rcases Service.parser?_of_modifyParser hq' with ⟨rfl, q₀, hq₀, rfl⟩ | ⟨hne, hq'⟩
  · rw [hp, Option.some.injEq] at hq₀
    subst hq₀
    have hsound := h.sound hp
    refine ⟨hsound.beginLoad hstage, fun _ => ⟨t, ?_⟩, fun _ => hsound.loading_beginLoad hstage⟩
    rw [Service.standing_self]
    exact List.mem_cons_self ..
  · refine ⟨h.sound hq', (h.loading hq').trans (hothers.exists_duty ?_).symm⟩
    simp [Ne.symm hne]

/-- Nobody loads the grammar once the load has ended: whoever else had it to end would hold the same
lock. -/
theorem endLoad {D : List Duty} {p : ParserId}
    (ho : Orderly s (s.standing t ⟨.load p :: .hold (.lifecycle p) :: D, none⟩))
    (h : Lives s (s.standing t ⟨.load p :: .hold (.lifecycle p) :: D, none⟩))
    (result : Except Fault Unit) (p' : ParserId) (q' : Parser)
    (hq' : (s.modifyParser p (Parser.settleLoad result)).parser? p' = some q') :
    q'.Sound ∧ (q'.tally.loading = 1 ↔ ∃ u, .load p' ∈
      ((s.modifyParser p (Parser.settleLoad result)).standing t
        ⟨.hold (.lifecycle p) :: D, none⟩ u).duties) := by
  have hothers : Undisturbed s (s.modifyParser p (Parser.settleLoad result)) := .of_tasks rfl
  have hown : Stacked s (.load p :: .hold (.lifecycle p) :: D) := by
    have := h.stacked t
    rwa [Service.standing_self] at this
  -- the running task still holds the lock of the life cycle
  have hheld : LockId.lifecycle p
      ∈ (s.standing t ⟨.load p :: .hold (.lifecycle p) :: D, none⟩ t).locks := by
    rw [Service.standing_self]
    exact Footing.mem_locks.mpr (by simp)
  rcases Service.parser?_of_modifyParser hq' with ⟨rfl, q, hq, rfl⟩ | ⟨hne, hq'⟩
  · have hloading : q.tally.loading = 1 :=
      (h.loading hq).mpr ⟨t, by rw [Service.standing_self]; exact List.mem_cons_self ..⟩
    refine ⟨(h.sound hq).settleLoad hloading result, ?_⟩
    rw [Parser.loading_settleLoad, hloading]
    refine ⟨(fun h => by cases h), fun ⟨u, hu⟩ => ?_⟩
    by_cases hut : u = t
    · -- a second load of the task would stand on the lock a second time
      subst hut
      rw [Service.standing_self] at hu
      have hD : .load p ∈ D := (List.mem_cons.mp hu).resolve_left (fun h => by cases h)
      exact absurd (hown.tail.tail.of_load hD).1 (ho.not_held_below rfl)
    · rw [(hothers.standing t ⟨.load p :: .hold (.lifecycle p) :: D, none⟩ _ hut).1] at hu
      have hlock := ((h.stacked u).of_load hu).1
      exact absurd ((ho.locks (.lifecycle p)).unique (Footing.mem_locks.mpr hlock) hheld) hut
  · refine ⟨h.sound hq', (h.loading hq').trans (hothers.exists_duty ?_).symm⟩
    simp [Ne.symm hne]

/-- **What a task does with locks and parsers keeps parsers and tasks in agreement.** Most moves
concern neither loads nor counts; the beginning and the end of a load have lemmas of their own. -/
theorem move {x y : Stance} (hmove : Move t x y) (ho : Orderly x.1 (x.1.standing t x.2))
    (h : Lives x.1 (x.1.standing t x.2)) : Lives y.1 (y.1.standing t y.2) := by
  have hsize : x.1.registries.size ≤ y.1.registries.size :=
    Nat.le_of_eq (congrArg Array.size hmove.registries.symm)
  -- the duties of the running task before the move, seen in the service after it
  have hstack : Stacked y.1 x.2.duties := by
    have := h.stacked t
    rw [Service.standing_self] at this
    exact this.later hmove.later hsize
  have hnext := h.next hmove.later hsize hmove.undisturbed
  have hsame := h.parsers_same hmove.undisturbed
  cases hmove with
  | quiet hquiet =>
    refine hnext hstack (fun id hid => ?_)
      (hsame (fun _ => Iff.rfl) (same_of_parsers hquiet.parsers))
    exact (h.waits (u := t) (by rwa [Service.standing_self])).later (.of_parsers hquiet.parsers)
  | retire p =>
    refine hnext hstack (fun id hid => ?_) (hsame (fun _ => Iff.rfl)
      (same_of_modifyParser (fun _ => .retire) Parser.loading_retire))
    exact (h.waits (u := t) (by rwa [Service.standing_self])).later
      (.modifyParser fun q _ => q.later_retire)
  | arrive =>
    rename_i s D id
    have hid : s.Knows id := h.waits (u := t) (by rw [Service.standing_self]; rfl)
    exact hnext (.hold (hid.later (.of_parsers (Service.parsers_endWait ..))) hstack)
      (fun _ h => by cases h)
      (hsame (by simp) (same_of_parsers (Service.parsers_endWait ..)))
  | goOn =>
    exact hnext hstack (fun _ h => by cases h)
      (hsame (fun _ => Iff.rfl) (same_of_parsers (Service.parsers_endWait ..)))
  | take hfree hid =>
    exact hnext (.hold hid hstack) (fun _ h => by cases h) (hsame (by simp) (same_of_parsers rfl))
  | queue hid =>
    refine hnext hstack (fun id' hid' => ?_) (hsame (fun _ => Iff.rfl) (same_of_parsers rfl))
    cases hid'
    exact hid
  | release =>
    exact hnext hstack.tail (fun _ h => by cases h)
      (hsame (by simp) (same_of_parsers (Service.parsers_setLockAndWake ..)))
  | gate =>
    exact hnext hstack (fun _ h => by cases h) (hsame (fun _ => Iff.rfl) (same_of_parsers rfl))
  | work =>
    exact hnext hstack (fun _ h => by cases h) (hsame (fun _ => Iff.rfl) (same_of_parsers rfl))
  | beginLoad hp hstage hmay =>
    exact hnext (.load (Service.parser?_modifyParser_self hp _) hmay hstack) (fun _ h => by cases h)
      (h.beginLoad hp hstage)
  | endLoad result => exact hnext hstack.tail (fun _ h => by cases h) (endLoad ho h result)
  | startParse =>
    exact hnext (.engine hstack) (fun _ h => by cases h) (hsame (by simp) (same_of_modifyParser
      (fun _ h => ⟨h.peak, h.once, h.idle, h.busy, h.ready, h.released, h.grammar⟩) fun _ => rfl))
  | endParse =>
    exact hnext hstack.tail (fun _ h => by cases h) (hsame (by simp) (same_of_modifyParser
      (fun _ h => ⟨h.peak, h.once, h.idle, h.busy, h.ready, h.released, h.grammar⟩) fun _ => rfl))

theorem carry {foot foot' : TaskId → Footing} (h : Lives s foot) (hlater : Later s s')
    (hsize : s.registries.size ≤ s'.registries.size)
    (hfoot : ∀ u, (foot' u).duties = (foot u).duties ∧ (foot' u).waitsFor = (foot u).waitsFor)
    (hsame : ∀ p q', s'.parser? p = some q' → ∃ q, s.parser? p = some q
      ∧ (q.Sound → q'.Sound) ∧ q'.tally.loading = q.tally.loading) : Lives s' foot' := by
  refine ⟨fun u => ?_, fun {u id} hid => ?_, fun {p q'} hq' => ?_, fun {p q'} hq' => ?_⟩
  · rw [(hfoot u).1]
    exact (h.stacked u).later hlater hsize
  · rw [(hfoot u).2] at hid
    exact (h.waits hid).later hlater
  · obtain ⟨q, hq, hsound, -⟩ := hsame p q' hq'
    exact hsound (h.sound hq)
  · obtain ⟨q, hq, -, hloading⟩ := hsame p q' hq'
    simp only [(hfoot _).1]
    rw [hloading]
    exact h.loading hq

theorem change {foot : TaskId → Footing} (h : Lives s foot) (hchange : Change s s') :
    Lives s' foot := by
  refine h.carry hchange.later hchange.size_registries (fun _ => ⟨rfl, rfl⟩) ?_
  cases hchange with
  | retire p => exact same_of_modifyParser (fun _ => .retire) Parser.loading_retire
  | found => exact same_of_parsers rfl
  | table => exact same_of_parsers rfl
  | enter => exact same_of_parsers rfl
  | remove => exact same_of_parsers rfl
  | forget => exact same_of_parsers rfl

end Lives

theorem Service.parser?_of_addParser {s : Service} {new : Parser} {p : ParserId} {q : Parser}
    (h : (s.addParser new).1.parser? p = some q) :
    (p = s.parsers.size ∧ q = new) ∨ s.parser? p = some q := by
  rw [parser?, addParser, Array.getElem?_push] at h
  split at h
  · rename_i heq
    cases h
    exact Or.inl ⟨heq, rfl⟩
  · exact Or.inr h

namespace Lives

variable {s s' : Service} {t : TaskId}

theorem not_loading {foot : TaskId → Footing} (h : Lives s foot) (u : TaskId) {p : ParserId}
    (hp : s.parsers.size ≤ p) : .load p ∉ (foot u).duties := by
  intro hload
  obtain ⟨-, q, hq, -⟩ := (h.stacked u).of_load hload
  have := (Array.getElem?_eq_some_iff.mp hq).1
  omega

theorem addParser {foot : TaskId → Footing} (h : Lives s foot) {new : Parser}
    (hstage : new.stage = .uninitialized) (htally : new.tally = {})
    (hgrammar : new.grammarLoaded = false) (p : ParserId) (q : Parser)
    (hq : (s.addParser new).1.parser? p = some q) :
    q.Sound ∧ (q.tally.loading = 1 ↔ ∃ u, .load p ∈ (foot u).duties) := by
  rcases Service.parser?_of_addParser hq with ⟨rfl, rfl⟩ | hq
  · refine ⟨.fresh hstage htally hgrammar, fun hloading => ?_, fun ⟨u, hu⟩ => ?_⟩
    · rw [htally] at hloading
      cases hloading
    · exact absurd hu (h.not_loading u (Nat.le_refl _))
  · exact ⟨h.sound hq, h.loading hq⟩

/-- **What a task does when it asks a registry keeps parsers and tasks in agreement.** Each deal
adds or takes away duties at the top of the stack of its own task, and leaves those of others
alone. -/
theorem deal {x y : Stance} (hdeal : Deal t x y) (ho : Orderly x.1 (x.1.standing t x.2))
    (h : Lives x.1 (x.1.standing t x.2)) : Lives y.1 (y.1.standing t y.2) := by
  have hstack : Stacked y.1 x.2.duties := by
    have := h.stacked t
    rw [Service.standing_self] at this
    exact this.later hdeal.later hdeal.size_registries
  have hnext := h.next hdeal.later hdeal.size_registries hdeal.undisturbed
  have hsame := h.parsers_same hdeal.undisturbed
  have hothers := hdeal.undisturbed
  cases hdeal with
  | move hmove => exact h.move hmove ho
  | change hchange _ =>
    rw [Service.standing_of_tasks hchange.traffic.tasks]
    exact h.change hchange
  | build hg hentry hkept horigin hstage htally hgrammar =>
    rename_i s D r g entry q
    have hr : r < s.registries.size := (Array.getElem?_eq_some_iff.mp hg).1
    have hp : (s.addParser q).1.parser? s.parsers.size = some q := by
      rw [Service.parser?, Service.addParser, Array.getElem?_push, if_pos rfl]
    refine hnext (.build hr hp horigin hstack) (fun _ h => by cases h) fun p q' hq' => ?_
    obtain ⟨hsound, hloading⟩ := h.addParser hstage htally hgrammar p q' hq'
    exact ⟨hsound, hloading.trans (hothers.exists_duty (by simp)).symm⟩
  | keep => exact hnext hstack.tail (fun _ h => by cases h) (hsame (by simp) (same_of_parsers rfl))
  | abandon =>
    exact hnext hstack.tail (fun _ h => by cases h) (hsame (by simp) (same_of_parsers rfl))

end Lives

end SyntaxForest
