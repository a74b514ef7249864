import Mathlib.Data.List.Infix
import SyntaxForest.Proofs.Lifecycle.Ownership
import SyntaxForest.Proofs.Service.Faults

/-!
# When an engine is at work

An engine parses one text at a time, and it is only ever asked to when its parser is initialized and
has its grammar. A parse may wait for an initialization and then for its turn, and the parser may be
disposed of meanwhile. What a parse checks once it has the lock of the engine is enough: nobody has
that lock before the initialization is over.

* **`Parser.Serial`**, **`Engaged`** — the counts of parses, and that a parse is under way if and
  only if a task has it to end.
* **`Move.parses_cases`** — a move begins a parse, ends one, or leaves all parses alone.
* **`engaged_after`** — so it is in every service that a run leads to.
* **`Rested`** — the engine of a parser that was disposed of does not parse again.
* **`engine_used_in_turn`** — the law over whole runs.
-/

namespace SyntaxForest

/-! ## Counts of parses -/

namespace Parser

/-- Parses were never under way at once, and each began in an initialized parser with its grammar
loaded. -/
structure Serial (q : Parser) : Prop where
  active : q.tally.active ≤ 1
  peak : q.tally.peak ≤ 1
  grounded : q.tally.grounded = q.tally.parses

/-- No parse begins or ends between the two. -/
structure Idles (q q' : Parser) : Prop where
  parses : q'.tally.parses = q.tally.parses
  grounded : q'.tally.grounded = q.tally.grounded
  active : q'.tally.active = q.tally.active
  peak : q'.tally.peak = q.tally.peak

theorem Idles.refl (q : Parser) : Idles q q := ⟨rfl, rfl, rfl, rfl⟩

theorem Serial.idles {q q' : Parser} (h : q.Serial) (hidles : q.Idles q') : q'.Serial := by
  refine ⟨?_, ?_, ?_⟩
  · rw [hidles.active]
    exact h.active
  · rw [hidles.peak]
    exact h.peak
  · rw [hidles.grounded, hidles.parses]
    exact h.grounded

theorem idles_retire (q : Parser) : Idles q q.retire := by
  rw [retire]
  split
  · exact .refl q
  · split <;> exact ⟨rfl, rfl, rfl, rfl⟩

theorem idles_settleLoad (result : Except Fault Unit) (q : Parser) :
    Idles q (q.settleLoad result) := by
  cases result with
  | ok _ =>
    rw [settleLoad]
    split <;> exact ⟨rfl, rfl, rfl, rfl⟩
  | error fault =>
    rw [settleLoad, endLoad]
    split <;> split <;> exact ⟨rfl, rfl, rfl, rfl⟩

theorem Serial.startParse {q : Parser} (h : q.Serial) (hidle : q.tally.active = 0)
    (hinit : q.isInitialized = true) (hgrammar : q.grammarLoaded = true) : q.startParse.Serial := by
  refine ⟨?_, ?_, ?_⟩
  · show q.tally.active + 1 ≤ 1
    omega
  · show max q.tally.peak (q.tally.active + 1) ≤ 1
    have := h.peak
    omega
  · have hboth : (q.isInitialized && q.grammarLoaded) = true := by rw [hinit, hgrammar]; rfl
    show (if q.isInitialized && q.grammarLoaded then q.tally.grounded + 1 else q.tally.grounded)
      = q.tally.parses + 1
    rw [if_pos hboth, h.grounded]

theorem Serial.endParse {q : Parser} (h : q.Serial) : q.endParse.Serial := by
  refine ⟨?_, h.peak, h.grounded⟩
  show q.tally.active - 1 ≤ 1
  have := h.active
  omega

end Parser

/-- No parse begins or ends between the two services, and no parser is new. -/
def Service.Idles (s s' : Service) : Prop :=
  ∀ p q', s'.parser? p = some q' → ∃ q, s.parser? p = some q ∧ q.Idles q'

namespace Service.Idles

theorem of_parsers {s s' : Service} (h : s'.parsers = s.parsers) : s.Idles s' := by
  intro p q' hq'
  refine ⟨q', ?_, .refl q'⟩
  rwa [parser?, ← h]

theorem modifyParser {s : Service} {p : ParserId} {change : Parser → Parser}
    (h : ∀ q : Parser, q.Idles (change q)) :
    s.Idles (s.modifyParser p change) := by
  intro p' q' hq'
  rcases Service.parser?_of_modifyParser hq' with ⟨rfl, q, hq, rfl⟩ | ⟨-, hq⟩
  · exact ⟨q, hq, h q⟩
  · exact ⟨q', hq, .refl q'⟩

end Service.Idles

/-! ## What moves do to parses -/

/-- **A move begins a parse, ends one, or leaves all parses alone.** Whoever begins a parse holds
the lock of the engine and finds the parser not disposed of, and has the engine among its duties
until it ends the parse. All invariants about engines are derived from these three cases. -/
theorem Move.parses_cases {t : TaskId} {x y : Stance} (h : Move t x y) :
    (x.1.Idles y.1 ∧ ∀ p, .engine p ∈ y.2.duties ↔ .engine p ∈ x.2.duties)
      ∨ (∃ p q D, x.1.parser? p = some q ∧ q.stage ≠ .disposed
        ∧ x.2 = ⟨.hold (.parsing p) :: D, none⟩
        ∧ y = (x.1.modifyParser p Parser.startParse,
          ⟨.engine p :: .hold (.parsing p) :: D, none⟩))
      ∨ ∃ p D, x.2 = ⟨.engine p :: .hold (.parsing p) :: D, none⟩
          ∧ y = (x.1.modifyParser p Parser.endParse, ⟨.hold (.parsing p) :: D, none⟩) := by
  cases h with
  -- loads and disposals change a parser too, but not what its engine has parsed
  | quiet h => exact Or.inl ⟨.of_parsers h.parsers, fun _ => Iff.rfl⟩
  | retire p => exact Or.inl ⟨.modifyParser Parser.idles_retire, fun _ => Iff.rfl⟩
  | arrive => exact Or.inl ⟨.of_parsers (Service.parsers_endWait ..), by simp⟩
  | goOn => exact Or.inl ⟨.of_parsers (Service.parsers_endWait ..), fun _ => Iff.rfl⟩
  | take => exact Or.inl ⟨.of_parsers rfl, by simp⟩
  | queue => exact Or.inl ⟨.of_parsers rfl, fun _ => Iff.rfl⟩
  | release => exact Or.inl ⟨.of_parsers (Service.parsers_setLockAndWake ..), by simp⟩
  | gate => exact Or.inl ⟨.of_parsers rfl, fun _ => Iff.rfl⟩
  | work => exact Or.inl ⟨.of_parsers rfl, fun _ => Iff.rfl⟩
  | beginLoad => exact Or.inl ⟨.modifyParser fun q => ⟨rfl, rfl, rfl, rfl⟩, by simp⟩
  | endLoad result => exact Or.inl ⟨.modifyParser (Parser.idles_settleLoad result), by simp⟩
  | startParse hp hstage => exact Or.inr (Or.inl ⟨_, _, _, hp, hstage, rfl, rfl⟩)
  | endParse => exact Or.inr (Or.inr ⟨_, _, rfl, rfl⟩)

theorem Change.idles {s s' : Service} (h : Change s s') : s.Idles s' := by
  cases h with
  | retire p => exact .modifyParser Parser.idles_retire
  | found => exact .of_parsers rfl
  | table => exact .of_parsers rfl
  | enter => exact .of_parsers rfl
  | remove => exact .of_parsers rfl
  | forget => exact .of_parsers rfl

/-! ## Who is at work -/

theorem Stacked.of_engine {s : Service} {D : List Duty} (h : Stacked s D) {p : ParserId}
    (hengine : .engine p ∈ D) :
    .hold (.parsing p) ∈ D := by
  obtain ⟨below, hbelow, hsub⟩ := h.of_mem hengine
  cases hbelow with
  | engine _ => exact hsub _ (List.mem_cons_self ..)

/-- Parses were made one at a time, and one is under way if and only if a task has it to end. -/
structure Engaged (s : Service) (foot : TaskId → Footing) : Prop where
  serial : ∀ {p : ParserId} {q : Parser}, s.parser? p = some q → q.Serial
  busy : ∀ {p : ParserId} {q : Parser}, s.parser? p = some q →
    (q.tally.active = 1 ↔ ∃ u, .engine p ∈ (foot u).duties)

namespace Engaged

variable {s s' : Service} {foot foot' : TaskId → Footing} {t : TaskId}

theorem alone {F : Footing} {D : List Duty} {p : ParserId} (ho : Orderly s (s.standing t F))
    (hl : Lives s (s.standing t F)) (hF : F.locks = .parsing p :: (⟨D, none⟩ : Footing).locks)
    (hD : Stacked s D) :
    .engine p ∉ D ∧ ∀ u, u ≠ t → .engine p ∉ (s.footing u).duties := by
  refine ⟨fun hengine => ho.not_held_below hF (hD.of_engine hengine), fun u hu hengine => hu ?_⟩
  -- the other parse would stand on the lock of the engine, which has one holder
  rw [← Service.standing_of_ne s F hu] at hengine
  have hother := Footing.mem_locks.mpr ((hl.stacked u).of_engine hengine)
  have hown : .parsing p ∈ (s.standing t F t).locks := by
    rw [Service.standing_self, hF]
    exact List.mem_cons_self ..
  exact (ho.locks (.parsing p)).unique hother hown

theorem carry (h : Engaged s foot) (hidles : s.Idles s')
    (hduty : ∀ p, (∃ u, .engine p ∈ (foot' u).duties) ↔ ∃ u, .engine p ∈ (foot u).duties) :
    Engaged s' foot' := by
  refine ⟨fun {p q'} hq' => ?_, fun {p q'} hq' => ?_⟩
  · obtain ⟨q, hq, hsame⟩ := hidles p q' hq'
    exact (h.serial hq).idles hsame
  · obtain ⟨q, hq, hsame⟩ := hidles p q' hq'
    rw [hsame.active, hduty]
    exact h.busy hq

/-- A parse begins: nobody else is at it, and the parser is initialized. The first follows from the
lock of the engine, which the task holds, and the second from what it means to hold that lock. -/
theorem startParse {D : List Duty} {p : ParserId} {q : Parser}
    (ho : Orderly s (s.standing t ⟨.hold (.parsing p) :: D, none⟩))
    (hl : Lives s (s.standing t ⟨.hold (.parsing p) :: D, none⟩))
    (h : Engaged s (s.standing t ⟨.hold (.parsing p) :: D, none⟩)) (hp : s.parser? p = some q)
    (hstage : q.stage ≠ .disposed) :
    Engaged (s.modifyParser p Parser.startParse) ((s.modifyParser p Parser.startParse).standing t
      ⟨.engine p :: .hold (.parsing p) :: D, none⟩) := by
  have hothers : Undisturbed s (s.modifyParser p Parser.startParse) := .of_tasks rfl
  have hown : Stacked s (.hold (.parsing p) :: D) := by
    have := hl.stacked t
    rwa [Service.standing_self] at this
  obtain ⟨hbelow, helse⟩ := alone ho hl rfl hown.tail
  -- were a parse under way, somebody would have it to end, on top of the lock that is held here
  have hidle : q.tally.active = 0 := by
    have hnobody : ¬ q.tally.active = 1 := by
      intro hactive
      obtain ⟨u, hu⟩ := (h.busy hp).mp hactive
      by_cases hut : u = t
      · subst hut
        rw [Service.standing_self] at hu
        exact hbelow ((List.mem_cons.mp hu).resolve_left (fun h => by cases h))
      · rw [Service.standing_of_ne s _ hut] at hu
        exact helse u hut hu
    have := (h.serial hp).active
    omega
  -- the lock is only taken after the initialization, which has not been undone by a disposal
  have hinit : q.isInitialized = true := by
    obtain ⟨q', hq', hsettled⟩ := Service.settled_iff.mp (hown.knows (List.mem_cons_self ..))
    rw [hp, Option.some.injEq] at hq'
    subst hq'
    rw [Parser.isSettled, Bool.or_eq_true] at hsettled
    exact hsettled.resolve_right fun hdisposed => hstage (of_decide_eq_true hdisposed)
  have hgrammar : q.grammarLoaded = true := (hl.sound hp).grammar.trans hinit
  -- the parser that parses gets new counts, and all others keep theirs
  refine ⟨fun {p' q'} hq' => ?_, fun {p' q'} hq' => ?_⟩
  · rcases Service.parser?_of_modifyParser hq' with ⟨rfl, q₀, hq₀, rfl⟩ | ⟨-, hq'⟩
    · rw [hp, Option.some.injEq] at hq₀
      subst hq₀
      exact (h.serial hp).startParse hidle hinit hgrammar
    · exact h.serial hq'
  · rcases Service.parser?_of_modifyParser hq' with ⟨rfl, q₀, hq₀, rfl⟩ | ⟨hne, hq'⟩
    · rw [hp, Option.some.injEq] at hq₀
      subst hq₀
      have hactive : q.startParse.tally.active = 1 := by
        show q.tally.active + 1 = 1
        omega
      refine ⟨fun _ => ⟨t, ?_⟩, fun _ => hactive⟩
      rw [Service.standing_self]
      exact List.mem_cons_self ..
    · refine (h.busy hq').trans (hothers.exists_duty ?_).symm
      simp [Ne.symm hne]

/-- A parse ends, and then nobody is at it, since the task that ended it had the lock of the engine
and had one parse to end. -/
theorem endParse {D : List Duty} {p : ParserId}
    (ho : Orderly s (s.standing t ⟨.engine p :: .hold (.parsing p) :: D, none⟩))
    (hl : Lives s (s.standing t ⟨.engine p :: .hold (.parsing p) :: D, none⟩))
    (h : Engaged s (s.standing t ⟨.engine p :: .hold (.parsing p) :: D, none⟩)) :
    Engaged (s.modifyParser p Parser.endParse) ((s.modifyParser p Parser.endParse).standing t
      ⟨.hold (.parsing p) :: D, none⟩) := by
  have hothers : Undisturbed s (s.modifyParser p Parser.endParse) := .of_tasks rfl
  have hown : Stacked s (.engine p :: .hold (.parsing p) :: D) := by
    have := hl.stacked t
    rwa [Service.standing_self] at this
  obtain ⟨hbelow, helse⟩ := alone ho hl rfl hown.tail.tail
  refine ⟨fun {p' q'} hq' => ?_, fun {p' q'} hq' => ?_⟩
  · rcases Service.parser?_of_modifyParser hq' with ⟨rfl, q, hq, rfl⟩ | ⟨-, hq'⟩
    · exact (h.serial hq).endParse
    · exact h.serial hq'
  · rcases Service.parser?_of_modifyParser hq' with ⟨rfl, q, hq, rfl⟩ | ⟨hne, hq'⟩
    · have hidle : q.endParse.tally.active ≠ 1 := by
        show q.tally.active - 1 ≠ 1
        have := (h.serial hq).active
        omega
      -- whoever is still said to be at it is the task itself, below its lock, or somebody else
      refine ⟨fun hactive => absurd hactive hidle, fun ⟨u, hu⟩ => ?_⟩
      by_cases hut : u = t
      · subst hut
        rw [Service.standing_self] at hu
        exact absurd ((List.mem_cons.mp hu).resolve_left (fun h => by cases h)) hbelow
      · rw [(hothers.standing t ⟨.engine p :: .hold (.parsing p) :: D, none⟩ _ hut).1,
          Service.standing_of_ne s _ hut] at hu
        exact absurd hu (helse u hut)
    · refine (h.busy hq').trans (hothers.exists_duty ?_).symm
      simp [Ne.symm hne]

theorem move {x y : Stance} (hmove : Move t x y) (ho : Orderly x.1 (x.1.standing t x.2))
    (hl : Lives x.1 (x.1.standing t x.2)) (h : Engaged x.1 (x.1.standing t x.2)) :
    Engaged y.1 (y.1.standing t y.2) := by
  have hothers := hmove.undisturbed
  rcases hmove.parses_cases with ⟨hidles, hown⟩ | ⟨p, q, D, hp, hstage, hx, rfl⟩ | ⟨p, D, hx, rfl⟩
  · exact h.carry hidles fun p => hothers.exists_duty (hown p)
  · rw [hx] at ho hl h
    exact startParse ho hl h hp hstage
  · rw [hx] at ho hl h
    exact endParse ho hl h

/-- A new parser, with which nobody parses yet. -/
theorem addParser (hl : Lives s foot) (h : Engaged s foot) {new : Parser}
    (htally : new.tally = {}) :
    Engaged (s.addParser new).1 foot := by
  refine ⟨fun {p q} hq => ?_, fun {p q} hq => ?_⟩
  · rcases Service.parser?_of_addParser hq with ⟨-, rfl⟩ | hq
    · constructor <;> simp [htally]
    · exact h.serial hq
  · rcases Service.parser?_of_addParser hq with ⟨rfl, rfl⟩ | hq
    · refine ⟨fun hactive => ?_, fun ⟨u, hu⟩ => ?_⟩
      · rw [htally] at hactive
        cases hactive
      · -- the lock of the engine would belong to a parser that is there
        obtain ⟨q', hq', -⟩ :=
          Service.settled_iff.mp ((hl.stacked u).knows ((hl.stacked u).of_engine hu))
        have := (Array.getElem?_eq_some_iff.mp hq').1
        omega
    · exact h.busy hq

/-- **What a task does keeps the counts of parses and the tasks in agreement.** -/
theorem deal {x y : Stance} (hdeal : Deal t x y) (ho : Orderly x.1 (x.1.standing t x.2))
    (hl : Lives x.1 (x.1.standing t x.2)) (h : Engaged x.1 (x.1.standing t x.2)) :
    Engaged y.1 (y.1.standing t y.2) := by
  have hothers := hdeal.undisturbed
  cases hdeal with
  | move hmove => exact h.move hmove ho hl
  | change hchange _ => exact h.carry hchange.idles fun p => hothers.exists_duty Iff.rfl
  | build hg hentry hkept horigin hstage htally hgrammar =>
    refine (addParser hl h htally).carry (.of_parsers rfl) fun p => hothers.exists_duty ?_
    simp
  | keep => exact h.carry (.of_parsers rfl) fun p => hothers.exists_duty (by simp)
  | abandon => exact h.carry (.of_parsers rfl) fun p => hothers.exists_duty (by simp)

theorem deals {x y : Stance} (hdeals : Deals t x y) (ha : Agreed x.1 (x.1.standing t x.2))
    (h : Engaged x.1 (x.1.standing t x.2)) : Engaged y.1 (y.1.standing t y.2) := by
  induction hdeals with
  | refl => exact h
  | tail hbefore hdeal ih =>
    have hagreed := Agreed.deals hbefore ha
    exact ih.deal hdeal hagreed.orderly hagreed.lives

end Engaged

/-! ## Runs -/

theorem Changes.idles {s s' : Service} (h : Changes s s') : s.Idles s' := by
  induction h with
  | refl => exact .of_parsers rfl
  | tail _ hstep ih =>
    intro p q'' hq''
    have hlast := hstep.elim (fun hquiet => Service.Idles.of_parsers hquiet.parsers) Change.idles
    obtain ⟨q', hq', hsame'⟩ := hlast p q'' hq''
    obtain ⟨q, hq, hsame⟩ := ih p q' hq'
    exact ⟨q, hq, hsame'.parses.trans hsame.parses, hsame'.grounded.trans hsame.grounded,
      hsame'.active.trans hsame.active, hsame'.peak.trans hsame.peak⟩

/-- **One action keeps the counts of parses and the tasks in agreement.** A step of a task is a
sequence of deals; all other actions begin and end no parse. -/
theorem Happening.engaged {s s' : Service} {a : Service.Action} (h : Happening s a s')
    (hvalid : Valid s) (hengaged : Engaged s s.footing) : Engaged s' s'.footing := by
  cases h with
  | changes h =>
    refine hengaged.carry h.idles fun p => ?_
    rw [Service.footing_of_tasks h.tasks]
  | waits hothers _ hparsers _ =>
    refine hengaged.carry (.of_parsers hparsers) fun p => ?_
    simp only [(hothers.footing _).1]
  | addParser _ _ htally _ => exact .addParser hvalid.agreed.lives hengaged htally
  | setEngine p engine =>
    exact hengaged.carry (.modifyParser fun q => ⟨rfl, rfl, rfl, rfl⟩) fun _ => Iff.rfl
  | spawn =>
    refine hengaged.carry (.of_parsers rfl) fun p => ?_
    rw [Service.footing_spawn]
  | step hquiet ht h =>
    rename_i t s₀
    obtain ⟨s₁, status, rfl, hdeals, -⟩ := h
    -- taking the task out of the ready queue is quiet, so the agreement holds where its deals begin
    have hbefore : Engaged s₀ (s₀.standing t (s₀.footing t)) := by
      rw [Service.standing_eq_footing rfl, Service.footing_of_tasks hquiet.tasks]
      exact hengaged.carry (.of_parsers hquiet.parsers) fun _ => Iff.rfl
    have hagreed : Agreed s₀ (s₀.standing t (s₀.footing t)) := by
      rw [Service.standing_eq_footing rfl]
      exact (hvalid.quiet hquiet).agreed
    have hlast := Engaged.deals hdeals hagreed hbefore
    rw [Service.footing_setTask s₁ (hdeals.undisturbed.size.symm ▸ ht)]
    exact hlast.carry (.of_parsers rfl) fun _ => Iff.rfl

/-- **In every service that a run leads to, parses were made one at a time.** -/
theorem engaged_after (run : List Service.Action) :
    Engaged (Service.after run) (Service.after run).footing := by
  induction run using List.reverseRecOn with
  | nil => exact ⟨(fun hq => by cases hq), (fun hq => by cases hq)⟩
  | append_singleton run a ih =>
    rw [Service.after_concat]
    exact ((valid_after run).happening a).engaged (valid_after run) ih

/-! ## Tasks whose parse is under way -/

/-- The parser whose engine is at work for a waiting call. -/
def Frame.engineOf? : Frame → Option ParserId
  | .parse p _ .engine => some p
  | .facade _ _ _ (.parse p .engine) => some p
  | _ => none

/-- The engine of the parser is at work for the task. -/
def Service.ParsesAt (s : Service) (u : TaskId) (p : ParserId) : Prop :=
  ∃ frame wait signal, s.tasks[u]? = some (.waiting frame wait signal) ∧ frame.engineOf? = some p

theorem InitPoint.engine_not_mem_duties (point : InitPoint) (p p' : ParserId) :
    .engine p ∉ point.duties p' := by
  cases point <;> simp [InitPoint.duties]

theorem ParsePoint.engine_mem_duties {point : ParsePoint} {p p' : ParserId} :
    .engine p ∈ point.duties p' ↔ p' = p ∧ point = .engine := by
  cases point with
  | init point => simp [ParsePoint.duties, InitPoint.engine_not_mem_duties]
  | lock => simp [ParsePoint.duties]
  | engine => simp [ParsePoint.duties, eq_comm]

theorem GetPoint.engine_not_mem_duties (point : GetPoint) (p : ParserId) (r : RegistryId) :
    .engine p ∉ point.duties r := by
  cases point with
  | lock => simp [GetPoint.duties]
  | init entry p' point => simp [GetPoint.duties, InitPoint.engine_not_mem_duties]

theorem Frame.engine_mem_duties {frame : Frame} {p : ParserId} :
    .engine p ∈ frame.duties ↔ frame.engineOf? = some p := by
  cases frame with
  | init p' event point => simp [duties, engineOf?, InitPoint.engine_not_mem_duties]
  | «scoped» p' body point => simp [duties, engineOf?, InitPoint.engine_not_mem_duties]
  | parse p' request point => cases point <;> simp [duties, engineOf?, ParsePoint.engine_mem_duties]
  | getParser r language point => simp [duties, engineOf?, GetPoint.engine_not_mem_duties]
  | facade f goal request point =>
    cases point with
    | get point => simp [duties, FacadePoint.duties, engineOf?, GetPoint.engine_not_mem_duties]
    | parse p' point =>
      cases point <;> simp [duties, FacadePoint.duties, engineOf?, ParsePoint.engine_mem_duties]

theorem Service.engine_mem_footing {s : Service} {u : TaskId} {p : ParserId} :
    .engine p ∈ (s.footing u).duties ↔ s.ParsesAt u p := by
  constructor
  · intro h
    obtain ⟨frame, wait, signal, hu, hengine⟩ := waiting_of_duty h
    exact ⟨frame, wait, signal, hu, Frame.engine_mem_duties.mp hengine⟩
  · rintro ⟨frame, wait, signal, hu, hframe⟩
    rw [footing, hu]
    exact Frame.engine_mem_duties.mpr hframe

/-- **One parse at a time.** -/
theorem Valid.parses_unique {s : Service} (h : Valid s) {u v : TaskId} {p : ParserId}
    (hu : s.ParsesAt u p) (hv : s.ParsesAt v p) : u = v := by
  have hlock : ∀ {w}, s.ParsesAt w p → .parsing p ∈ (s.footing w).locks := fun {w} hw =>
    Footing.mem_locks.mpr ((h.agreed.lives.stacked w).of_engine (Service.engine_mem_footing.mpr hw))
  exact (h.agreed.orderly.locks (.parsing p)).unique (hlock hu) (hlock hv)

/-! ## After the disposal -/

/-- Whatever parser was disposed of is still so, and its engine has parsed nothing since. -/
def Rested (s s' : Service) : Prop :=
  ∀ p q, s.parser? p = some q → q.stage = .disposed →
    ∃ q', s'.parser? p = some q' ∧ q'.stage = .disposed ∧ q'.tally.parses = q.tally.parses

namespace Rested

variable {s s' s'' : Service}

theorem trans (h : Rested s s') (h' : Rested s' s'') : Rested s s'' := by
  intro p q hq hstage
  obtain ⟨q', hq', hstage', hparses⟩ := h p q hq hstage
  obtain ⟨q'', hq'', hstage'', hparses'⟩ := h' p q' hq' hstage'
  exact ⟨q'', hq'', hstage'', hparses'.trans hparses⟩

theorem of_idles (hlater : Later s s') (h : s.Idles s') : Rested s s' := by
  intro p q hq hstage
  obtain ⟨q', hq', hthen⟩ := hlater p q hq
  obtain ⟨q₀, hq₀, hidles⟩ := h p q' hq'
  rw [hq, Option.some.injEq] at hq₀
  subst hq₀
  exact ⟨q', hq', hthen.disposed hstage, hidles.parses⟩

theorem of_parsers (h : s'.parsers = s.parsers) : Rested s s' :=
  .of_idles (.of_parsers h) (.of_parsers h)

theorem addParser (s : Service) (new : Parser) : Rested s (s.addParser new).1 := by
  intro p q hq hstage
  have hlt : p < s.parsers.size := (Array.getElem?_eq_some_iff.mp hq).1
  refine ⟨q, ?_, hstage, rfl⟩
  rw [Service.parser?, Service.addParser, Array.getElem?_push, if_neg (Nat.ne_of_lt hlt)]
  exact hq

end Rested

/-- No move begins a parse with a parser that was disposed of. -/
theorem Move.rested {t : TaskId} {x y : Stance} (h : Move t x y) : Rested x.1 y.1 := by
  rcases h.parses_cases with ⟨hidles, -⟩ | ⟨p, q, D, hp, hstage, -, rfl⟩ | ⟨p, D, -, rfl⟩
  · exact .of_idles h.later hidles
  · intro p' q' hq' hstage'
    -- the parser with which a parse begins is not disposed of, so it is another one
    have hne : p ≠ p' := by
      rintro rfl
      rw [hp, Option.some.injEq] at hq'
      exact hstage (hq' ▸ hstage')
    exact ⟨q', (Service.parser?_modifyParser_of_ne _ hne _).trans hq', hstage', rfl⟩
  · intro p' q' hq' hstage'
    by_cases hp : p = p'
    · subst hp
      exact ⟨_, Service.parser?_modifyParser_self hq' _, hstage', rfl⟩
    · exact ⟨q', (Service.parser?_modifyParser_of_ne _ hp _).trans hq', hstage', rfl⟩

theorem Deal.rested {t : TaskId} {x y : Stance} (h : Deal t x y) : Rested x.1 y.1 := by
  cases h with
  | move h => exact h.rested
  | change h => exact .of_idles h.later h.idles
  | build => exact .addParser _ _
  | keep => exact .of_parsers rfl
  | abandon => exact .of_parsers rfl

theorem Deals.rested {t : TaskId} {x y : Stance} (h : Deals t x y) : Rested x.1 y.1 := by
  induction h with
  | refl => exact .of_parsers rfl
  | tail _ hdeal ih => exact ih.trans hdeal.rested

theorem Happening.rested {s s' : Service} {a : Service.Action} (h : Happening s a s') :
    Rested s s' := by
  cases h with
  | changes h => exact .of_idles h.later h.idles
  | waits _ _ hparsers _ => exact .of_parsers hparsers
  | addParser => exact .addParser _ _
  | setEngine p engine =>
    exact .of_idles (.modifyParser fun q _ => ⟨rfl, id, id⟩)
      (.modifyParser fun q => ⟨rfl, rfl, rfl, rfl⟩)
  | spawn => exact .of_parsers rfl
  | step hquiet _ h =>
    obtain ⟨s₁, status, rfl, hdeals, -⟩ := h
    exact (Rested.of_parsers hquiet.parsers).trans hdeals.rested

theorem rested_after (run more : List Service.Action) :
    Rested (Service.after run) (Service.after (run ++ more)) := by
  induction more using List.reverseRecOn with
  | nil =>
    rw [List.append_nil]
    exact .of_parsers rfl
  | append_singleton more a ih =>
    rw [← List.append_assoc, Service.after_concat]
    exact ih.trans ((valid_after (run ++ more)).happening a).rested

/-- What can become of a parse that was asked for after the disposal: it has not begun, or it ended
with the fault of disposal, or it was cancelled before it began. -/
inductive TaskStatus.Refused (p : ParserId) (request : ParseRequest) : TaskStatus → Prop
  | fresh (cancelled : Bool) : Refused p request (.fresh (.parse p request) cancelled)
  | disposed {e : Fault} (h : e.isDisposed = true) : Refused p request (.finished (.error e))
  | cancelled : Refused p request (.finished (.error .cancelled))

theorem TaskStatus.Refused.alike {p : ParserId} {request : ParseRequest} {a b : TaskStatus}
    (h : a.Refused p request) (hab : a.Alike b) : b.Refused p request := by
  cases hab with
  | fresh call before now =>
    cases h
    exact .fresh now
  | waiting => cases h
  | finished result => exact h

/-- Along the whole run, the engine of the parser leaves parses to the parser. -/
def Unanswered (p : ParserId) (run : List Service.Action) : Prop :=
  ∀ pre, pre <+: run → ∀ q, (Service.after pre).parser? p = some q → q.engine.answer = none

theorem Unanswered.of_inits {p : ParserId} {run : List Service.Action}
    (h : ∀ pre ∈ run.inits, ((Service.after pre).parser? p).all (·.engine.answer.isNone) = true) :
    Unanswered p run := by
  intro pre hpre q hq
  have hnone := h pre ((List.mem_inits ..).mpr hpre)
  rw [hq, Option.all_some] at hnone
  exact Option.isNone_iff_eq_none.mp hnone

namespace Service

variable {s : Service} {p : ParserId} {q : Parser} {request : ParseRequest} {u : TaskId}

theorem step_of_disposed (hp : s.parser? p = some q) (hstage : q.stage = .disposed)
    (hanswer : q.engine.answer = none) (hready : u ∈ s.ready)
    (hu : s.tasks[u]? = some (.fresh (.parse p request) false)) :
    (s.step u).tasks[u]? = some (.finished (.error q.disposedFault)) := by
  have hbegin : ∀ s' : Service, s'.parser? p = some q →
      s'.beginParse u p request = (s', .finished (.error q.disposedFault)) := by
    intro s' hp'
    rw [beginParse, hp']
    simp only [hanswer]
    exact if_pos (decide_eq_true hstage)
  rw [step_of_fresh hready hu, start, hbegin { s with ready := s.ready.erase u } hp]
  exact task_setTask (Array.getElem?_eq_some_iff.mp hu).1 _

theorem refused_step (hp : s.parser? p = some q) (hstage : q.stage = .disposed)
    (hanswer : q.engine.answer = none) {status : TaskStatus} (hu : s.tasks[u]? = some status)
    (hrefused : status.Refused p request) :
    ∃ status', (s.step u).tasks[u]? = some status' ∧ status'.Refused p request := by
  cases hrefused with
  | disposed h => exact ⟨_, step_of_finished hu, .disposed h⟩
  | cancelled => exact ⟨_, step_of_finished hu, .cancelled⟩
  | fresh cancelled =>
    by_cases hready : u ∈ s.ready
    · cases cancelled with
      | false => exact ⟨_, step_of_disposed hp hstage hanswer hready hu, .disposed rfl⟩
      | true =>
        refine ⟨_, ?_, .cancelled⟩
        rw [step_of_cancelled hready hu]
        exact task_setTask (Array.getElem?_eq_some_iff.mp hu).1 _
    · rw [step_of_not_ready hready]
      exact ⟨_, hu, .fresh cancelled⟩

end Service

/-- **Whoever asks for a parse after the disposal is refused**, whatever happens then. The induction
is on what happens after the task was created; its parser stays disposed of all along. -/
theorem refused_after {run : List Service.Action} {p : ParserId} {q : Parser}
    {request : ParseRequest} (hp : (Service.after run).parser? p = some q)
    (hstage : q.stage = .disposed) (more : List Service.Action)
    (hanswer : Unanswered p (run ++ .spawn (.parse p request) :: more)) :
    ∃ status, (Service.after (run ++ .spawn (.parse p request) :: more)).tasks[(Service.after
      run).tasks.size]?
      = some status ∧ status.Refused p request := by
  induction more using List.reverseRecOn with
  | nil =>
    -- the task can be created at all, since a parser that is disposed of is still offered
    have hoffers : (Service.after run).offers p = true :=
      Service.offers_iff.mpr ⟨q, hp,
        by rw [Parser.isOffered, Parser.isSettled_of_disposed hstage, Bool.or_true]⟩
    have hclients : (Call.parse p request).clients.all (Service.after run).offers = true := by
      rw [Call.clients, List.all_cons, hoffers]
      rfl
    refine ⟨_, ?_, .fresh false⟩
    rw [Service.after_concat, Service.act, if_pos hclients, Service.task_spawn, if_pos rfl]
  | append_singleton more a ih =>
    rw [← List.cons_append, ← List.append_assoc] at hanswer ⊢
    have hbefore : run ++ .spawn (.parse p request) :: more <+: run ++ .spawn
        (.parse p request) :: more ++ [a] :=
      List.prefix_append _ _
    obtain ⟨status, hu, hrefused⟩ := ih fun pre hpre => hanswer pre (hpre.trans hbefore)
    -- the parser is still disposed of when the task runs, however late that is
    obtain ⟨q', hp', hstage', -⟩ :=
      rested_after run (.spawn (.parse p request) :: more) p q hp hstage
    rw [Service.after_concat]
    exact (valid_after _).task_act (fun h => h.alike) hu hrefused
      (Service.refused_step hp' hstage' (hanswer _ hbefore q' hp') hu hrefused) a

/-- The task's parse was asked for after the disposal: it is refused, and its first step says so. -/
structure Service.AsksInVain (s : Service) (t : TaskId) (p : ParserId) (request : ParseRequest) :
    Prop where
  refused : ∃ status, s.tasks[t]? = some status ∧ status.Refused p request
  raises : t ∈ s.ready → s.tasks[t]? = some (.fresh (.parse p request) false) →
    ∃ e, (s.step t).result? t = some (.error e) ∧ e.isDisposed = true

/-- **Engines are used in turn, and only with their grammar.** Whatever happens to a service, every
parse of an engine began in an initialized parser with its grammar loaded, so none is refused for
want of a grammar (`Service.noGrammar`); at most one is under way at a time, namely for the one task
that has it to end; and once the parser is disposed of its engine parses nothing more, and whoever
asks for a parse is told of the disposal. -/
theorem engine_used_in_turn (run : List Service.Action) {p : ParserId} {q : Parser}
    (hq : (Service.after run).parser? p = some q) :
    q.tally.grounded = q.tally.parses
      ∧ (q.grammarLoaded = true ↔ q.stage = .initialized)
      ∧ q.tally.active ≤ 1
      ∧ q.tally.peak ≤ 1
      ∧ (q.tally.active = 1 ↔ ∃ u, (Service.after run).ParsesAt u p)
      ∧ (∀ u v, (Service.after run).ParsesAt u p → (Service.after run).ParsesAt v p → u = v)
      ∧ (q.stage = .disposed → ∀ request more,
        Unanswered p (run ++ .spawn (.parse p request) :: more) →
          (Service.after (run ++ .spawn (.parse p request) :: more)).AsksInVain
            (Service.after run).tasks.size p request
            ∧ ∃ q', (Service.after (run ++ .spawn (.parse p request) :: more)).parser? p = some q'
              ∧ q'.tally.parses = q.tally.parses) := by
  have hvalid := valid_after run
  have hengaged := engaged_after run
  have hserial := hengaged.serial hq
  refine ⟨hserial.grounded, ?_, hserial.active, hserial.peak, ?_, fun u v => hvalid.parses_unique,
    fun hstage request more hanswer => ?_⟩
  · rw [(hvalid.agreed.lives.sound hq).grammar]
    exact decide_eq_true_iff
  · simp only [hengaged.busy hq, Service.engine_mem_footing]
  -- after the disposal the counts rest, and the new task meets the disposal at its first step
  · obtain ⟨q', hq', hstage', hparses⟩ :=
      rested_after run (.spawn (.parse p request) :: more) p q hq hstage
    have hnone := hanswer _ (List.prefix_refl _) q' hq'
    refine ⟨⟨refused_after hq hstage more hanswer, fun hready hfresh => ?_⟩, q', hq', hparses⟩
    refine ⟨q'.disposedFault, ?_, rfl⟩
    rw [Service.result?, Service.step_of_disposed hq' hstage' hnone hready hfresh]

/-- Two parses with one parser. The first one loads the grammar, the second one waits for it and
then for the engine, and the parser is disposed of while the engine is at work. -/
def disposedWhileParsing : List Service.Action :=
  [.addParser { name := "Parser", language := "text", engine := .native {} (.ok ()) } none,
    .spawn (.parse 0 { source := some "a" }), .spawn (.parse 0 { source := some "b" }),
    .step 0, .step 1,
    .finishWork 0, .step 0, .step 1, .disposeParser 0, .finishWork 0, .step 0, .step 1]

/-- The engine was used once, and who comes later is refused. -/
theorem engine_used_in_turn_disposed :
    ∃ q, (Service.after disposedWhileParsing).parser? 0 = some q ∧ q.stage = .disposed
      ∧ q.tally.parses = 1
      ∧ q.tally.grounded = 1 ∧ q.tally.peak ≤ 1
      ∧ ∃ e, (Service.after (disposedWhileParsing ++ [.spawn (.parse 0 { source := some "c" }),
        .step 2])).result? 2
        = some (.error e) ∧ e.isDisposed = true := by
  have hq : (Service.after disposedWhileParsing).parser? 0
    = some ((Service.after disposedWhileParsing).parsers[0]) := rfl
  obtain ⟨hgrounded, -, -, hpeak, -, -, hafter⟩ := engine_used_in_turn disposedWhileParsing hq
  have hanswer : Unanswered 0
      (disposedWhileParsing ++ [.spawn (.parse 0 { source := some "c" })]) :=
    .of_inits (by decide +kernel)
  obtain ⟨hvain, -⟩ := hafter rfl { source := some "c" } [] hanswer
  exact ⟨_, hq, rfl, rfl, hgrounded, hpeak, hvain.raises (by decide +kernel) rfl⟩

end SyntaxForest
