import Mathlib.Logic.Relation
import SyntaxForest.Proofs.Service.Footing

/-!
# What a step can do

A step of a task is a sequence of small moves. Each move changes the service in one way, and the
footing of the running task along with it. What holds of every move holds of every step, so the
invariants of the service are proved move by move.

* **`Change`** — what can happen to parsers and registries without regard to tasks.
* **`Move`** — what a running task can do with locks and parsers: take, queue for or release a lock,
  begin or end a load or a parse, dispose of a parser, and begin to wait.
* **`Deal`** — what a running task can do besides when it asks a registry: build a parser, and keep
  it.
* **`Later`** — the parsers of a service at a later time. Moves only go forward: a parser that is
  disposed of stays so, and one that callers may know stays known.
-/

namespace SyntaxForest

/-! ## Changes of parsers

Each is what several steps of a call come to, taken together. -/

namespace Parser

/-- The initialization of the parser is over. -/
def isSettled (q : Parser) : Bool := q.isInitialized || q.isDisposed

/-- Callers may know the parser: it was not built for a registry, or the registry has handed it
out. -/
def isOffered (q : Parser) : Bool := q.origin.isNone || q.isSettled

/-- The parser starts to load its grammar. -/
def beginLoad (q : Parser) : Parser := { q with stage := .initializing }.startLoad

/-- The load of the grammar ends, and the parser goes to the stage that this leads to. -/
def settleLoad (result : Except Fault Unit) (q : Parser) : Parser :=
  match result with
  | .ok () =>
    if q.isDisposed then (q.endLoad result).releaseEngine
    else { q.endLoad result with stage := .initialized }
  | .error fault =>
    if !fault.isOutOfMemory && q.stage = .initializing then
      { q.endLoad result with stage := .uninitialized }
    else q.endLoad result

/-- The parser is disposed of. -/
def retire (q : Parser) : Parser :=
  if q.isDisposed then q
  else if q.isInitialized then { q with stage := .disposed }.releaseEngine
  else { q with stage := .disposed }

/-- The same parser at a later time. -/
structure Later (q q' : Parser) : Prop where
  origin : q'.origin = q.origin
  settled : q.isSettled = true → q'.isSettled = true
  disposed : q.stage = .disposed → q'.stage = .disposed

namespace Later

variable {q q' q'' : Parser}

theorem refl (q : Parser) : Later q q := ⟨rfl, id, id⟩

theorem trans (h : Later q q') (h' : Later q' q'') : Later q q'' :=
  ⟨h'.origin.trans h.origin, fun hq => h'.settled (h.settled hq),
    fun hq => h'.disposed (h.disposed hq)⟩

theorem offered (h : Later q q') (hq : q.isOffered = true) : q'.isOffered = true := by
  rw [isOffered, Bool.or_eq_true] at hq ⊢
  rw [h.origin]
  exact hq.imp_right h.settled

end Later

@[simp] theorem stage_endLoad (q : Parser) (result : Except Fault Unit) :
    (q.endLoad result).stage = q.stage := by
  cases result with
  | ok _ => rfl
  | error fault =>
    rw [endLoad]
    split <;> rfl

@[simp] theorem origin_endLoad (q : Parser) (result : Except Fault Unit) :
    (q.endLoad result).origin = q.origin := by
  cases result with
  | ok _ => rfl
  | error fault =>
    rw [endLoad]
    split <;> rfl

theorem later_beginLoad {q : Parser} (h : q.stage = .uninitialized) : Later q q.beginLoad := by
  refine ⟨rfl, fun hq => ?_, fun hq => ?_⟩
  · simp [isSettled, isInitialized, isDisposed, h] at hq
  · rw [h] at hq
    cases hq

/-- Whatever a load comes to, it leads forward. A parser that goes back to its first stage was
loading, and so it was neither settled nor disposed of. -/
theorem later_settleLoad (result : Except Fault Unit) (q : Parser) :
    Later q (q.settleLoad result) := by
  cases result with
  | ok _ =>
    rw [settleLoad]
    split
    · have hstage : ((q.endLoad (.ok ())).releaseEngine).stage = q.stage := stage_endLoad q _
      refine ⟨origin_endLoad q _, fun hq => ?_, fun hq => hstage.trans hq⟩
      rw [isSettled, isInitialized, isDisposed, hstage]
      exact hq
    · rename_i hdisposed
      refine ⟨origin_endLoad q _, fun _ => rfl, fun hq => ?_⟩
      exact absurd (decide_eq_true hq) hdisposed
  | error fault =>
    rw [settleLoad]
    split
    -- the parser goes back to where it was before the load, but it was not settled then
    · rename_i hback
      rw [Bool.and_eq_true, decide_eq_true_eq] at hback
      refine ⟨origin_endLoad q _, fun hq => ?_, fun hq => ?_⟩
      · simp [isSettled, isInitialized, isDisposed, hback.2] at hq
      · rw [hback.2] at hq
        cases hq
    · refine ⟨origin_endLoad q _, fun hq => ?_, fun hq => (stage_endLoad q _).trans hq⟩
      rw [isSettled, isInitialized, isDisposed, stage_endLoad]
      exact hq

@[simp] theorem stage_retire (q : Parser) : q.retire.stage = .disposed := by
  rw [retire]
  split
  · rename_i hdisposed
    exact of_decide_eq_true hdisposed
  · split <;> rfl

@[simp] theorem origin_retire (q : Parser) : q.retire.origin = q.origin := by
  rw [retire]
  split
  · rfl
  · split <;> rfl

theorem isSettled_of_disposed {q : Parser} (h : q.stage = .disposed) : q.isSettled = true := by
  simp [isSettled, isDisposed, h]

theorem later_retire (q : Parser) : Later q q.retire :=
  ⟨origin_retire q, fun _ => isSettled_of_disposed (stage_retire q), fun _ => stage_retire q⟩

end Parser

/-! ## Services at a later time -/

/-- Every parser is still there, at a later time. -/
def Later (s s' : Service) : Prop :=
  ∀ p q, s.parser? p = some q → ∃ q', s'.parser? p = some q' ∧ q.Later q'

namespace Later

variable {s s' s'' : Service}

theorem refl (s : Service) : Later s s := fun _ q hq => ⟨q, hq, .refl q⟩

theorem trans (h : Later s s') (h' : Later s' s'') : Later s s'' := fun p q hq => by
  obtain ⟨q', hq', hlater⟩ := h p q hq
  obtain ⟨q'', hq'', hlater'⟩ := h' p q' hq'
  exact ⟨q'', hq'', hlater.trans hlater'⟩

theorem of_parsers (h : s'.parsers = s.parsers) : Later s s' := fun p q hq =>
  ⟨q, by rw [Service.parser?, h]; exact hq, .refl q⟩

theorem modifyParser {p : ParserId} {change : Parser → Parser}
    (h : ∀ q, s.parser? p = some q → q.Later (change q)) : Later s (s.modifyParser p change) := by
  intro p' q hq
  by_cases hp : p = p'
  · subst hp
    exact ⟨change q, Service.parser?_modifyParser_self hq change, h q hq⟩
  · exact ⟨q, by rw [Service.parser?_modifyParser_of_ne s hp, hq], .refl q⟩

theorem addParser (s : Service) (parser : Parser) : Later s (s.addParser parser).1 := by
  intro p q hq
  refine ⟨q, ?_, .refl q⟩
  have hlt : p < s.parsers.size := (Array.getElem?_eq_some_iff.mp hq).1
  rw [Service.parser?, Service.addParser, Array.getElem?_push, if_neg (Nat.ne_of_lt hlt)]
  exact hq

end Later

namespace Service

/-- Callers may know the parser. -/
def offers (s : Service) (p : ParserId) : Bool := (s.parser? p).any (·.isOffered)

/-- The initialization of the parser is over. -/
def settled (s : Service) (p : ParserId) : Bool := (s.parser? p).any (·.isSettled)

theorem offers_iff {s : Service} {p : ParserId} :
    s.offers p = true ↔ ∃ q, s.parser? p = some q ∧ q.isOffered = true := by
  rw [offers]
  cases s.parser? p <;> simp

theorem settled_iff {s : Service} {p : ParserId} :
    s.settled p = true ↔ ∃ q, s.parser? p = some q ∧ q.isSettled = true := by
  rw [settled]
  cases s.parser? p <;> simp

theorem offers_of_later {s s' : Service} (h : Later s s') {p : ParserId} (hp : s.offers p = true) :
    s'.offers p = true := by
  obtain ⟨q, hq, hoffered⟩ := offers_iff.mp hp
  obtain ⟨q', hq', hlater⟩ := h p q hq
  exact offers_iff.mpr ⟨q', hq', hlater.offered hoffered⟩

theorem settled_of_later {s s' : Service} (h : Later s s') {p : ParserId}
    (hp : s.settled p = true) :
    s'.settled p = true := by
  obtain ⟨q, hq, hsettled⟩ := settled_iff.mp hp
  obtain ⟨q', hq', hlater⟩ := h p q hq
  exact settled_iff.mpr ⟨q', hq', hlater.settled hsettled⟩

/-- What has to hold when a task takes a lock or queues for it: the parser is there, and nobody
parses before its initialization is over. -/
def Knows (s : Service) : LockId → Prop
  | .lifecycle p => ∃ q, s.parser? p = some q
  | .parsing p => s.settled p = true
  | .registry _ => True

theorem Knows.later {s s' : Service} (h : Later s s') {id : LockId} (hid : s.Knows id) :
    s'.Knows id := by
  cases id with
  | lifecycle p =>
    obtain ⟨q, hq⟩ := hid
    obtain ⟨q', hq', -⟩ := h p q hq
    exact ⟨q', hq'⟩
  | parsing p => exact settled_of_later h hid
  | registry r => trivial

end Service

/-- The registry keeps the parser under the key. -/
def Service.Keeps (s : Service) (r : RegistryId) (key : String) (p : ParserId) : Prop :=
  ∃ g, s.registries[r]? = some g ∧ Assoc.get? g.parsers key = some p

/-- From now on the registry keeps the parser under the key. -/
def Service.keep (s : Service) (r : RegistryId) (key : String) (p : ParserId) : Service :=
  s.modifyRegistry r fun g => { g with parsers := Assoc.set g.parsers key p }

/-! ## Changes and moves -/

/-- What can happen to parsers and registries without regard to tasks. Entering asks for a free key,
and removing and forgetting for parsers that are disposed of: these conditions are what keeps a
parser from being lost while it is in use. -/
inductive Change : Service → Service → Prop
  | retire (s : Service) (p : ParserId) : Change s (s.modifyParser p Parser.retire)
  /-- A registry is made. -/
  | found (s : Service) (settings : Settings) (collector : CollectorId) :
      Change s { s with registries := s.registries.push { settings, collector } }
  /-- A table of languages is read. -/
  | table (s : Service) (r : RegistryId) (path : FilePath) (table : List LanguageConfig) :
      Change s (s.modifyRegistry r fun g => { g with tables := Assoc.set g.tables path table })
  /-- A language is entered that is not known. -/
  | enter {s : Service} {r : RegistryId} {config : LanguageConfig}
      (hnew : ∀ g, s.registries[r]? = some g → Assoc.get? g.languages config.key = none) :
      Change s (s.modifyRegistry r (·.enter config))
  /-- A language is taken out, whose parser has been disposed of. -/
  | remove {s : Service} {r : RegistryId} {g g' : Registry} {language : String}
      {config : LanguageConfig} {parser : Option ParserId} (hg : s.registries[r]? = some g)
      (hremove : g.remove? language = some (g', config, parser))
      (hretired : ∀ p q, parser = some p → s.parser? p = some q → q.stage = .disposed) :
      Change s (s.modifyRegistry r fun _ => g')
  /-- A registry forgets its parsers, which have been disposed of. -/
  | forget {s : Service} {r : RegistryId} {g : Registry} (hg : s.registries[r]? = some g)
      (hretired : ∀ p ∈ Assoc.values g.parsers, ∀ q, s.parser? p = some q → q.stage = .disposed) :
      Change s (s.modifyRegistry r fun g => { g with parsers := [] })

/-- A service, and where the running task stands in it. -/
abbrev Stance := Service × Footing

/-- What the running task `t` can do with locks and parsers. Each move is one change of the service
together with the change of the task's footing that belongs to it: a duty is put on when something
begins, and taken off, from the top, when it ends. -/
inductive Move (t : TaskId) : Stance → Stance → Prop
  | quiet {s s' : Service} {F : Footing} (h : Quiet s s') : Move t (s, F) (s', F)
  | retire {s : Service} {F : Footing} (p : ParserId) :
      Move t (s, F) (s.modifyParser p Parser.retire, F)
  /-- The task goes on with the lock that it waited for. -/
  | arrive {s : Service} {D : List Duty} {id : LockId} :
      Move t (s, ⟨D, some (.lock id, some .proceed)⟩)
        (s.endWait t (.lock id) .proceed, ⟨.hold id :: D, none⟩)
  /-- The task goes on after another wait, or was cancelled. -/
  | goOn {s : Service} {D : List Duty} {wait : Wait} {signal : Signal}
      (h : ∀ id, wait = .lock id → signal = .cancel) :
      Move t (s, ⟨D, some (wait, some signal)⟩) (s.endWait t wait signal, ⟨D, none⟩)
  | take {s : Service} {D : List Duty} {id : LockId} (hfree : (s.lock id).isFree = true)
      (hid : s.Knows id) :
      Move t (s, ⟨D, none⟩) (s.setLock id (s.lock id).take, ⟨.hold id :: D, none⟩)
  | queue {s : Service} {D : List Duty} {id : LockId} (hid : s.Knows id) :
      Move t (s, ⟨D, none⟩) (s.setLock id ((s.lock id).enqueue t), ⟨D, some (.lock id, none)⟩)
  | release {s : Service} {D : List Duty} {id : LockId} :
      Move t (s, ⟨.hold id :: D, none⟩) (s.release id, ⟨D, none⟩)
  | gate {s : Service} {D : List Duty} {name : String} :
      Move t (s, ⟨D, none⟩)
        ({ s with atGates := s.atGates ++ [(name, t)] }, ⟨D, some (.gate name, none)⟩)
  | work {s : Service} {D : List Duty} :
      Move t (s, ⟨D, none⟩) ({ s with atWorkers := s.atWorkers ++ [t] }, ⟨D, some (.worker, none)⟩)
  /-- Nobody loads the grammar of a parser that was built for a registry, except the task that
  builds it. -/
  | beginLoad {s : Service} {D : List Duty} {p : ParserId} {q : Parser} (hp : s.parser? p = some q)
      (hstage : q.stage = .uninitialized)
      (hmay : q.origin = none ∨ ∃ r entry, .build r entry p ∈ D) :
      Move t (s, ⟨.hold (.lifecycle p) :: D, none⟩)
        (s.modifyParser p Parser.beginLoad, ⟨.load p :: .hold (.lifecycle p) :: D, none⟩)
  | endLoad {s : Service} {D : List Duty} {p : ParserId} (result : Except Fault Unit) :
      Move t (s, ⟨.load p :: .hold (.lifecycle p) :: D, none⟩)
        (s.modifyParser p (Parser.settleLoad result), ⟨.hold (.lifecycle p) :: D, none⟩)
  | startParse {s : Service} {D : List Duty} {p : ParserId} {q : Parser} (hp : s.parser? p = some q)
      (hstage : q.stage ≠ .disposed) :
      Move t (s, ⟨.hold (.parsing p) :: D, none⟩)
        (s.modifyParser p Parser.startParse, ⟨.engine p :: .hold (.parsing p) :: D, none⟩)
  | endParse {s : Service} {D : List Duty} {p : ParserId} :
      Move t (s, ⟨.engine p :: .hold (.parsing p) :: D, none⟩)
        (s.modifyParser p Parser.endParse, ⟨.hold (.parsing p) :: D, none⟩)

/-- What the running task `t` can do when it asks a registry for a parser. These are the moves, the
changes of registries while no parser is being built, and the building of a parser from its start to
the moment when it is kept or given up. -/
inductive Deal (t : TaskId) : Stance → Stance → Prop
  | move {x y : Stance} (h : Move t x y) : Deal t x y
  /-- While a parser is being built, the task leaves the registries alone. -/
  | change {s s' : Service} {F : Footing} (h : Change s s')
      (hidle : ∀ r entry p, .build r entry p ∉ F.duties) : Deal t (s, F) (s', F)
  /-- A parser is built for an entry of a registry that keeps none for it. -/
  | build {s : Service} {D : List Duty} {r : RegistryId} {g : Registry} {entry : Registration}
      {q : Parser} (hg : s.registries[r]? = some g)
      (hentry : Assoc.get? g.languages entry.config.key = some entry)
      (hkept : s.keptParser? g entry.config.key = none) (horigin : q.origin = some (r, entry))
      (hstage : q.stage = .uninitialized) (htally : q.tally = {})
      (hgrammar : q.grammarLoaded = false) :
      Deal t (s, ⟨.hold (.registry r) :: D, none⟩)
        ((s.addParser q).1, ⟨.build r entry s.parsers.size :: .hold (.registry r) :: D, none⟩)
  /-- The parser is initialized, and kept. -/
  | keep {s : Service} {D : List Duty} {r : RegistryId} {entry : Registration} {p : ParserId}
      {q : Parser} (hp : s.parser? p = some q) (hstage : q.stage = .initialized) :
      Deal t (s, ⟨.build r entry p :: .hold (.registry r) :: D, none⟩)
        (s.keep r entry.config.key p, ⟨.hold (.registry r) :: D, none⟩)
  /-- The parser could not be initialized. -/
  | abandon {s : Service} {D : List Duty} {r : RegistryId} {entry : Registration} {p : ParserId}
      (hp : ∀ q, s.parser? p = some q → q.stage ≠ .initialized) :
      Deal t (s, ⟨.build r entry p :: D, none⟩) (s, ⟨D, none⟩)

/-- A sequence of moves. -/
abbrev Moves (t : TaskId) : Stance → Stance → Prop := Relation.ReflTransGen (Move t)

/-- A sequence of deals. -/
abbrev Deals (t : TaskId) : Stance → Stance → Prop := Relation.ReflTransGen (Deal t)

theorem Moves.deals {t : TaskId} {x y : Stance} (h : Moves t x y) : Deals t x y :=
  Relation.ReflTransGen.mono (fun _ _ => Deal.move) _ _ h

/-! ## Forward in time -/

theorem Change.later {s s' : Service} (h : Change s s') : Later s s' := by
  cases h with
  | retire p => exact .modifyParser fun q _ => q.later_retire
  | found => exact .of_parsers rfl
  | table => exact .of_parsers rfl
  | enter => exact .of_parsers rfl
  | remove => exact .of_parsers rfl
  | forget => exact .of_parsers rfl

namespace Service

theorem parsers_wake (s : Service) (u : TaskId) (sg : Signal) :
    (s.wake u sg).parsers = s.parsers := by
  rw [wake]
  split <;> rfl

theorem registries_wake (s : Service) (u : TaskId) (sg : Signal) :
    (s.wake u sg).registries = s.registries := by
  rw [wake]
  split <;> rfl

theorem parsers_setLockAndWake (s : Service) (id : LockId) (l : Lock × Option TaskId) :
    (s.setLockAndWake id l).parsers = s.parsers := by
  rw [setLockAndWake]
  split
  · rw [parsers_wake]
    rfl
  · rfl

theorem registries_setLockAndWake (s : Service) (id : LockId) (l : Lock × Option TaskId) :
    (s.setLockAndWake id l).registries = s.registries := by
  rw [setLockAndWake]
  split
  · rw [registries_wake]
    rfl
  · rfl

@[simp] theorem registries_release (s : Service) (id : LockId) :
    (s.release id).registries = s.registries := registries_setLockAndWake ..

theorem parsers_endWait (s : Service) (t : TaskId) (wait : Wait) (signal : Signal) :
    (s.endWait t wait signal).parsers = s.parsers := by
  cases wait with
  | gate name => rfl
  | worker => rfl
  | lock id =>
    cases signal with
    | proceed => rfl
    | cancel =>
      rw [endWait]
      split
      · rfl
      · exact parsers_setLockAndWake ..

theorem registries_endWait (s : Service) (t : TaskId) (wait : Wait) (signal : Signal) :
    (s.endWait t wait signal).registries = s.registries := by
  cases wait with
  | gate name => rfl
  | worker => rfl
  | lock id =>
    cases signal with
    | proceed => rfl
    | cancel =>
      rw [endWait]
      split
      · rfl
      · exact registries_setLockAndWake ..

end Service

/-- **Moves only go forward.** -/
theorem Move.later {t : TaskId} {x y : Stance} (h : Move t x y) : Later x.1 y.1 := by
  cases h with
  | quiet h => exact .of_parsers h.parsers
  | retire p => exact .modifyParser fun q _ => q.later_retire
  | arrive => exact .of_parsers (Service.parsers_endWait ..)
  | goOn => exact .of_parsers (Service.parsers_endWait ..)
  | take => exact .of_parsers rfl
  | queue => exact .of_parsers rfl
  | release => exact .of_parsers (Service.parsers_setLockAndWake ..)
  | gate => exact .of_parsers rfl
  | work => exact .of_parsers rfl
  | beginLoad hp hstage =>
    refine .modifyParser fun q' hq' => ?_
    rw [hp, Option.some.injEq] at hq'
    exact hq' ▸ Parser.later_beginLoad hstage
  | endLoad result => exact .modifyParser fun q _ => q.later_settleLoad result
  | startParse => exact .modifyParser fun q _ => ⟨rfl, id, id⟩
  | endParse => exact .modifyParser fun q _ => ⟨rfl, id, id⟩

theorem Deal.later {t : TaskId} {x y : Stance} (h : Deal t x y) : Later x.1 y.1 := by
  cases h with
  | move h => exact h.later
  | change h => exact h.later
  | build => exact .addParser _ _
  | keep => exact .of_parsers rfl
  | abandon => exact .refl _

theorem Moves.later {t : TaskId} {x y : Stance} (h : Moves t x y) : Later x.1 y.1 := by
  induction h with
  | refl => exact .refl _
  | tail _ hmove ih => exact ih.trans hmove.later

theorem Deals.later {t : TaskId} {x y : Stance} (h : Deals t x y) : Later x.1 y.1 := by
  induction h with
  | refl => exact .refl _
  | tail _ hdeal ih => exact ih.trans hdeal.later

/-! ## Registries stay -/

theorem Move.registries {t : TaskId} {x y : Stance} (h : Move t x y) :
    y.1.registries = x.1.registries := by
  cases h with
  | quiet h => exact h.registries
  | arrive => exact Service.registries_endWait ..
  | goOn => exact Service.registries_endWait ..
  | release => exact Service.registries_release ..
  | retire => rfl
  | take => rfl
  | queue => rfl
  | gate => rfl
  | work => rfl
  | beginLoad => rfl
  | endLoad => rfl
  | startParse => rfl
  | endParse => rfl

theorem Moves.registries {t : TaskId} {x y : Stance} (h : Moves t x y) :
    y.1.registries = x.1.registries := by
  induction h with
  | refl => rfl
  | tail _ hmove ih => exact hmove.registries.trans ih

theorem Service.size_modifyRegistry (s : Service) (r : RegistryId) (change : Registry → Registry) :
    (s.modifyRegistry r change).registries.size = s.registries.size := Array.size_modify

theorem Change.size_registries {s s' : Service} (h : Change s s') :
    s.registries.size ≤ s'.registries.size := by
  cases h with
  | retire p => exact Nat.le_refl _
  | found settings collector => simp
  | table => exact Nat.le_of_eq (Service.size_modifyRegistry ..).symm
  | enter => exact Nat.le_of_eq (Service.size_modifyRegistry ..).symm
  | remove => exact Nat.le_of_eq (Service.size_modifyRegistry ..).symm
  | forget => exact Nat.le_of_eq (Service.size_modifyRegistry ..).symm

theorem Deal.size_registries {t : TaskId} {x y : Stance} (h : Deal t x y) :
    x.1.registries.size ≤ y.1.registries.size := by
  cases h with
  | move h => exact Nat.le_of_eq (congrArg Array.size h.registries.symm)
  | change h => exact h.size_registries
  | keep => exact Nat.le_of_eq (Service.size_modifyRegistry ..).symm
  | build => exact Nat.le_refl _
  | abandon => exact Nat.le_refl _

theorem Deals.size_registries {t : TaskId} {x y : Stance} (h : Deals t x y) :
    x.1.registries.size ≤ y.1.registries.size := by
  induction h with
  | refl => exact Nat.le_refl _
  | tail _ hdeal ih => exact Nat.le_trans ih hdeal.size_registries

end SyntaxForest
