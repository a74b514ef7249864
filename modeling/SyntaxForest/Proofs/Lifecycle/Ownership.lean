import SyntaxForest.Proofs.Service.Runs

/-!
# Who loads a grammar, and who lets it go

Any number of tasks may initialize a parser, use it and dispose of it at once. In every run its
grammar is loaded by one task at a time and with success at most once, and a grammar that was loaded
is let go exactly once, by whoever comes last: the disposal, or the load that ends after it.

* **`Frame.initialization?`**, **`Service.InitializesAt`** — the initialization that a waiting task
  is in.
* **`loads_unique`** — one load at a time.
* **`engine_released_once`** — loads and releases over whole runs.
-/

namespace SyntaxForest

/-- The initialization that a waiting call is in the middle of, and where it waits. -/
def Frame.initialization? : Frame → Option (ParserId × InitPoint)
  | .init p _ point => some (p, point)
  | .parse p _ (.init point) => some (p, point)
  | .scoped p _ point => some (p, point)
  | .getParser _ _ (.init _ p point) => some (p, point)
  | .facade _ _ _ (.get (.init _ p point)) => some (p, point)
  | .facade _ _ _ (.parse p (.init point)) => some (p, point)
  | _ => none

/-- The task is in the middle of an initialization of the parser and waits there. -/
def Service.InitializesAt (s : Service) (u : TaskId) (p : ParserId) (point : InitPoint) : Prop :=
  ∃ frame wait signal, s.tasks[u]? = some (.waiting frame wait signal)
    ∧ frame.initialization? = some (p, point)

theorem InitPoint.load_mem_duties {point : InitPoint} {p p' : ParserId} :
    .load p ∈ point.duties p' ↔ p' = p ∧ point = .load := by
  cases point with
  | lock => simp [InitPoint.duties]
  | load => simp [InitPoint.duties, eq_comm]

theorem Frame.load_mem_duties {frame : Frame} {p : ParserId} :
    .load p ∈ frame.duties ↔ frame.initialization? = some (p, .load) := by
  -- every call that can wait in an initialization keeps its point, inside its own point
  cases frame with
  | init p' event point => simp [duties, initialization?, InitPoint.load_mem_duties]
  | «scoped» p' body point => simp [duties, initialization?, InitPoint.load_mem_duties]
  | parse p' request point =>
    cases point <;> simp [duties, ParsePoint.duties, initialization?, InitPoint.load_mem_duties]
  | getParser r language point =>
    cases point <;> simp [duties, GetPoint.duties, initialization?, InitPoint.load_mem_duties]
  | facade f goal request point =>
    cases point with
    | get point =>
      cases point <;> simp [duties, FacadePoint.duties, GetPoint.duties, initialization?,
        InitPoint.load_mem_duties]
    | parse p' point =>
      cases point <;> simp [duties, FacadePoint.duties, ParsePoint.duties, initialization?,
        InitPoint.load_mem_duties]

namespace Service

theorem waiting_of_duty {s : Service} {u : TaskId} {d : Duty} (h : d ∈ (s.footing u).duties) :
    ∃ frame wait signal, s.tasks[u]? = some (.waiting frame wait signal) ∧ d ∈ frame.duties := by
  rw [footing] at h
  cases hu : s.tasks[u]? with
  | none =>
    rw [hu] at h
    cases h
  | some status =>
    rw [hu] at h
    cases status with
    | fresh call cancelled => cases h
    | finished result => cases h
    | waiting frame wait signal => exact ⟨frame, wait, signal, rfl, h⟩

theorem load_mem_footing {s : Service} {u : TaskId} {p : ParserId} :
    .load p ∈ (s.footing u).duties ↔ s.InitializesAt u p .load := by
  constructor
  · intro h
    obtain ⟨frame, wait, signal, hu, hload⟩ := waiting_of_duty h
    exact ⟨frame, wait, signal, hu, Frame.load_mem_duties.mp hload⟩
  · rintro ⟨frame, wait, signal, hu, hframe⟩
    rw [footing, hu]
    exact Frame.load_mem_duties.mpr hframe

end Service

/-- **One load at a time.** -/
theorem Valid.loads_unique {s : Service} (h : Valid s) {u v : TaskId} {p : ParserId}
    (hu : s.InitializesAt u p .load) (hv : s.InitializesAt v p .load) : u = v := by
  have hlock : ∀ {w}, s.InitializesAt w p .load → .lifecycle p ∈ (s.footing w).locks :=
    fun {w} hw =>
      Footing.mem_locks.mpr ((h.agreed.lives.stacked w).of_load (Service.load_mem_footing.mpr hw)).1
  exact (h.agreed.orderly.locks (.lifecycle p)).unique (hlock hu) (hlock hv)

namespace Parser.Sound

variable {q : Parser}

theorem disposals_eq_one_iff (h : q.Sound) :
    q.tally.disposals = 1 ↔ q.stage = .disposed ∧ q.tally.loaded = 1 := by
  have hreleased := h.released
  split at hreleased
  · rename_i hstage
    rw [hreleased]
    exact ⟨fun hloaded => ⟨hstage, hloaded⟩, fun ⟨_, hloaded⟩ => hloaded⟩
  · rename_i hstage
    rw [hreleased]
    exact ⟨(fun h => by cases h), fun ⟨hdisposed, _⟩ => absurd hdisposed hstage⟩

theorem disposals_le_one (h : q.Sound) : q.tally.disposals ≤ 1 := by
  have hreleased := h.released
  have honce := h.once
  split at hreleased <;> omega

end Parser.Sound

/-- **A grammar has one owner over whole runs.** Whatever happens to a service, loads of a parser's
grammar succeed at most once and never overlap, the grammar is let go at most once, namely if and
only if a load succeeded and the parser is disposed of, and a parser that is disposed of stays
so. -/
theorem engine_released_once (run : List Service.Action) {p : ParserId} {q : Parser}
    (hq : (Service.after run).parser? p = some q) :
    q.tally.loaded ≤ 1
      ∧ q.tally.loadPeak ≤ 1
      ∧ (∀ u v, (Service.after run).InitializesAt u p .load →
          (Service.after run).InitializesAt v p .load → u = v)
      ∧ q.tally.disposals ≤ 1
      ∧ (q.tally.disposals = 1 ↔ q.stage = .disposed ∧ q.tally.loaded = 1)
      ∧ (q.stage = .disposed → ∀ more, ∃ q', (Service.after (run ++ more)).parser? p = some q'
          ∧ q'.stage = .disposed) := by
  have hvalid := valid_after run
  have hsound := hvalid.agreed.lives.sound hq
  have honce := hsound.once
  -- all but the last point hold of any sound parser, and the last one says how parsers go on
  refine ⟨by omega, hsound.peak, fun u v => hvalid.loads_unique, hsound.disposals_le_one,
    hsound.disposals_eq_one_iff, fun hdisposed more => ?_⟩
  obtain ⟨q', hq', hlater⟩ := later_after run more p q hq
  exact ⟨q', hq', hlater.disposed hdisposed⟩

/-- Two tasks initialize a parser, which is disposed of while its grammar is loaded. -/
def disposedWhileLoading : List Service.Action :=
  [.addParser { name := "Parser", language := "text", engine := { loadPause := .gate "load" } }
    none,
    .spawn (.init 0 none), .spawn (.init 0 none), .step 0, .step 1, .disposeParser 0,
    .openGate "load",
    .step 0, .step 1]

/-- The load that ends after the disposal lets the grammar go, and the task that waited behind it
loads nothing. -/
theorem engine_released_by_late_load :
    ∃ q, (Service.after disposedWhileLoading).parser? 0 = some q ∧ q.stage = .disposed
      ∧ q.tally.loaded = 1 ∧ q.tally.loadPeak ≤ 1 ∧ q.tally.disposals = 1 := by
  have hq : (Service.after disposedWhileLoading).parser? 0
    = some ((Service.after disposedWhileLoading).parsers[0]) := rfl
  obtain ⟨-, hpeak, -, -, hreleased, -⟩ := engine_released_once disposedWhileLoading hq
  exact ⟨_, hq, rfl, rfl, hpeak, hreleased.mpr ⟨rfl, rfl⟩⟩

end SyntaxForest
