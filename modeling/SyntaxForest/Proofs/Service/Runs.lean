import Mathlib.Data.List.Induction
import SyntaxForest.Proofs.Service.Keeping
import SyntaxForest.Proofs.Service.Steps

/-!
# Runs of a service

A service starts empty, and then things happen to it in any order: registries and parsers are made,
languages are registered and unregistered, calls begin, tasks run up to their next wait, waits end
or are cancelled, and engines behave in new ways.

* **`Service.Action`**, **`Service.act`**, **`Service.after`** — what can happen, one thing at a
  time, and the service after a list of such things.
* **`Happening`** — what each action comes to, said once.
* **`Valid`** — locks, parsers and registries agree with the tasks. **`valid_after`** — every
  service that a run leads to is valid.
-/

namespace SyntaxForest

/-! ## Actions -/

/-- What can happen to a service. Everything that a caller, a worker or the scheduler can do is one
of these, so that a statement about all runs is a statement about all orders in which they do it. -/
inductive Service.Action where
  | addCollector
  | addParser (blueprint : Blueprint) (collector : Option CollectorId)
  /-- From now on the engine of the parser behaves like this. -/
  | setEngine (p : ParserId) (engine : Engine)
  | disposeParser (p : ParserId)
  | newRegistry (settings : Settings) (collector : CollectorId) (withTable : Bool)
  | loadTable (r : RegistryId) (path : FilePath)
  | register (r : RegistryId) (config : LanguageConfig)
  | unregister (r : RegistryId) (language : String)
  | disposeRegistry (r : RegistryId)
  | spawn (call : Call)
  | step (t : TaskId)
  | cancel (t : TaskId)
  | finishWork (t : TaskId)
  | openGate (name : String)
  | closeGate (name : String)
  | setEvent (event : String)
  | clearEvent (event : String)
  | setNative (reply : NativeReply)
  | setElapsed (elapsed : Float)
  | writeConfig (path : FilePath) (text : String)

namespace Service

/-- The service after an action. A call can only name parsers that its caller can know, and what is
refused changes nothing. -/
def act (s : Service) : Service.Action → Service
  | .addCollector => s.addCollector.1
  | .addParser blueprint collector =>
    match Parser.ofBlueprint blueprint collector with
    | .ok q => (s.addParser q).1
    | .error _ => s
  | .setEngine p engine => s.modifyParser p ({ · with engine })
  | .disposeParser p => s.disposeParser p
  | .newRegistry settings collector withTable => (s.newRegistry settings collector withTable).1
  | .loadTable r path => (s.loadTable r path).1
  | .register r config => s.register r config
  | .unregister r language => (s.unregister r language).1
  | .disposeRegistry r => s.disposeRegistry r
  | .spawn call => if call.clients.all s.offers then (s.spawn call).1 else s
  | .step t => s.step t
  | .cancel t => s.cancel t
  | .finishWork t => s.finishWork t
  | .openGate name => s.openGate name
  | .closeGate name => s.closeGate name
  | .setEvent event => s.setEvent event
  | .clearEvent event => s.clearEvent event
  | .setNative reply => { s with native := reply }
  | .setElapsed elapsed => { s with elapsed }
  | .writeConfig path text =>
    match s.writeConfig path text with
    | .ok written => written
    | .error _ => s

/-- The service after a run. -/
def after (run : List Service.Action) : Service := run.foldl act {}

theorem after_concat (run : List Service.Action) (a : Service.Action) :
    after (run ++ [a]) = (after run).act a := by
  rw [after, List.foldl_append]
  rfl

theorem after_append (run more : List Service.Action) :
    after (run ++ more) = more.foldl act (after run) := List.foldl_append

theorem footing_of_tasks {s s' : Service} (h : s'.tasks = s.tasks) : s'.footing = s.footing := by
  funext u
  rw [footing, footing, h]

theorem task_spawn (s : Service) (call : Call) (u : TaskId) :
    (s.spawn call).1.tasks[u]? = if u = s.tasks.size then some (.fresh call false)
      else s.tasks[u]? :=
  Array.getElem?_push

theorem footing_spawn (s : Service) (call : Call) : (s.spawn call).1.footing = s.footing := by
  funext u
  rw [footing, task_spawn]
  split
  · rename_i hu
    rw [footing_of_size_le s (Nat.le_of_eq hu.symm)]
    rfl
  · rfl

end Service

theorem Changes.tasks {s s' : Service} (h : Changes s s') : s'.tasks = s.tasks := by
  induction h with
  | refl => rfl
  | tail _ hstep ih => exact (hstep.elim Quiet.tasks fun hchange => hchange.traffic.tasks).trans ih

/-! ## Valid services -/

/-- Locks, parsers and registries agree with where the tasks stand. -/
structure Agreed (s : Service) (foot : TaskId → Footing) : Prop where
  orderly : Orderly s foot
  lives : Lives s foot
  stock : Stock s foot

namespace Agreed

variable {s : Service} {foot : TaskId → Footing} {t : TaskId}

theorem deals {x y : Stance} (hdeals : Deals t x y) (h : Agreed x.1 (x.1.standing t x.2)) :
    Agreed y.1 (y.1.standing t y.2) := by
  induction hdeals with
  | refl => exact h
  | tail _ hdeal ih =>
    exact ⟨ih.orderly.deal hdeal, ih.lives.deal hdeal ih.orderly,
      ih.stock.deal hdeal ih.orderly ih.lives⟩

theorem isFree_of_size_le (h : Agreed s foot) {p : ParserId} (hp : s.parsers.size ≤ p) :
    (s.lock (.lifecycle p)).isFree = true := by
  have hunknown : ¬s.Knows (.lifecycle p) := fun ⟨q, hq⟩ => by
    have := (Array.getElem?_eq_some_iff.mp hq).1
    omega
  have hsound := h.orderly.locks (.lifecycle p)
  rw [Lock.isFree, Bool.and_eq_true, Bool.not_eq_true', List.all_eq_true]
  refine ⟨Bool.eq_false_iff.mpr fun hheld => ?_, fun w hw => ?_⟩
  · obtain ⟨u, hu⟩ := hsound.held_iff.mp hheld
    exact hunknown ((h.lives.stacked u).knows (Footing.mem_locks.mp hu))
  · exact absurd (h.lives.waits (hsound.waitsFor_of_mem (u := w.1) hw)) hunknown

theorem tidy (h : Agreed s foot) : Tidy s := by
  refine ⟨fun p hp => h.isFree_of_size_le hp, fun hk => ?_, h.stock.keyed⟩
  obtain ⟨q, -, hq, hsettled, -⟩ := h.stock.cached hk
  exact Service.settled_iff.mpr ⟨q, hq, hsettled⟩

end Agreed

/-- The service agrees with its tasks, and every task waits for what its point says. -/
structure Valid (s : Service) : Prop where
  agreed : Agreed s s.footing
  fine : ∀ {t : TaskId} {status : TaskStatus}, s.tasks[t]? = some status → status.Fine s

theorem TaskStatus.Fine.alike {s : Service} {a b : TaskStatus} (h : a.Fine s) (hab : a.Alike b) :
    b.Fine s := by
  cases hab <;> exact h

theorem Undisturbed.earlier {s s' : Service} (h : Undisturbed s s') {u : TaskId} {b : TaskStatus}
    (hb : s'.tasks[u]? = some b) : ∃ a, s.tasks[u]? = some a ∧ a.Alike b := by
  have hlt : u < s.tasks.size := h.size ▸ (Array.getElem?_eq_some_iff.mp hb).1
  obtain ⟨b', hb', halike⟩ := h.alike (Array.getElem?_eq_getElem hlt)
  rw [hb, Option.some.injEq] at hb'
  exact ⟨_, Array.getElem?_eq_getElem hlt, hb' ▸ halike⟩

namespace Valid

variable {s s' : Service} {t : TaskId}

theorem fine_undisturbed (h : Valid s) (hothers : Undisturbed s s') (hlater : Later s s')
    {u : TaskId} {status : TaskStatus} (hu : s'.tasks[u]? = some status) : status.Fine s' := by
  obtain ⟨a, ha, halike⟩ := hothers.earlier hu
  exact ((h.fine ha).later hlater).alike halike

/-- An empty service is valid. -/
theorem empty : Valid {} := by
  have hheld : ∀ id, HeldSound false id (({} : Service).footing) := fun id => by
    refine ⟨⟨fun h => ?_, fun h => ?_⟩, fun hu => ?_, fun _ => Nat.zero_le _⟩
    · cases h
    · obtain ⟨u, hu⟩ := h
      cases hu
    · cases hu
  have hlock : ∀ id, LockSound {} id (({} : Service).footing) := fun id =>
    ⟨hheld id, List.nodup_nil, (fun hu => by cases hu), (fun hu => by cases hu),
      (fun _ hw => by cases hw),
      (fun _ hw => by cases hw)⟩
  have horderly : Orderly {} (({} : Service).footing) :=
    ⟨hlock, (fun hu => by cases hu), (fun hu => by cases hu)⟩
  have hlives : Lives {} (({} : Service).footing) :=
    ⟨fun _ => .nil, (fun hid => by cases hid), (fun hq => by cases hq), (fun hq => by cases hq)⟩
  refine ⟨⟨horderly, hlives, ⟨(fun hg => by cases hg), ?_, ?_, (fun hq => by cases hq)⟩⟩,
    (fun ht => by cases ht)⟩
  · rintro r key p ⟨g, hg, -⟩
    cases hg
  · rintro u r entry p p' q - ⟨g, hg, -⟩
    cases hg

theorem waits (h : Valid s) (hothers : Undisturbed s s') (horderly : Orderly s' s'.footing)
    (hparsers : s'.parsers = s.parsers) (hregistries : s'.registries = s.registries) :
    Valid s' := by
  have hlater : Later s s' := .of_parsers hparsers
  have hsize : s.registries.size ≤ s'.registries.size :=
    Nat.le_of_eq (congrArg Array.size hregistries.symm)
  exact ⟨⟨horderly, h.agreed.lives.carry hlater hsize hothers.footing
    (Lives.same_of_parsers hparsers),
    h.agreed.stock.carry hparsers hregistries fun u => (hothers.footing u).1⟩,
    fun hu => h.fine_undisturbed hothers hlater hu⟩

theorem quiet (h : Valid s) (hquiet : Quiet s s') : Valid s' :=
  h.waits (.of_tasks hquiet.tasks) (h.agreed.orderly.of_traffic hquiet.traffic) hquiet.parsers
    hquiet.registries

theorem unqueue (h : Valid s) (t : TaskId) : Valid { s with ready := s.ready.erase t } :=
  h.quiet ⟨rfl, rfl, rfl, rfl, rfl, rfl⟩

theorem change (h : Valid s) (hchange : Change s s') : Valid s' := by
  have hfoot := Service.footing_of_tasks hchange.traffic.tasks
  refine ⟨⟨h.agreed.orderly.of_traffic hchange.traffic, ?_, ?_⟩,
    fun hu => h.fine_undisturbed (.of_tasks hchange.traffic.tasks) hchange.later hu⟩
  · rw [hfoot]
    exact h.agreed.lives.change hchange
  · rw [hfoot]
    exact h.agreed.stock.change hchange

theorem changes (h : Valid s) (hchanges : Changes s s') : Valid s' := by
  induction hchanges with
  | refl => exact h
  | tail _ hstep ih => exact hstep.elim ih.quiet ih.change

theorem addParser (h : Valid s) {q : Parser} (horigin : q.origin = none)
    (hstage : q.stage = .uninitialized) (htally : q.tally = {})
    (hgrammar : q.grammarLoaded = false) :
    Valid (s.addParser q).1 := by
  have hlater : Later s (s.addParser q).1 := .addParser s q
  have hothers : Undisturbed s (s.addParser q).1 := .of_tasks rfl
  have hsame := h.agreed.lives.addParser hstage htally hgrammar
  refine ⟨⟨h.agreed.orderly.of_traffic ⟨rfl, rfl, rfl, rfl⟩, ?_, ?_⟩,
    fun hu => h.fine_undisturbed hothers hlater hu⟩
  · exact ⟨fun u => (h.agreed.lives.stacked u).later hlater (Nat.le_refl _),
      fun hid => (h.agreed.lives.waits hid).later hlater, fun hq => (hsame _ _ hq).1,
      fun hq => (hsame _ _ hq).2⟩
  · refine ⟨h.agreed.stock.keyed, fun hk => h.agreed.stock.cached_later hlater hk,
      fun hbuild hk hq => h.agreed.stock.built_later hlater hbuild hk hq, fun hq hinit hfrom => ?_⟩
    rcases Service.parser?_of_addParser hq with ⟨-, rfl⟩ | hq
    · rw [horigin] at hfrom
      cases hfrom
    · exact h.agreed.stock.kept hq hinit hfrom

theorem setEngine (h : Valid s) (p : ParserId) (engine : Engine) :
    Valid (s.modifyParser p ({ · with engine })) := by
  have hlater : Later s (s.modifyParser p ({ · with engine })) :=
    .modifyParser fun q _ => ⟨rfl, id, id⟩
  have hothers : Undisturbed s (s.modifyParser p ({ · with engine })) := .of_tasks rfl
  refine ⟨⟨h.agreed.orderly.of_traffic ⟨rfl, rfl, rfl, rfl⟩, ?_, ?_⟩,
    fun hu => h.fine_undisturbed hothers hlater hu⟩
  · exact h.agreed.lives.carry hlater (Nat.le_refl _) (fun _ => ⟨rfl, rfl⟩)
      (Lives.same_of_modifyParser
        (fun _ h => ⟨h.peak, h.once, h.idle, h.busy, h.ready, h.released, h.grammar⟩) fun _ => rfl)
  · refine ⟨h.agreed.stock.keyed, fun hk => h.agreed.stock.cached_later hlater hk,
      fun hbuild hk hq => h.agreed.stock.built_later hlater hbuild hk hq,
      fun hq hinit horigin => ?_⟩
    obtain ⟨q, hq, hinit', horigin'⟩ := Service.initialized_of_modifyParser ({ · with engine })
      (fun _ h => h) (fun _ => rfl) hq hinit
    exact h.agreed.stock.kept hq hinit' (horigin' ▸ horigin)

theorem spawn (h : Valid s) {call : Call} (hclients : ∀ p ∈ call.clients, s.offers p = true) :
    Valid (s.spawn call).1 := by
  have hfoot := Service.footing_spawn s call
  have hlater : Later s (s.spawn call).1 := .of_parsers rfl
  refine ⟨⟨?_, ?_, ?_⟩, fun {u status} hu => ?_⟩
  · rw [hfoot]
    exact ⟨h.agreed.orderly.locks, h.agreed.orderly.gates, h.agreed.orderly.workers⟩
  · rw [hfoot]
    exact h.agreed.lives.carry hlater (Nat.le_refl _) (fun _ => ⟨rfl, rfl⟩)
      (Lives.same_of_parsers rfl)
  · rw [hfoot]
    exact h.agreed.stock.carry rfl rfl fun _ => rfl
  · rw [Service.task_spawn] at hu
    split at hu
    · cases hu
      exact fun p hp => Service.offers_of_later hlater (hclients p hp)
    · exact (h.fine hu).later hlater

/-- **A step of a task.** What the task does while it runs keeps everything in agreement. -/
theorem settles (h : Valid s) (ht : t < s.tasks.size) (hsettles : Settles t (s, s.footing t) s') :
    Valid s' := by
  obtain ⟨s₁, status, rfl, hdeals, hfine⟩ := hsettles
  have hothers := hdeals.undisturbed
  have ht' : t < s₁.tasks.size := hothers.size.symm ▸ ht
  -- while the task runs the agreement is about its stance, which is not in the service
  have hagreed : Agreed s₁ (s₁.standing t status.footing) := by
    refine Agreed.deals hdeals ?_
    rw [Service.standing_eq_footing rfl]
    exact h.agreed
  have hlater : Later s₁ (s₁.setTask t status) := .of_parsers rfl
  have hsize : s₁.registries.size ≤ (s₁.setTask t status).registries.size := Nat.le_refl _
  refine ⟨?_, fun {u a} hu => ?_⟩
  · rw [Service.footing_setTask s₁ ht']
    exact ⟨⟨hagreed.orderly.locks, hagreed.orderly.gates, hagreed.orderly.workers⟩,
      hagreed.lives.carry hlater hsize (fun _ => ⟨rfl, rfl⟩) (Lives.same_of_parsers rfl),
      hagreed.stock.carry rfl rfl fun _ => rfl⟩
  · rw [Service.setTask, Array.getElem?_modify] at hu
    split at hu
    · obtain ⟨-, -, rfl⟩ := Option.map_eq_some_iff.mp hu
      exact hfine.later hlater
    · exact (h.fine_undisturbed hothers hdeals.later hu).later hlater

/-- A task goes on after its wait. -/
theorem arrives {frame : Frame} {wait : Wait} {signal : Signal}
    (ht : s.tasks[t]? = some (.waiting frame wait (some signal))) :
    Move t (s, s.footing t)
      (s.endWait t wait signal, ⟨Service.resumed frame.duties wait signal, none⟩) := by
  have hfoot : s.footing t = ⟨frame.duties, some (wait, some signal)⟩ := by
    rw [Service.footing, ht]
    rfl
  rw [hfoot]
  cases wait with
  | gate name => exact .goOn (fun _ h => by cases h)
  | worker => exact .goOn (fun _ h => by cases h)
  | lock id =>
    cases signal with
    | proceed => exact .arrive
    | cancel => exact .goOn fun _ _ => rfl

theorem agreed_endWait (h : Valid s) {frame : Frame} {wait : Wait} {signal : Signal}
    (ht : s.tasks[t]? = some (.waiting frame wait (some signal))) :
    Agreed (s.endWait t wait signal) ((s.endWait t wait signal).standing t
      ⟨Service.resumed frame.duties wait signal, none⟩) := by
  refine Agreed.deals (.single (.move (arrives ht))) ?_
  rw [Service.standing_eq_footing rfl]
  exact h.agreed

/-- A task goes on after its wait: it arrives, and then it runs. What `Service.resume_settles` asks
of the service is part of the invariant. -/
theorem resume_settles (h : Valid s) {frame : Frame} {wait : Wait} {signal : Signal}
    (ht : s.tasks[t]? = some (.waiting frame wait (some signal))) :
    Settles t (s, s.footing t) ((s.endWait t wait signal).resume t signal frame) := by
  obtain ⟨hfits, hclients⟩ := h.fine ht
  have hown : ∀ {d}, d ∈ frame.duties → d ∈ (s.footing t).duties := fun hd => by
    rw [Service.footing, ht]
    exact hd
  have htidy := (h.agreed_endWait ht).tidy
  obtain ⟨s₁, status, heq, hdeals, hfine⟩ := Service.resume_settles (t := t) htidy hfits
    (fun p hp => Service.offers_of_later (arrives ht).later (hclients p hp))
    (fun p hp => by
      rw [Service.parser?_endWait]
      exact h.agreed.lives.stage_of_load (hown hp))
    (fun r entry p hp => by
      rw [Service.registries_endWait]
      exact ((h.agreed.lives.stacked t).of_build (hown hp)).2.1) signal
  exact ⟨s₁, status, heq, .head (.move (arrives ht)) hdeals, hfine⟩

/-- A step settles, or nothing happens. The task is first taken off the list of ready ones, which is
quiet. -/
theorem step_cases (h : Valid s) (t : TaskId) :
    Quiet s (s.step t) ∨ ∃ s₀, Quiet s s₀ ∧ t < s₀.tasks.size
      ∧ Settles t (s₀, s₀.footing t) (s.step t) := by
  rw [Service.step]
  split
  · exact Or.inl (.refl s)
  -- the task is taken off the list of those that are ready, which nothing else depends on
  · have hquiet : Quiet s { s with ready := s.ready.erase t } := ⟨rfl, rfl, rfl, rfl, rfl, rfl⟩
    have hvalid := h.quiet hquiet
    generalize ({ s with ready := s.ready.erase t } : Service) = s₀ at hquiet hvalid ⊢
    dsimp only
    split
    · rename_i call ht
      refine Or.inr ⟨s₀, hquiet, (Array.getElem?_eq_some_iff.mp ht).1, s₀, _, rfl, ?_, trivial⟩
      rw [Service.footing, ht]
      exact .refl
    · rename_i call ht
      refine Or.inr ⟨s₀, hquiet, (Array.getElem?_eq_some_iff.mp ht).1, ?_⟩
      have hfoot : s₀.footing t = {} := by
        rw [Service.footing, ht]
        rfl
      rw [hfoot]
      exact Service.start_settles hvalid.agreed.tidy (hvalid.fine ht)
    · rename_i frame wait signal ht
      exact Or.inr ⟨s₀, hquiet, (Array.getElem?_eq_some_iff.mp ht).1, hvalid.resume_settles ht⟩
    · exact Or.inl hquiet

end Valid

/-! ## Runs -/

/-- What an action comes to, said once: what follows from a happening need not be proved action by
action. -/
inductive Happening (s : Service) : Service.Action → Service → Prop
  | changes {a : Service.Action} {s' : Service} (h : Changes s s') : Happening s a s'
  | waits {a : Service.Action} {s' : Service} (hothers : Undisturbed s s')
      (horderly : Orderly s' s'.footing) (hparsers : s'.parsers = s.parsers)
      (hregistries : s'.registries = s.registries) : Happening s a s'
  | addParser {a : Service.Action} {q : Parser} (horigin : q.origin = none)
      (hstage : q.stage = .uninitialized) (htally : q.tally = {})
      (hgrammar : q.grammarLoaded = false) : Happening s a (s.addParser q).1
  | setEngine (p : ParserId) (engine : Engine) :
      Happening s (.setEngine p engine) (s.modifyParser p ({ · with engine }))
  | spawn {call : Call} (hclients : ∀ p ∈ call.clients, s.offers p = true) :
      Happening s (.spawn call) (s.spawn call).1
  | step {t : TaskId} {s₀ s' : Service} (hquiet : Quiet s s₀) (ht : t < s₀.tasks.size)
      (h : Settles t (s₀, s₀.footing t) s') : Happening s (.step t) s'

namespace Happening

variable {s s' : Service} {a : Service.Action}

theorem quiet (h : Quiet s s') : Happening s a s' := .changes (Changes.quiet h)

theorem valid (h : Happening s a s') (hvalid : Valid s) : Valid s' := by
  cases h with
  | changes h => exact hvalid.changes h
  | waits hothers horderly hparsers hregistries =>
    exact hvalid.waits hothers horderly hparsers hregistries
  | addParser horigin hstage htally hgrammar =>
    exact hvalid.addParser horigin hstage htally hgrammar
  | setEngine p engine => exact hvalid.setEngine p engine
  | spawn hclients => exact hvalid.spawn hclients
  | step hquiet ht h => exact (hvalid.quiet hquiet).settles ht h

theorem later (h : Happening s a s') : Later s s' := by
  cases h with
  | changes h => exact h.later
  | waits _ _ hparsers _ => exact .of_parsers hparsers
  | addParser => exact .addParser _ _
  | setEngine p engine => exact .modifyParser fun q _ => ⟨rfl, id, id⟩
  | spawn => exact .of_parsers rfl
  | step hquiet _ h =>
    obtain ⟨s₁, status, rfl, hdeals, -⟩ := h
    exact (Later.of_parsers hquiet.parsers).trans hdeals.later

theorem alike (h : Happening s a s') {u : TaskId} {status : TaskStatus}
    (hu : s.tasks[u]? = some status) (hne : a ≠ .step u) :
    ∃ status', s'.tasks[u]? = some status' ∧ status.Alike status' := by
  cases h with
  | changes h => exact ⟨status, h.tasks ▸ hu, .refl status⟩
  | waits hothers => exact hothers.alike hu
  | addParser => exact ⟨status, hu, .refl status⟩
  | setEngine p engine => exact ⟨status, hu, .refl status⟩
  | spawn =>
    have hlt := (Array.getElem?_eq_some_iff.mp hu).1
    refine ⟨status, ?_, .refl status⟩
    rw [Service.task_spawn, if_neg (Nat.ne_of_lt hlt), hu]
  | step hquiet _ h =>
    rename_i t s₀ _
    obtain ⟨s₁, last, rfl, hdeals, -⟩ := h
    have hut : t ≠ u := fun heq => hne (heq ▸ rfl)
    obtain ⟨status', hu', halike⟩ := hdeals.undisturbed.alike (hquiet.tasks ▸ hu)
    refine ⟨status', ?_, halike⟩
    rw [Service.setTask, Array.getElem?_modify, if_neg hut, hu']

theorem exists_task (h : Happening s a s') {u : TaskId} {status : TaskStatus}
    (hu : s.tasks[u]? = some status) :
    ∃ status', s'.tasks[u]? = some status' := by
  by_cases hne : a = .step u
  · subst hne
    cases h with
    | changes h => exact ⟨status, h.tasks ▸ hu⟩
    | waits hothers =>
      obtain ⟨status', hu', -⟩ := hothers.alike hu
      exact ⟨status', hu'⟩
    | addParser => exact ⟨status, hu⟩
    | step hquiet _ h =>
      obtain ⟨s₁, last, rfl, hdeals, -⟩ := h
      obtain ⟨status', hu', -⟩ := hdeals.undisturbed.alike (hquiet.tasks ▸ hu)
      refine ⟨last, ?_⟩
      rw [Service.setTask, Array.getElem?_modify, if_pos rfl, hu']
      rfl
  · obtain ⟨status', hu', -⟩ := h.alike hu hne
    exact ⟨status', hu'⟩

end Happening

theorem Parser.fresh_of_ofBlueprint {b : Blueprint} {collector : Option CollectorId} {q : Parser}
    (h : Parser.ofBlueprint b collector = .ok q) :
    q.origin = none ∧ q.stage = .uninitialized ∧ q.tally = {} ∧ q.grammarLoaded = false := by
  rw [ofBlueprint] at h
  split at h
  · cases h
  · cases h
    exact ⟨rfl, rfl, rfl, rfl⟩

/-- **What each action comes to.** One case for each action; that a step settles is the only one
that needs the service to be valid in all respects. -/
theorem Valid.happening {s : Service} (h : Valid s) (a : Service.Action) :
    Happening s a (s.act a) := by
  cases a with
  | addCollector => exact .quiet ⟨rfl, rfl, rfl, rfl, rfl, rfl⟩
  | addParser blueprint collector =>
    rw [Service.act]
    split
    · rename_i q hq
      obtain ⟨horigin, hstage, htally, hgrammar⟩ := Parser.fresh_of_ofBlueprint hq
      exact .addParser horigin hstage htally hgrammar
    · exact .changes .refl
  | setEngine p engine => exact .setEngine p engine
  | disposeParser p => exact .changes (Service.disposeParser_changes s p)
  | newRegistry settings collector withTable =>
    exact .changes (Service.newRegistry_changes s settings collector withTable)
  | loadTable r path => exact .changes (Service.loadTable_changes s r path)
  | register r config => exact .changes (Service.register_changes s r config)
  | unregister r language => exact .changes (Service.unregister_changes s r language)
  | disposeRegistry r => exact .changes (Service.disposeRegistry_changes s r)
  | spawn call =>
    rw [Service.act]
    split
    · rename_i hclients
      exact .spawn (List.all_eq_true.mp hclients)
    · exact .changes .refl
  | step t =>
    rcases h.step_cases t with hquiet | ⟨s₀, hquiet, ht, hsettles⟩
    · exact .quiet hquiet
    · exact .step hquiet ht hsettles
  -- these three only wake tasks or mark them
  | cancel t =>
    obtain ⟨hparsers, hregistries⟩ := Service.stock_cancel s t
    exact .waits (.cancel s t) (h.agreed.orderly.cancel t) hparsers hregistries
  | finishWork t =>
    obtain ⟨hparsers, hregistries⟩ := Service.stock_finishWork s t
    exact .waits (.finishWork s t) (h.agreed.orderly.finishWork t) hparsers hregistries
  | openGate name =>
    obtain ⟨hparsers, hregistries⟩ := Service.stock_wakeAll { s with
      openGates := if s.openGates.contains name then s.openGates else name :: s.openGates }
      (s.atGates.filter (·.1 = name)) .proceed
    exact .waits (.openGate s name) (h.agreed.orderly.openGate name) hparsers hregistries
  | closeGate name => exact .quiet ⟨rfl, rfl, rfl, rfl, rfl, rfl⟩
  | setEvent event => exact .quiet ⟨rfl, rfl, rfl, rfl, rfl, rfl⟩
  | clearEvent event => exact .quiet ⟨rfl, rfl, rfl, rfl, rfl, rfl⟩
  | setNative reply => exact .quiet ⟨rfl, rfl, rfl, rfl, rfl, rfl⟩
  | setElapsed elapsed => exact .quiet ⟨rfl, rfl, rfl, rfl, rfl, rfl⟩
  | writeConfig path text =>
    rw [Service.act, Service.writeConfig]
    split
    · rename_i written hwritten
      split at hwritten
      · cases hwritten
        exact .quiet ⟨rfl, rfl, rfl, rfl, rfl, rfl⟩
      · cases hwritten
    · exact .changes .refl

theorem Valid.exists_task_step {s : Service} (h : Valid s) {t : TaskId} {status : TaskStatus}
    (ht : s.tasks[t]? = some status) : ∃ last, (s.step t).tasks[t]? = some last :=
  (h.happening (.step t)).exists_task ht

theorem Valid.task_act {s : Service} (h : Valid s) {P : TaskStatus → Prop}
    (halike : ∀ {a b}, P a → a.Alike b → P b) {u : TaskId} {status : TaskStatus}
    (hu : s.tasks[u]? = some status) (hP : P status)
    (hstep : ∃ status', (s.step u).tasks[u]? = some status' ∧ P status') (a : Service.Action) :
    ∃ status', (s.act a).tasks[u]? = some status' ∧ P status' := by
  by_cases ha : a = .step u
  · subst ha
    exact hstep
  · obtain ⟨status', hu', halike'⟩ := (h.happening a).alike hu ha
    exact ⟨status', hu', halike hP halike'⟩

/-- **Every service that a run leads to is valid.** -/
theorem valid_after (run : List Service.Action) : Valid (Service.after run) := by
  induction run using List.reverseRecOn with
  | nil => exact .empty
  | append_singleton run a ih =>
    rw [Service.after_concat]
    exact (ih.happening a).valid ih

theorem later_after (run more : List Service.Action) :
    Later (Service.after run) (Service.after (run ++ more)) := by
  induction more using List.reverseRecOn with
  | nil =>
    rw [List.append_nil]
    exact .refl _
  | append_singleton more a ih =>
    rw [← List.append_assoc, Service.after_concat]
    exact ih.trans ((valid_after (run ++ more)).happening a).later

end SyntaxForest
