import SyntaxForest.Proofs.Data.Assoc
import SyntaxForest.Proofs.Service.CallEffects
import SyntaxForest.Proofs.Tree.Census

/-!
# The books of a collector

Parsers may share a collector, and their parses may run side by side. What the collector has counted
is told by the list of the parses that have ended, in whatever order they came to their ends.

* **`Effects.gains`** — what a task does changes the counts of a collector by the marks that it
  leaves, and by nothing else.
* **`Service.ledger`** — the parses that end in a run with the parsers of a collector: their
  languages, and what they came to. A parse that is begun for a facade is listed like any other.
* **`Collector.Accounts`** — the counts agree with a list of parses. **`Collector.Tallies`** — what
  they are in any case. **`Service.tallies_foldl`** — they stay so in every run.
* **`Valid.endsSeen`** — what the ledger lists for a call is what its caller is given.
* **`parse_accounts_iff`** — from the moment a collector is made its counts agree with its ledger,
  if and only if no parse raises for want of words.
-/

namespace SyntaxForest

/-! ## Marks -/

namespace EngineMark

/-- The collector counted a parse of the language. -/
def isFor (c : CollectorId) (language : String) : EngineMark → Bool
  | began _ => false
  | counted collector spoken _ _ => decide (collector = some c) && decide (spoken = language)

/-- The collector counted a failure for the language. -/
def isFailureFor (c : CollectorId) (language : String) : EngineMark → Bool
  | began _ => false
  | counted collector spoken success _ =>
    decide (collector = some c) && decide (spoken = language) && !success

/-- The nodes that the collector counted. -/
def nodesFor (c : CollectorId) : EngineMark → Int
  | began _ => 0
  | counted collector _ _ nodes => if collector = some c then nodes else 0

end EngineMark

/-- All nodes that the collector counted. -/
def nodesCounted (c : CollectorId) : List EngineMark → Int
  | [] => 0
  | mark :: rest => mark.nodesFor c + nodesCounted c rest

theorem nodesCounted_append (c : CollectorId) (marks marks' : List EngineMark) :
    nodesCounted c (marks ++ marks') = nodesCounted c marks + nodesCounted c marks' := by
  induction marks with
  | nil => simp [nodesCounted]
  | cons mark rest ih =>
    rw [List.cons_append, nodesCounted, nodesCounted, ih]
    omega

theorem nodesCounted_countedIn (c : CollectorId) (marks : List EngineMark) :
    nodesCounted c (countedIn marks) = nodesCounted c marks := by
  induction marks with
  | nil => rfl
  | cons mark rest ih =>
    rw [countedIn] at ih ⊢
    cases mark with
    | began p =>
      rw [List.filter_cons_of_neg Bool.false_ne_true, ih, nodesCounted, EngineMark.nodesFor,
        Int.zero_add]
    | counted collector language success nodes =>
      rw [List.filter_cons_of_pos rfl, nodesCounted, nodesCounted, ih]

theorem countP_countedIn {test : EngineMark → Bool} (h : ∀ p, test (.began p) = false)
    (marks : List EngineMark) :
    (countedIn marks).countP test = marks.countP test := by
  rw [countedIn, List.countP_filter]
  congr 1
  funext mark
  cases mark with
  | began p => rw [h p, Bool.false_and]
  | counted collector language success nodes => exact Bool.and_true _

/-! ## What marks add to the counts -/

namespace Collector

/-- How many parses of a language were counted. -/
def parsesOf (k : Collector) (language : String) : Nat := (Assoc.get? k.parseCounts language).getD 0

/-- How many parses of a language were counted as failures. -/
def failuresOf (k : Collector) (language : String) : Nat :=
  (Assoc.get? k.failureCounts language).getD 0

/-- The times that the parses of a language took. -/
def timesOf (k : Collector) (language : String) : List Float :=
  (Assoc.get? k.latencies language).getD []

/-- The collector `c` was `k` and has become `k'`, and these marks account for the difference. -/
structure Gains (c : CollectorId) (marks : List EngineMark) (k k' : Collector) : Prop where
  parses : ∀ language, k'.parsesOf language = k.parsesOf language + marks.countP
    (·.isFor c language)
  failures : ∀ language, k'.failuresOf language = k.failuresOf language + marks.countP
    (·.isFailureFor c language)
  times : ∀ language, (k'.timesOf language).length = (k.timesOf language).length + marks.countP
    (·.isFor c language)
  nodes : ∀ {n}, k.nodesParsed = .int n → k'.nodesParsed = .int (n + nodesCounted c marks)

namespace Gains

variable {c : CollectorId} {marks marks' : List EngineMark} {k k' k'' : Collector}

theorem refl (c : CollectorId) (k : Collector) : Gains c [] k k :=
  ⟨fun _ => rfl, fun _ => rfl, fun _ => rfl, fun {n} h => by rw [h, nodesCounted, Int.add_zero]⟩

theorem append (h : Gains c marks k k') (h' : Gains c marks' k' k'') :
    Gains c (marks ++ marks') k k'' := by
  refine ⟨fun language => ?_, fun language => ?_, fun language => ?_, fun {n} hn => ?_⟩
  · rw [h'.parses, h.parses, List.countP_append, Nat.add_assoc]
  · rw [h'.failures, h.failures, List.countP_append, Nat.add_assoc]
  · rw [h'.times, h.times, List.countP_append, Nat.add_assoc]
  · rw [h'.nodes (h.nodes hn), nodesCounted_append, Int.add_assoc]

theorem countedIn (h : Gains c marks k k') : Gains c (countedIn marks) k k' := by
  refine ⟨fun language => ?_, fun language => ?_, fun language => ?_, fun {n} hn => ?_⟩
  · rw [countP_countedIn fun _ => rfl, h.parses]
  · rw [countP_countedIn fun _ => rfl, h.failures]
  · rw [countP_countedIn fun _ => rfl, h.times]
  · rw [nodesCounted_countedIn, h.nodes hn]

theorem of_other {collector : Option CollectorId} (h : collector ≠ some c) (language : String)
    (success : Bool) (nodes : Int) (k : Collector) :
    Gains c [.counted collector language success nodes] k k := by
  refine ⟨fun _ => ?_, fun _ => ?_, fun _ => ?_, fun {n} hn => ?_⟩
  · simp [EngineMark.isFor, h]
  · simp [EngineMark.isFailureFor, h]
  · simp [EngineMark.isFor, h]
  · simp [nodesCounted, EngineMark.nodesFor, h, hn]

end Gains

/-- **A parse is counted** once, with its time and its nodes, and as a failure if it is one. -/
theorem gains_recordParse (c : CollectorId) (k : Collector) (language : String) (elapsed : Float)
    (success : Bool) (nodes : Int) :
    Gains c [.counted (some c) language success nodes] k
      (k.recordParse language elapsed success nodes) := by
  -- each table is altered at one language, and is looked at for any other one
  refine ⟨fun other => ?_, fun other => ?_, fun other => ?_, fun {n} hn => ?_⟩
  · rw [parsesOf, recordParse, increment, Assoc.getD_alter]
    by_cases h : language = other <;> simp [parsesOf, EngineMark.isFor, h]
  · cases success with
    | true => simp [failuresOf, recordParse, EngineMark.isFailureFor]
    | false =>
      simp only [failuresOf, recordParse, increment, Bool.false_eq_true, if_false, Assoc.getD_alter]
      by_cases h : language = other <;> simp [EngineMark.isFailureFor, h]
  · rw [timesOf, recordParse, Assoc.getD_alter]
    by_cases h : language = other <;> simp [timesOf, EngineMark.isFor, h]
  · simp [recordParse, hn, Number.plus, nodesCounted, EngineMark.nodesFor]

end Collector

theorem Service.collectors_count (s : Service) (q : Parser) (change : Collector → Collector)
    (c : CollectorId) :
    (s.count q change).collectors[c]? = if q.collector = some c then s.collectors[c]?.map change
      else s.collectors[c]? := by
  rw [count]
  split
  · rename_i c' hc'
    rw [hc', Array.getElem?_modify]
    simp [eq_comm]
  · rename_i hnone
    rw [hnone]
    rfl

theorem Effect.gains {l : Leave} {marks : List EngineMark} {s s' : Service}
    (h : Effect l marks s s') {c : CollectorId} {k : Collector} (hk : s.collectors[c]? = some k) :
    ∃ k', s'.collectors[c]? = some k' ∧ Collector.Gains c marks k k' := by
  have hstays := Collector.Gains.refl c k
  cases h with
  | idle h =>
    have houtside := h.outside
    simp only [Service.outside, Prod.mk.injEq] at houtside
    exact ⟨k, houtside.1 ▸ hk, hstays⟩
  | change => exact ⟨k, hk, hstays⟩
  | retire => exact ⟨k, hk, hstays⟩
  | add => exact ⟨k, hk, hstays⟩
  | found => exact ⟨k, hk, hstays⟩
  | registry => exact ⟨k, hk, hstays⟩
  | engage p =>
    -- to set an engine to work leaves a mark, but one that counts for nothing
    exact ⟨k, hk, hstays.parses, hstays.failures, hstays.times, hstays.nodes⟩
  | time q language elapsed =>
    rw [Service.collectors_count, hk]
    split
    · -- the times of initializations are kept in a table of their own
      exact ⟨_, rfl, hstays.parses, hstays.failures, hstays.times, hstays.nodes⟩
    · exact ⟨k, rfl, hstays⟩
  | count q language elapsed success nodes =>
    rw [Service.collectors_count, hk]
    split
    · rename_i hcollector
      rw [hcollector]
      exact ⟨_, rfl, k.gains_recordParse ..⟩
    · rename_i hother
      exact ⟨k, rfl, .of_other hother ..⟩

/-- **What a task does to a collector** is told by the marks that it leaves. -/
theorem Effects.gains {l : Leave} {marks : List EngineMark} {s s' : Service}
    (h : Effects l marks s s') {c : CollectorId} {k : Collector} (hk : s.collectors[c]? = some k) :
    ∃ k', s'.collectors[c]? = some k' ∧ Collector.Gains c marks k k' := by
  induction h with
  | refl => exact ⟨k, hk, .refl c k⟩
  | tail _ hlast ih =>
    obtain ⟨k₁, hk₁, hgains⟩ := ih hk
    obtain ⟨k₂, hk₂, hgains'⟩ := hlast.gains hk₁
    exact ⟨k₂, hk₂, hgains.append hgains'⟩

/-! ## Ledgers -/

/-- The entry of a parse that has ended, in the books of the collector of its parser. -/
def entriesFor (c : CollectorId) : Option EndedParse → List EndedParse
  | some ended => if ended.parser.collector = some c then [ended] else []
  | none => []

/-- **The ledger of a collector**: the parses that end in a run and whose parsers have this
collector, in order. -/
def Service.ledger (c : CollectorId) : Service → List Service.Action → List EndedParse
  | _, [] => []
  | s, a :: rest => entriesFor c (s.parseEnd? a) ++ ledger c (s.act a) rest

namespace EndedParse

/-- It is a parse of the language. -/
def isOf (language : String) (ended : EndedParse) : Bool := ended.parser.language = language

/-- The parse returned a tree. -/
def returnedTree (ended : EndedParse) : Bool := (returnedTree? ended.result).isSome

/-- The parse returned that the parsing failed. -/
def failed (ended : EndedParse) : Bool := returnedFailure ended.result

end EndedParse

/-- The nodes of all trees that were returned. -/
def nodesReturned : List EndedParse → Nat
  | [] => 0
  | entry :: rest =>
    ((returnedTree? entry.result).elim 0 fun tree => tree.allNodes.length) + nodesReturned rest

theorem nodesReturned_append (entries entries' : List EndedParse) :
    nodesReturned (entries ++ entries') = nodesReturned entries + nodesReturned entries' := by
  induction entries with
  | nil => simp [nodesReturned]
  | cons entry rest ih =>
    rw [List.cons_append, nodesReturned, nodesReturned, ih]
    omega

/-- **The counts agree with the parses that have ended.** A parse counts if it returned a tree or
that the parsing failed. -/
structure Collector.Accounts (k : Collector) (ended : List EndedParse) : Prop where
  parses : ∀ language, k.parsesOf language = ended.countP fun e =>
    e.isOf language && (e.returnedTree || e.failed)
  failures : ∀ language, k.failuresOf language = ended.countP fun e => e.isOf language && e.failed
  times : ∀ language, (k.timesOf language).length = k.parsesOf language
  nodes : k.nodesParsed = .int (nodesReturned ended)

/-- **What the counts are in any case**: a parse counts as a failure too if it raised because the
fault of its engine could not be written. -/
structure Collector.Tallies (k : Collector) (ended : List EndedParse) : Prop where
  parses : ∀ language, k.parsesOf language
    = ended.countP fun e => e.isOf language && (e.returnedTree || e.failed || e.isUntold)
  failures : ∀ language, k.failuresOf language = ended.countP fun e =>
    e.isOf language && (e.failed || e.isUntold)
  times : ∀ language, (k.timesOf language).length = k.parsesOf language
  nodes : k.nodesParsed = .int (nodesReturned ended)

theorem returnedFailure_of_tree {x : Except Fault (ParseResult SyntaxTree)} {tree : SyntaxTree}
    (h : returnedTree? x = some tree) : returnedFailure x = false := by
  cases x with
  | error e => rfl
  | ok result =>
    rw [returnedTree?] at h
    split at h
    · rename_i hsuccess
      rw [returnedFailure, ParseResult.isFailure, hsuccess]
      rfl
    · cases h

namespace EndedParse

theorem result_of_isUntold {ended : EndedParse} (h : ended.isUntold = true) :
    ∃ e, ended.result = .error e := by
  rw [isUntold] at h
  split at h
  · rename_i e _ hresult
    exact ⟨_, hresult⟩
  · cases h

theorem failed_of_isUntold {ended : EndedParse} (h : ended.isUntold = true) :
    ended.failed = false := by
  obtain ⟨e, hresult⟩ := result_of_isUntold h
  rw [failed, hresult]
  rfl

theorem countP_failed_or_untold (language : String) (ended : List EndedParse) :
    (ended.countP fun e => e.isOf language && (e.failed || e.isUntold))
      = (ended.countP fun e => e.isOf language && e.failed) + ended.countP fun e =>
        e.isOf language && e.isUntold := by
  induction ended with
  | nil => rfl
  | cons e rest ih =>
    rw [List.countP_cons, List.countP_cons, List.countP_cons, ih]
    -- a parse is in one of the two counts on the right, never in both
    cases huntold : e.isUntold with
    | false =>
      rw [Bool.or_false, Bool.and_false]
      simp only [Bool.false_eq_true, if_false]
      omega
    | true =>
      rw [failed_of_isUntold huntold, Bool.false_or, Bool.and_false]
      simp only [Bool.false_eq_true, if_false]
      omega

/-- What is counted about a parse, as its entry tells it. -/
theorem counts_cases (ended : EndedParse) :
    (∃ tree, returnedTree? ended.result = some tree ∧ ended.failed = false ∧ ended.isUntold = false
        ∧ ended.counts = [.counted ended.parser.collector ended.parser.language
          true tree.allNodes.length])
      ∨ (returnedTree? ended.result = none ∧ (ended.failed || ended.isUntold) = true
        ∧ ended.counts = [.counted ended.parser.collector ended.parser.language false 0])
      ∨ (returnedTree? ended.result = none ∧ (ended.failed || ended.isUntold) = false
        ∧ ended.counts = []) := by
  rw [counts]
  -- the count of the nodes was taken from the metrics of the tree
  cases htree : returnedTree? ended.result with
  | some tree =>
    refine Or.inl ⟨tree, rfl, returnedFailure_of_tree htree, ?_, ?_⟩
    · refine Bool.eq_false_iff.mpr fun huntold => ?_
      obtain ⟨e, hresult⟩ := result_of_isUntold huntold
      rw [hresult] at htree
      cases htree
    · rw [← tree.totalNodes_metrics]
  | none =>
    change _ ∨ (_ ∧ _ ∧ (if ended.failed || ended.isUntold then _ else _) = _)
      ∨ (_ ∧ _ ∧ (if ended.failed || ended.isUntold then _ else _) = _)
    cases ended.failed || ended.isUntold with
    | true => exact Or.inr (Or.inl ⟨rfl, rfl, rfl⟩)
    | false => exact Or.inr (Or.inr ⟨rfl, rfl, rfl⟩)

end EndedParse

/-- **The marks of a parse that has ended say the same as its entry.** -/
theorem countsOf_entriesFor (c : CollectorId) (ended? : Option EndedParse) :
    (∀ language, (countsOf ended?).countP (·.isFor c language)
        = (entriesFor c ended?).countP fun e =>
          e.isOf language && (e.returnedTree || e.failed || e.isUntold))
      ∧ (∀ language, (countsOf ended?).countP (·.isFailureFor c language)
        = (entriesFor c ended?).countP fun e => e.isOf language && (e.failed || e.isUntold))
      ∧ nodesCounted c (countsOf ended?) = nodesReturned (entriesFor c ended?) := by
  cases ended? with
  | none => exact ⟨fun _ => rfl, fun _ => rfl, rfl⟩
  | some ended =>
    rw [countsOf, Option.elim_some, entriesFor]
    -- a parse whose parser has another collector has marks, but no entry
    rcases ended.counts_cases with ⟨tree, htree, hfailed, huntold, hcounts⟩
      | ⟨htree, hfailed, hcounts⟩
      | ⟨htree, hfailed, hcounts⟩
    all_goals
      rw [hcounts]
      by_cases hc : ended.parser.collector = some c <;>
        simp_all [EngineMark.isFor, EngineMark.isFailureFor, EngineMark.nodesFor,
          nodesCounted, nodesReturned,
          EndedParse.isOf, EndedParse.returnedTree, List.countP_singleton]

namespace Collector.Tallies

variable {c : CollectorId} {k k' : Collector} {ended : List EndedParse}

theorem empty : ({} : Collector).Tallies [] := ⟨fun _ => rfl, fun _ => rfl, fun _ => rfl, rfl⟩

theorem after (h : k.Tallies ended) {ended? : Option EndedParse}
    (hgains : Gains c (countsOf ended?) k k') :
    k'.Tallies (ended ++ entriesFor c ended?) := by
  obtain ⟨hparses, hfailures, hnodes⟩ := countsOf_entriesFor c ended?
  refine ⟨fun language => ?_, fun language => ?_, fun language => ?_, ?_⟩
  · rw [hgains.parses, h.parses, List.countP_append, hparses]
  · rw [hgains.failures, h.failures, List.countP_append, hfailures]
  · rw [hgains.times, hgains.parses, h.times]
  · rw [hgains.nodes h.nodes, hnodes, nodesReturned_append, Int.natCast_add]

/-- **When the counts tell what was returned**: the parses that raised for want of words are all
that is counted besides. -/
theorem accounts_iff (h : k.Tallies ended) :
    k.Accounts ended ↔ ∀ e ∈ ended, e.isUntold = false := by
  constructor
  · intro haccounts e he
    -- the failures of its language would be more than were returned
    have hcounts := (h.failures e.parser.language).symm.trans (haccounts.failures e.parser.language)
    rw [EndedParse.countP_failed_or_untold] at hcounts
    have hnone : (ended.countP fun e' => e'.isOf e.parser.language && e'.isUntold) = 0 := by omega
    have hnot := List.countP_eq_zero.mp hnone e he
    simpa [EndedParse.isOf] using hnot
  · intro htold
    have hsame : ∀ language,
        (ended.countP fun e => e.isOf language && (e.returnedTree || e.failed || e.isUntold))
        = ended.countP fun e => e.isOf language && (e.returnedTree || e.failed) := fun language =>
      List.countP_congr fun e he => by rw [htold e he, Bool.or_false]
    have hfailed : ∀ language, (ended.countP fun e => e.isOf language && (e.failed || e.isUntold))
        = ended.countP fun e => e.isOf language && e.failed := fun language =>
      List.countP_congr fun e he => by rw [htold e he, Bool.or_false]
    exact ⟨fun language => (h.parses language).trans (hsame language),
      fun language => (h.failures language).trans (hfailed language), h.times, h.nodes⟩

end Collector.Tallies

/-! ## Runs -/

namespace Service

variable {c : CollectorId} {k : Collector}

/-- **What happens to a collector** with an action: it counts the parse that ends in it, and nothing
else. -/
theorem act_gains {s : Service} (a : Service.Action) (hk : s.collectors[c]? = some k) :
    ∃ k', (s.act a).collectors[c]? = some k' ∧ Collector.Gains c (countsOf (s.parseEnd? a))
      k k' := by
  cases houtside : a.isOutside with
  | false =>
    obtain ⟨marks, heffects, hcounts⟩ := s.act_effects houtside
    obtain ⟨k', hk', hgains⟩ := heffects.gains hk
    exact ⟨k', hk', hcounts ▸ hgains.countedIn⟩
  | true =>
    have hstays := Collector.Gains.refl c k
    cases a with
    | addCollector =>
      -- a new collector stands behind this one
      refine ⟨k, ?_, hstays⟩
      change (s.collectors.push {})[c]? = some k
      rw [Array.getElem?_push, if_neg (Nat.ne_of_lt (Array.getElem?_eq_some_iff.mp hk).1)]
      exact hk
    | setEngine p engine => exact ⟨k, hk, hstays⟩
    | setEvent event => exact ⟨k, hk, hstays⟩
    | clearEvent event => exact ⟨k, hk, hstays⟩
    | setNative reply => exact ⟨k, hk, hstays⟩
    | _ => cases houtside

/-- The counts of a collector are told by its ledger, however long the run. -/
theorem tallies_foldl (more : List Service.Action) {s : Service} {ended : List EndedParse}
    (hk : s.collectors[c]? = some k) (htallies : k.Tallies ended) :
    ∃ k', (more.foldl act s).collectors[c]? = some k' ∧ k'.Tallies (ended ++ ledger c s more) := by
  -- by induction on what is still to come: the books are kept up to date with each action
  induction more generalizing s k ended with
  | nil => exact ⟨k, hk, by rwa [ledger, List.append_nil]⟩
  | cons a rest ih =>
    obtain ⟨k₁, hk₁, hgains⟩ := act_gains a hk
    rw [ledger, ← List.append_assoc]
    exact ih hk₁ (htallies.after hgains)

theorem new_collector (run : List Service.Action) :
    (after (run ++ [.addCollector])).collectors[(after run).collectors.size]? = some {} := by
  rw [after_concat]
  exact Array.getElem?_push_size

/-! ## What callers see -/

/-- **What ends in a step is what the caller of a parse is given.** -/
structure EndsSeen (s : Service) (t : TaskId) : Prop where
  seen : ∀ {status p q request}, s.tasks[t]? = some status →
    status.call? = some (.parse p request) →
    s.parser? p = some q → (∀ cancelled, status = .fresh (.parse p request) cancelled →
      q.engine.answer = none) →
    ∀ {outcome}, (s.step t).result? t = some outcome
      ↔ ∃ ended, s.stepEnd? t = some ended ∧ q.Same ended.parser
        ∧ outcome = ended.result.map .parsed

variable {s : Service} {t : TaskId} {p : ParserId} {q : Parser} {request : ParseRequest}
  {status : TaskStatus}

/-- A parse has a turn in a step of its task, in which it may be cancelled before it begins, or the
step does nothing. -/
theorem parse_turn (ht : s.tasks[t]? = some status) (hcall : status.call? = some (.parse p request))
    (hp : s.parser? p = some q)
    (hanswer : ∀ cancelled, status = .fresh (.parse p request) cancelled → q.engine.answer = none) :
    (∃ s₀ engaged y, s.step t = settleRun t (.parse p request) finishParse y
        ∧ s.stepEnd? t = endOf s₀ p request engaged y ∧ ∃ q', y.1.parser? p = some q' ∧ q.Same q')
      ∨ ((s.step t).result? t = none ∧ s.stepEnd? t = none) := by
  have hunqueued : Effects noLeave [] s { s with ready := s.ready.erase t } := .idle rfl rfl rfl
  by_cases hready : t ∈ s.ready
  · rw [stepEnd?_of_ready hready ht]
    cases status with
    | finished result => cases hcall
    | fresh call cancelled =>
      cases hcall
      cases cancelled with
      | true =>
        exact Or.inl ⟨_, _, ({ s with ready := s.ready.erase t }, .finished (.error .cancelled)),
          step_of_cancelled hready ht, rfl, q, hp, .refl q⟩
      | false =>
        obtain ⟨marks, heffects, -⟩ := beginParse_effects (l := noLeave) (t := t)
          { s with ready := s.ready.erase t } p request
        obtain ⟨q', hq', hsame, -⟩ := (hunqueued.append heffects).same hp
        refine Or.inl ⟨_, _, _, step_of_fresh hready ht, if_pos ?_, q', hq', hsame⟩
        -- the parser has no answer of its own, so this is a parse
        change (s.parser? p).any _ = true
        rw [hp, Option.any_some, hanswer false rfl]
        rfl
    | waiting frame wait signal =>
      cases signal with
      | none =>
        refine Or.inr ⟨?_, rfl⟩
        rw [step_of_unsignalled hready ht, result?, ht]
      | some signal =>
        cases frame with
        | parse p' request' point =>
          cases hcall
          obtain ⟨marks, heffects, -⟩ := resumeParse_effects (l := noLeave) (t := t)
            (({ s with ready := s.ready.erase t } : Service).endWait t wait signal)
              p request point signal
          obtain ⟨q', hq', hsame, -⟩ :=
            ((hunqueued.trans (endWait_effects ..)).append heffects).same hp
          exact Or.inl ⟨_, _, _, step_of_waiting hready ht, rfl, q', hq', hsame⟩
        | _ => cases hcall
  · refine Or.inr ⟨?_, by rw [stepEnd?, if_neg hready]⟩
    rw [step_of_not_ready hready, result?, ht]
    cases status with
    | finished result => cases hcall
    | fresh call cancelled => rfl
    | waiting frame wait signal => rfl

end Service

theorem Valid.endsSeen {s : Service} (h : Valid s) (t : TaskId) : s.EndsSeen t := by
  refine ⟨fun {status p q request} ht hcall hp hanswer {outcome} => ?_⟩
  rcases Service.parse_turn ht hcall hp hanswer with ⟨s₀, engaged, y, hstep, hend, q', hq', hsame⟩
    | ⟨hresult, hend⟩
  · obtain ⟨last, hlast⟩ := h.exists_task_step ht
    rw [hstep] at hlast
    rw [hstep, hend, Service.result?_finishParse_iff hlast]
    -- the run has ended the call if and only if it has ended the parse
    constructor
    · rintro ⟨x, hx, rfl⟩
      exact ⟨⟨q', _, x⟩, by rw [Service.endOf, hx, hq']; rfl, hsame, rfl⟩
    · rintro ⟨ended, hx, -, rfl⟩
      rw [Service.endOf] at hx
      split at hx
      · rename_i x' hrun
        rw [hq'] at hx
        cases hx
        exact ⟨x', hrun, rfl⟩
      · cases hx
  · rw [hresult, hend]
    simp

/-- It is a fault, or the result of a parse that ends before the engine is set to work. -/
inductive Uncounted : Except Fault (ParseResult SyntaxTree) → Prop
  | raised (e : Fault) : Uncounted (.error e)
  | declined (q : Parser) (request : ParseRequest) {message : String}
      (h : Service.Declines message) :
      Uncounted (.ok (Service.failedParse q request message))

/-- **The books of a collector**, from the moment it is made: it has counted what its ledger tells,
and the ledger lists what the callers of parses have been given. -/
structure ParseAccounts (before more : List Service.Action) : Prop where
  accounts : ∃ k, (Service.after (before ++ .addCollector :: more)).collectors[(Service.after
    before).collectors.size]? = some k
    ∧ k.Accounts (Service.ledger (Service.after before).collectors.size
      (Service.after (before ++ [.addCollector])) more)
  seen : ∀ {past future t}, more = past ++ .step t :: future →
    (Service.after (before ++ .addCollector :: past)).EndsSeen t
  /-- Faults, parses without a text and failed initializations are in no count. -/
  uncounted : ∀ {x}, Uncounted x → returnedTree? x = none ∧ returnedFailure x = false

/-- **When the books are right.** In every run, with any number of parsers that share a collector
and with calls that run side by side: for each language the collector has counted the parses that
returned a tree or that the parsing failed, has counted the latter as failures, and has kept a time
for each of them; it has counted the nodes of all trees that were returned, and nothing about parses
that raised, that had no text or whose parser could not be initialized. All this holds if and only
if no parse raised because the fault of its engine could not be written. Such a parse is counted as
a failure before it raises, and nothing else is counted in any case. -/
theorem parse_accounts_iff (before more : List Service.Action) :
    (ParseAccounts before more
        ↔ ∀ e ∈ Service.ledger (Service.after before).collectors.size
          (Service.after (before ++ [.addCollector])) more,
          e.isUntold = false)
      ∧ ∃ k, (Service.after (before ++ .addCollector :: more)).collectors[(Service.after
        before).collectors.size]? = some k
        ∧ k.Tallies
          (Service.ledger (Service.after before).collectors.size
            (Service.after (before ++ [.addCollector])) more) := by
  obtain ⟨k, hk, htallies⟩ := Service.tallies_foldl more (Service.new_collector before) .empty
  rw [List.nil_append] at htallies
  have hk' : (Service.after (before ++ .addCollector :: more)).collectors[(Service.after
      before).collectors.size]?
      = some k := by
    rw [List.append_cons, Service.after_append]
    exact hk
  -- the counts are what they are in any case; whether they agree is a matter of the ledger
  refine ⟨⟨fun haccounts => ?_, fun htold => ⟨⟨k, hk', htallies.accounts_iff.mpr htold⟩,
    fun _ => (valid_after _).endsSeen _,
    fun hx => ?_⟩⟩, k, hk', htallies⟩
  · obtain ⟨k', hk'', hbooks⟩ := haccounts.accounts
    cases hk'.symm.trans hk''
    exact htallies.accounts_iff.mp hbooks
  · cases hx with
    | raised e => exact ⟨rfl, rfl⟩
    | declined q request h => exact ⟨rfl, Service.returnedFailure_of_declines h⟩

/-- Two parsers share a collector. The parse that begins first ends last, with a tree, after the
other one has failed. -/
example :
    let slow : Engine :=
  { parsePause := .gate "open", parse := fun _ _ _ => .ok { nodes := #[some { kind := "text" }] } }
    let broken : Engine := { parse := fun _ _ _ => .error (.ofText .runtime "no") }
    let run : List Service.Action := [.addCollector,
      .addParser { name := "Slow", language := "text", engine := slow } (some 0),
      .addParser { name := "Broken", language := "text", engine := broken } (some 0),
      .spawn (.parse 0 { source := some "a" }), .spawn (.parse 1 { source := some "b" }),
      .step 0, .step 1,
      .openGate "open", .step 0]
    (Service.after run).collectors[0]?.map
      (fun k => (k.parseCounts, k.failureCounts, (k.timesOf "text").length))
      = some ([("text", 2)], [("text", 1)], 2) := by
  decide +kernel

/-- A parser whose engine raises that fault is set to work once, for the collector made before
it. -/
def unwritableParse : List Service.Action :=
  [.addParser { name := "Parser", language := "text", engine := {
    parse := fun _ _ _ => .error unwritableFault } } (some 0),
    .spawn (.parse 0 { source := some "a" }), .step 0]

/-- The parse raises, and yet it is counted, as a parse and as a failure. -/
theorem unwritable_fault_counted :
    ((Service.after (.addCollector :: unwritableParse)).result? 0).bind raisedKind?
      = some "ValueError"
      ∧ (Service.after (.addCollector :: unwritableParse)).collectors[0]?.map
          (fun k => (k.parseCounts, k.failureCounts, (k.timesOf "text").length))
        = some ([("text", 1)], [("text", 1)], 1)
      ∧ ¬ParseAccounts [] unwritableParse := by
  have hcounted : (Service.after (.addCollector :: unwritableParse)).collectors[0]?.map
      (·.failuresOf "text") = some 1 := by
    decide +kernel
  have hreturned : ((Service.ledger 0 (Service.after [.addCollector]) unwritableParse).countP
      fun e => e.isOf "text" && e.failed) = 0 := by
    decide +kernel
  refine ⟨by decide +kernel, by decide +kernel, fun haccounts => ?_⟩
  obtain ⟨k, hk, hbooks⟩ := haccounts.accounts
  have hfailures : k.failuresOf "text" = 0 := (hbooks.failures "text").trans hreturned
  have hk : (Service.after (.addCollector :: unwritableParse)).collectors[0]? = some k := hk
  rw [hk, Option.map_some, hfailures] at hcounted
  cases hcounted

end SyntaxForest
