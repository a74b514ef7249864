import SyntaxForest.Proofs.Service.Effects
import SyntaxForest.Proofs.Service.Faults

/-!
# What calls do, and how a parse ends

The effects of parsing, of asking for a parser and of whole steps. A parse has many ways to end, and
each of them leaves the marks that belong to it: a tree and a failure of the engine are counted
once, nothing else is counted.

* **`ParseEnds`** — every way in which a run of a parse can end, with what the engine gave in it and
  the marks that the run leaves. **`endEngine_ends`**, **`parseLocked_ends`** and their like — one
  lemma for each part of a parse.
* **`ParseEnds.effects`** — what is counted about a run is told by what the parse returned.
* **`getLocked_effects`**, **`beginGet_effects`**, **`resumeGet_effects`** — asking a registry may
  dispose of the parser that is being built, and of no other.
* **`step_effects`**, **`act_effects`** — a step of a task, and any other action: what is counted
  belongs to the parse that ends in it.
-/

namespace SyntaxForest

/-! ## What is counted -/

/-- It is the mark of a parse that was counted. -/
def EngineMark.isCounted : EngineMark → Bool
  | .began _ => false
  | .counted _ _ _ _ => true

/-- The marks of the parses that were counted. -/
def countedIn (marks : List EngineMark) : List EngineMark := marks.filter EngineMark.isCounted

theorem countedIn_append (marks marks' : List EngineMark) :
    countedIn (marks ++ marks') = countedIn marks ++ countedIn marks' := List.filter_append ..

/-- A text that begins in this way. -/
def Datum.opensWith (opening : String) : Datum → Bool
  | .text message => Text.startsWith message opening
  | _ => false

theorem Datum.opensWith_append (opening rest : String) :
    Datum.opensWith opening (.text (opening ++ rest)) = true := by
  rw [opensWith, Text.startsWith, String.toList_append, List.isPrefixOf_iff_prefix]
  exact List.prefix_append ..

/-- The tree that a parse returned, if it returned one. -/
def returnedTree? : Except Fault (ParseResult SyntaxTree) → Option SyntaxTree
  | .ok result => if result.success then result.value else none
  | .error _ => none

/-- A parse returned that the parsing failed. -/
def returnedFailure : Except Fault (ParseResult SyntaxTree) → Bool
  | .ok result => result.isFailure && result.message.any (Datum.opensWith "Parsing failed: ")
  | .error _ => false

/-- A parse that has ended: its parser, what the engine gave if it got done in the last turn, and
what the parse came to. -/
structure EndedParse where
  parser : Parser
  reply : Option (Except Fault Forest)
  result : Except Fault (ParseResult SyntaxTree)

namespace EndedParse

/-- The parse raised, after the engine had failed with a fault that cannot be written. -/
def isUntold (ended : EndedParse) : Bool :=
  match ended.reply, ended.result with
  | some (.error e), .error _ => e.isUntold Service.escapes
  | _, _ => false

/-- What is counted about the parse. A failure of the engine is counted before anybody tries to
write it. -/
def counts (ended : EndedParse) : List EngineMark :=
  match returnedTree? ended.result with
  | some tree =>
    [.counted ended.parser.collector ended.parser.language true tree.metrics.totalNodes]
  | none =>
    if returnedFailure ended.result || ended.isUntold then
      [.counted ended.parser.collector ended.parser.language false 0]
    else []

end EndedParse

/-- What is counted when this parse has ended, or when none has. -/
def countsOf (ended? : Option EndedParse) : List EngineMark := ended?.elim [] EndedParse.counts

namespace Service

variable {l : Leave} {t : TaskId}

/-! ## How a parse ends -/

/-- The message of a parse that ends before the engine is set to work. -/
def Declines (message : String) : Prop :=
  message = emptySourceMessage ∨ ∃ text, message = "Initialization failed: " ++ text

/-- The tree that a forest of the engine gives. -/
def treeOf (q : Parser) (request : ParseRequest) (forest : Forest) : Except TreeError SyntaxTree :=
  SyntaxTree.make forest (if forest.size = 0 then none else some 0) request.source
    (some q.language) request.file

/-- **How a run of a parse can end**, that begins in `s` with the parser `q`, where `u` are the
faults that the initialization may end with in the run. The indices are the marks that the run
leaves before the engine is done, what the engine gives if it gets done, and the end of the run.
There is one constructor for each way out of a parse, so that a statement about all of them is a
proof by cases. -/
inductive ParseEnds (u : Fault → Prop) (l : Leave) (q : Parser) (request : ParseRequest)
    (s : Service) :
    List EngineMark → Option (Except Fault Forest) → Service × Run ParsePoint
      (ParseResult SyntaxTree) → Prop
  | waits {marks : List EngineMark} {s' : Service} {point : ParsePoint} {wait : Wait}
      (h : Effects l marks s s') (hquiet : countedIn marks = []) :
      ParseEnds u l q request s marks none (s', .waiting point wait)
  | raises {s' : Service} {e : Fault} (h : Effects l [] s s')
      (he : e.isDisposed = true ∨ e.isCancelled = true) :
      ParseEnds u l q request s [] none (s', .finished (.error e))
  /-- The initialization fails with a fault that no parse keeps to itself. -/
  | aborts {s' : Service} {e : Fault} (h : Effects l [] s s') (hu : u e) (he : escapes e = true) :
      ParseEnds u l q request s [] none (s', .finished (.error e))
  /-- The initialization fails with a fault that cannot be written. -/
  | withholds {s' : Service} {e : Fault} (h : Effects l [] s s') (hu : u e)
      (he : e.isUntold escapes = true) :
      ParseEnds u l q request s [] none (s', .finished (.error (.tooManyDigits "")))
  | declines {s' : Service} {message : String} (h : Effects l [] s s')
      (hmessage : Declines message) :
      ParseEnds u l q request s [] none (s', .finished (.ok (failedParse q request message)))
  /-- The engine fails with a fault that no parse keeps to itself. -/
  | breaks {marks : List EngineMark} {s' : Service} {e : Fault} (h : Effects l marks s s')
      (he : escapes e = true) :
      ParseEnds u l q request s marks (some (.error e)) (s', .finished (.error e))
  /-- The engine fails with a fault that cannot be written. -/
  | loses {marks : List EngineMark} {s' : Service} {e : Fault}
      (h : Effects l (marks ++ [.counted q.collector q.language false 0]) s s')
      (he : e.isUntold escapes = true) :
      ParseEnds u l q request s marks (some (.error e)) (s', .finished (.error (.tooManyDigits "")))
  | fails {marks : List EngineMark} {s' : Service} {e : Fault}
      (h : Effects l (marks ++ [.counted q.collector q.language false 0]) s s')
      (he : escapes e = false) (hwritable : e.isWritable = true) :
      ParseEnds u l q request s marks (some (.error e))
        (s', .finished (.ok (failedParse q request ("Parsing failed: " ++ e.text))))
  /-- The engine gives a forest, but the parse was called off. -/
  | stops {marks : List EngineMark} {s' : Service} {forest : Forest} (h : Effects l marks s s')
      (hset : s.isSet request.event = true) :
      ParseEnds u l q request s marks (some (.ok forest)) (s', .finished (.error .cancelled))
  /-- The engine gives a forest of which no tree can be made. -/
  | refuses {marks : List EngineMark} {s' : Service} {forest : Forest} {e : TreeError}
      (h : Effects l marks s s') (hset : s.isSet request.event = false)
      (htree : treeOf q request forest = .error e) :
      ParseEnds u l q request s marks (some (.ok forest)) (s', .finished (.error e.fault))
  | parses {marks : List EngineMark} {s' : Service} {forest : Forest} {tree : SyntaxTree}
      (h : Effects l (marks ++ [.counted q.collector q.language true tree.metrics.totalNodes]) s s')
      (hset : s.isSet request.event = false) (htree : treeOf q request forest = .ok tree) :
      ParseEnds u l q request s marks (some (.ok forest)) (s', .finished (.ok (.ok tree)))

end Service

/-- Tasks leave events and the native scanner alone. -/
theorem Effects.surroundings {l : Leave} {marks : List EngineMark} {s s' : Service}
    (h : Effects l marks s s') :
    s'.events = s.events ∧ s'.native = s.native := by
  induction h with
  | refl => exact ⟨rfl, rfl⟩
  | @tail _ _ _ s₁ s₂ _ hlast ih =>
    -- only collectors are written by what is counted
    have hcount : ∀ (q : Parser) (change : Collector → Collector),
        (s₁.count q change).events = s₁.events ∧ (s₁.count q change).native = s₁.native := by
      intro q change
      rw [Service.count]
      split <;> exact ⟨rfl, rfl⟩
    cases hlast with
    | idle h =>
      have houtside := h.outside
      simp only [Service.outside, Prod.mk.injEq] at houtside
      exact ⟨houtside.2.1.trans ih.1, houtside.2.2.trans ih.2⟩
    | time q language elapsed => exact ⟨(hcount q _).1.trans ih.1, (hcount q _).2.trans ih.2⟩
    | count q language elapsed success nodes =>
      exact ⟨(hcount q _).1.trans ih.1, (hcount q _).2.trans ih.2⟩
    | change h => exact ih
    | engage p => exact ih
    | retire h => exact ih
    | add h => exact ih
    | found settings collector => exact ih
    | registry h => exact ih

theorem Effects.isSet {l : Leave} {marks : List EngineMark} {s s' : Service}
    (h : Effects l marks s s') (event : Option String) : s'.isSet event = s.isSet event := by
  rw [Service.isSet, Service.isSet, h.surroundings.1]

namespace Service

variable {u : Fault → Prop} {l : Leave} {t : TaskId} {s : Service} {p : ParserId} {q : Parser}
  {request : ParseRequest}

/-- How often the engine of a parser was set to work. -/
def parses? (s : Service) (p : ParserId) : Option Nat := (s.parser? p).map (·.tally.parses)

/-- What the engine of a parser gives for a request between two states of the service, if it gets
done. It was at work already and goes on with the signal `engaged`, or it is set to work. -/
def replyIn (s : Service) (p : ParserId) (request : ParseRequest) (engaged : Option Signal)
    (s' : Service) :
    Option (Except Fault Forest) :=
  (s.parser? p).bind fun q =>
    match engaged with
    | some signal => some (s.engineResult q request signal)
    | none => if s'.parses? p = s.parses? p then none else some (s.engineResult q request .proceed)

/-- The parse that has ended in this run, with its parser as the run leaves it. -/
def endOf (s : Service) (p : ParserId) (request : ParseRequest) (engaged : Option Signal)
    (y : Service × Run ParsePoint (ParseResult SyntaxTree)) : Option EndedParse :=
  match y.2 with
  | .finished x => (y.1.parser? p).map fun q => ⟨q, s.replyIn p request engaged y.1, x⟩
  | .waiting _ _ => none

theorem countsOf_endOf_error {engaged : Option Signal} {s' : Service}
    (h : s.replyIn p request engaged s' = none) (e : Fault) :
    countsOf (s.endOf p request engaged (s', .finished (.error e))) = [] := by
  rw [endOf, h]
  cases s'.parser? p <;> rfl

theorem replyIn_of_parser?_none (hp : s.parser? p = none) (engaged : Option Signal) (s' : Service) :
    s.replyIn p request engaged s' = none := by
  rw [replyIn, hp]
  rfl

theorem replyIn_self (s : Service) (p : ParserId) (request : ParseRequest) :
    s.replyIn p request none s = none := by
  rw [replyIn]
  cases s.parser? p with
  | none => rfl
  | some q => exact if_pos rfl

theorem returnedFailure_of_declines {message : String} (h : Declines message) :
    returnedFailure (.ok (failedParse q request message)) = false := by
  have hopening : Datum.opensWith "Parsing failed: " (.text message) = false := by
    rcases h with rfl | ⟨text, rfl⟩
    · decide
    · rw [Datum.opensWith, Text.startsWith, String.toList_append]
      rfl
  exact hopening

/-- What the engine of `q` gives in a run of a parse: if it was at work already, what it gives now;
otherwise it was set to work in the run, with its grammar or without. -/
def Heard (s : Service) (p : ParserId) (q : Parser) (request : ParseRequest)
    (marks : List EngineMark) (given : Option (Except Fault Forest)) : Option Signal → Prop
  | some signal => marks = [] ∧ given = some (s.engineResult q request signal)
  | none => ∀ x, given = some x → marks = [.began p]
      ∧ (x = s.engineResult q request .proceed ∨ x = .error (noGrammar q))

theorem Heard.uncounted {marks : List EngineMark} {given : Option (Except Fault Forest)}
    {engaged : Option Signal} (h : Heard s p q request marks given engaged)
    (hgiven : given ≠ none) : countedIn marks = [] := by
  obtain ⟨x, hx⟩ := Option.ne_none_iff_exists'.mp hgiven
  cases engaged with
  | some signal =>
    rw [h.1]
    rfl
  | none =>
    rw [(h x hx).1]
    rfl

namespace ParseEnds

variable {marks marks' : List EngineMark} {given : Option (Except Fault Forest)}
  {r : Service × Run ParsePoint (ParseResult SyntaxTree)}

/-- A run counts how often it set the engine to work. -/
theorem parses?_eq (h : ParseEnds u l q request s marks given r) (hp : s.parser? p = some q) :
    r.1.parses? p = some (q.tally.parses + marks.count (.began p)) := by
  have hcount : ∀ {marks' : List EngineMark} {s' : Service}, Effects l marks' s s' →
      marks'.count (.began p) = marks.count (.began p) →
      s'.parses? p = some (q.tally.parses + marks.count (.began p)) := by
    intro marks' s' heffects heq
    obtain ⟨q', hq', -, hparses⟩ := heffects.same hp
    rw [parses?, hq', Option.map_some, hparses, heq]
  have hcounted : ∀ {collector : Option CollectorId} {language : String} {success : Bool}
      {nodes : Nat},
      (marks ++ [EngineMark.counted collector language success nodes]).count (.began p)
        = marks.count (.began p) := by
    intros
    rw [List.count_append, List.count_singleton]
    simp
  -- the ways out differ in whether the parse was counted, which adds nothing to the marks of
  -- engines at work
  cases h with
  | waits h => exact hcount h rfl
  | raises h => exact hcount h rfl
  | aborts h => exact hcount h rfl
  | withholds h => exact hcount h rfl
  | declines h => exact hcount h rfl
  | breaks h => exact hcount h rfl
  | loses h => exact hcount h hcounted
  | fails h => exact hcount h hcounted
  | stops h => exact hcount h rfl
  | refuses h => exact hcount h rfl
  | parses h => exact hcount h hcounted

theorem silent (h : ParseEnds u l q request s marks none r)
    {result : Except Fault (ParseResult SyntaxTree)} (hend : r.2 = .finished result) :
    marks = [] := by
  cases h with
  | waits h => cases hend
  | raises h => rfl
  | aborts h => rfl
  | withholds h => rfl
  | declines h => rfl

/-- **What is heard of the engine is what it gave**, unless it lacked its grammar. -/
theorem replyIn_eq (h : ParseEnds u l q request s marks given r) (hp : s.parser? p = some q)
    {engaged : Option Signal} (hheard : Heard s p q request marks given engaged)
    {result : Except Fault (ParseResult SyntaxTree)} (hend : r.2 = .finished result) :
    s.replyIn p request engaged r.1 = given ∨ given = some (.error (noGrammar q)) := by
  have hbefore : s.parses? p = some q.tally.parses := by rw [parses?, hp, Option.map_some]
  rw [replyIn, hp, Option.bind_some]
  cases engaged with
  | some signal => exact Or.inl hheard.2.symm
  | none =>
    dsimp only
    rw [h.parses?_eq hp, hbefore]
    cases given with
    | none =>
      -- an engine that was set to work and did not get done would keep the task waiting
      rw [h.silent hend]
      exact Or.inl (if_pos rfl)
    | some x =>
      obtain ⟨rfl, rfl | rfl⟩ := hheard x rfl
      · rw [if_neg (by simp)]
        exact Or.inl rfl
      · exact Or.inr rfl

/-- **What is counted about a run** is told by the parse that has ended in it. The cases are the
ways out: nothing is counted where the engine was not heard or was called off, one failure where it
failed, also if the failure could not be written, and one tree where it gave one. -/
theorem effects (h : ParseEnds u l q request s marks given r) (hp : s.parser? p = some q)
    {engaged : Option Signal} (hheard : Heard s p q request marks given engaged) :
    ∃ marks', Effects l marks' s r.1
      ∧ countedIn marks' = countsOf (s.endOf p request engaged r) := by
  have hreply : ∀ {result}, r.2 = .finished result → s.replyIn p request engaged r.1 = given
      ∨ given = some (.error (noGrammar q)) := h.replyIn_eq hp hheard
  -- the run may change the parser, but not what its counts are put down to
  have hend : ∀ {marks' : List EngineMark} {s' : Service}
      (x : Except Fault (ParseResult SyntaxTree)),
      Effects l marks' s s' → countsOf (s.endOf p request engaged (s', .finished x))
        = EndedParse.counts ⟨q, s.replyIn p request engaged s', x⟩ := by
    intro marks' s' x heffects
    obtain ⟨q', hq', hsame, -⟩ := heffects.same hp
    rw [endOf]
    dsimp only
    rw [hq', Option.map_some, countsOf, Option.elim_some, EndedParse.counts, EndedParse.counts]
    dsimp only
    rw [hsame.language, hsame.collector]
    rfl
  -- an engine without its grammar fails in words
  have hworded : (noGrammar q).isUntold escapes = false := rfl
  cases h with
  | waits h hquiet => exact ⟨_, h, hquiet⟩
  | raises h => exact ⟨_, h, (countsOf_endOf_error ((hreply rfl).resolve_right (by simp)) _).symm⟩
  | aborts h => exact ⟨_, h, (countsOf_endOf_error ((hreply rfl).resolve_right (by simp)) _).symm⟩
  | withholds h =>
    exact ⟨_, h, (countsOf_endOf_error ((hreply rfl).resolve_right (by simp)) _).symm⟩
  -- a failed result, but one that does not open as a failure of the engine does
  | declines h hmessage =>
    refine ⟨_, h, ?_⟩
    rw [hend _ h, (hreply rfl).resolve_right (by simp), EndedParse.counts,
      returnedFailure_of_declines hmessage]
    rfl
  -- a fault that is passed on is neither told by a result nor untold
  | @breaks _ s' e h he =>
    refine ⟨_, h, ?_⟩
    have hsaid : s.replyIn p request engaged s' = some (.error e) :=
      (hreply rfl).resolve_right fun heq => by
      cases heq
      cases he
    rw [hend _ h, hsaid, hheard.uncounted (by simp)]
    simp [EndedParse.counts, EndedParse.isUntold, Fault.isUntold, returnedTree?,
      returnedFailure, he]
  -- here the count is made although nothing is returned
  | @loses _ s' e h he =>
    refine ⟨_, h, ?_⟩
    have hsaid : s.replyIn p request engaged s' = some (.error e) :=
      (hreply rfl).resolve_right fun heq => by
      cases heq
      rw [hworded] at he
      cases he
    rw [hend _ h, hsaid, countedIn_append, hheard.uncounted (by simp)]
    simp [EndedParse.counts, EndedParse.isUntold, returnedTree?, returnedFailure,
      he, countedIn, EngineMark.isCounted]
  | @fails _ s' e h =>
    refine ⟨_, h, ?_⟩
    have hfailure : returnedFailure (.ok (failedParse q request ("Parsing failed: " ++ e.text)))
        = true :=
      Datum.opensWith_append ..
    rw [hend _ h, EndedParse.counts, hfailure, countedIn_append, hheard.uncounted (by simp)]
    rfl
  | stops h =>
    refine ⟨_, h, ?_⟩
    rw [hend _ h, (hreply rfl).resolve_right (by simp), hheard.uncounted (by simp)]
    rfl
  | refuses h =>
    refine ⟨_, h, ?_⟩
    rw [hend _ h, (hreply rfl).resolve_right (by simp), hheard.uncounted (by simp)]
    rfl
  | parses h =>
    refine ⟨_, h, ?_⟩
    rw [hend _ h, countedIn_append, hheard.uncounted (by simp)]
    rfl

/-- What was done before the run counts as a part of it. The parser may have changed on the way, but
not in what a parse reads of it; and a run in which the engine does not get done begins without
marks. -/
theorem after {s₀ : Service} {q₀ : Parser} (hbefore : Effects l marks' s₀ s) (hsame : q₀.Same q)
    (hsilent : marks' = [] ∨ given ≠ none) (h : ParseEnds u l q request s marks given r) :
    ParseEnds u l q₀ request s₀ (marks' ++ marks) given r := by
  have hset := hbefore.isSet request.event
  have htree : ∀ forest, treeOf q request forest = treeOf q₀ request forest := fun forest => by
    rw [treeOf, treeOf, hsame.language]
  have hfailed : ∀ message, failedParse q request message = failedParse q₀ request message := by
    intro message
    rw [failedParse, failedParse, hsame.language]
  -- a run in which the engine does not get done begins without marks
  have hquiet : given = none → marks' = [] :=
    fun hgiven => hsilent.resolve_right fun hne => hne hgiven
  cases h with
  | waits h hcounted =>
    cases hquiet rfl
    exact .waits (hbefore.append h) hcounted
  | raises h he =>
    cases hquiet rfl
    exact .raises (hbefore.trans h) he
  | aborts h hu he =>
    cases hquiet rfl
    exact .aborts (hbefore.trans h) hu he
  | withholds h hu he =>
    cases hquiet rfl
    exact .withholds (hbefore.trans h) hu he
  | declines h hmessage =>
    cases hquiet rfl
    rw [hfailed]
    exact .declines (hbefore.trans h) hmessage
  | breaks h he => exact .breaks (hbefore.append h) he
  | loses h he =>
    refine .loses ?_ he
    rw [List.append_assoc, ← hsame.collector, ← hsame.language]
    exact hbefore.append h
  | fails h he hwritable =>
    rw [hfailed]
    refine .fails ?_ he hwritable
    rw [List.append_assoc, ← hsame.collector, ← hsame.language]
    exact hbefore.append h
  | stops h hevent => exact .stops (hbefore.append h) (hset ▸ hevent)
  | refuses h hevent herror => exact .refuses (hbefore.append h) (hset ▸ hevent) (htree _ ▸ herror)
  | parses h hevent hok =>
    refine .parses ?_ (hset ▸ hevent) (htree _ ▸ hok)
    rw [List.append_assoc, ← hsame.collector, ← hsame.language]
    exact hbefore.append h

end ParseEnds

theorem failEngine_ends (s : Service) (q : Parser) (request : ParseRequest) (fault : Fault) :
    ParseEnds u l q request s [] (some (.error fault)) (s.failEngine q request fault) := by
  have hcounted : Effects l [.counted q.collector q.language false 0] s
      (s.count q fun c => c.recordParse q.language s.elapsed false 0) :=
    .single (.count q q.language s.elapsed false 0)
  rw [failEngine]
  split
  · rename_i hescapes
    exact .breaks (.refl s) hescapes
  · rename_i hescapes
    rw [Bool.not_eq_true] at hescapes
    cases hwritable : fault.isWritable with
    | false =>
      rw [Fault.written_of_not_isWritable hwritable]
      exact .loses hcounted (by rw [Fault.isUntold, hescapes, hwritable]; rfl)
    | true =>
      rw [Fault.written_of_isWritable hwritable]
      exact .fails (hcounted.append (write_effects ..)) hescapes hwritable

theorem finishEngine_ends (s : Service) (q : Parser) (request : ParseRequest) (forest : Forest) :
    ParseEnds u l q request s [] (some (.ok forest)) (s.finishEngine q request forest) := by
  rw [finishEngine]
  split
  · rename_i hset
    exact .stops (.refl s) hset
  · rename_i hset
    rw [Bool.not_eq_true] at hset
    dsimp only
    split
    · rename_i e htree
      exact .refuses (.refl s) hset htree
    · rename_i tree htree
      refine .parses ?_ hset htree
      exact (Effects.single (.count q q.language s.elapsed true tree.metrics.totalNodes)).append
        (write_effects ..)

/-- **The engine gets done.** -/
theorem endEngine_ends (s : Service) (p : ParserId) (q : Parser) (request : ParseRequest)
    (result : Except Fault Forest) :
    ParseEnds u l q request s [] (some result) (s.endEngine p q request result) := by
  have hfree : Effects l [] s ((s.modifyParser p Parser.endParse).release (.parsing p)) :=
    (Effects.change s p Parser.endParse fun q => ⟨⟨rfl, rfl, rfl⟩, rfl, fun _ => id⟩).trans
      (release_effects ..)
  cases result with
  | error fault => exact (failEngine_ends _ q request fault).after hfree (.refl q) (Or.inl rfl)
  | ok forest => exact (finishEngine_ends _ q request forest).after hfree (.refl q) (Or.inl rfl)

/-- What the engine gives if it is set to work now. -/
def reply (s : Service) (q : Parser) (request : ParseRequest) : Except Fault Forest :=
  if q.engine.bindsGrammar && !q.grammarLoaded then .error (noGrammar q)
    else s.engineResult q request .proceed

/-- If the engine gets done in the run, it was set to work in it, and gave what it gives now. -/
def Begins (s : Service) (p : ParserId) (q : Parser) (request : ParseRequest)
    (marks : List EngineMark) (given : Option (Except Fault Forest)) : Prop :=
  ∀ x, given = some x → marks = [.began p] ∧ x = s.reply q request ∧ q.stage ≠ .disposed

theorem begins_none {marks : List EngineMark} : Begins s p q request marks none := by
  intro x hx
  cases hx

theorem Begins.heard {mid : Service} {q' : Parser} {marks : List EngineMark}
    {given : Option (Except Fault Forest)} (h : Begins mid p q' request marks given)
    (hsame : q.Same q') (hnative : mid.native = s.native) :
    Heard s p q request marks given none := by
  intro x hx
  obtain ⟨hmarks, rfl, -⟩ := h x hx
  refine ⟨hmarks, ?_⟩
  rw [reply]
  split
  · rw [noGrammar, noGrammar, hsame.language]
    exact Or.inr rfl
  · rw [engineResult, engineResult, hnative, hsame.engine]
    exact Or.inl rfl

theorem parseLocked_ends (hp : s.parser? p = some q) (request : ParseRequest) :
    ∃ marks given, ParseEnds u l q request s marks given (s.parseLocked t p request)
      ∧ Begins s p q request marks given := by
  rw [parseLocked, hp]
  dsimp only
  split
  · exact ⟨[], none, .raises (release_effects ..) (Or.inl rfl), begins_none⟩
  · rename_i hdisposed
    have hstage : q.stage ≠ .disposed := fun h => hdisposed (decide_eq_true h)
    have hentered : Effects l [.began p] s (s.modifyParser p Parser.startParse) :=
      .single (.engage p)
    -- an engine that needs its grammar and has none fails at once; any other one may keep the task
    -- waiting
    split
    · rename_i hbare
      refine ⟨[.began p], some (.error (noGrammar q)), ?_, fun x hx => ?_⟩
      · exact (endEngine_ends _ p q request _).after hentered (.refl q) (Or.inr (by simp))
      · cases hx
        exact ⟨rfl, by rw [reply, if_pos hbare], hstage⟩
    · rename_i hgrammar
      have hpaused := hentered.append
        (pauseAt_effects (s.modifyParser p Parser.startParse) t q.engine.parsePause)
      rcases pauseAt_cases (s.modifyParser p Parser.startParse) t q.engine.parsePause with
        heq | ⟨s₁, wait, heq, -, -⟩
      · rw [heq]
        refine ⟨[.began p], some (s.engineResult q request .proceed), ?_, fun x hx => ?_⟩
        · exact (endEngine_ends _ p q request _).after hentered (.refl q) (Or.inr (by simp))
        · cases hx
          exact ⟨rfl, by rw [reply, if_neg hgrammar], hstage⟩
      · rw [heq] at hpaused ⊢
        exact ⟨[.began p], none, .waits hpaused rfl, begins_none⟩

theorem parseReady_ends (hp : s.parser? p = some q) (request : ParseRequest) :
    ∃ marks given, ParseEnds u l q request s marks given (s.parseReady t p request)
      ∧ Begins s p q request marks given := by
  rw [parseReady]
  split
  · exact ⟨[], none, .raises (.refl s) (Or.inr rfl), begins_none⟩
  · have hacquired := acquire_effects (l := l) s (.parsing p) t
    rcases acquire_cases s (.parsing p) t with ⟨-, heq⟩ | ⟨-, heq⟩
    · rw [heq] at hacquired ⊢
      have hp' : (s.setLock (.parsing p) (s.lock (.parsing p)).take).parser? p = some q := hp
      obtain ⟨marks, given, hends, hbegins⟩ := parseLocked_ends (l := l) (t := t) hp' request
      exact ⟨marks, given, hends.after hacquired (.refl q) (Or.inl rfl), hbegins⟩
    · rw [heq] at hacquired ⊢
      exact ⟨[], none, .waits hacquired rfl, begins_none⟩

/-- The initialization is over, and `q` is what has become of the parser. A fault of it passes, is
withheld because it cannot be written, or becomes a failed result. -/
theorem parseInitialized_ends (hp : s.parser? p = some q) (request : ParseRequest)
    (run : Run InitPoint Unit) (hu : ∀ {e}, run = .finished (.error e) → u e) :
    ∃ marks given, ParseEnds u l q request s marks given (s.parseInitialized t p request run)
      ∧ Begins s p q request marks given ∧ (given ≠ none → run = .finished (.ok ())) := by
  cases run with
  | waiting point wait => exact ⟨[], none, .waits (.refl s) rfl, begins_none, fun h => absurd rfl h⟩
  | finished result =>
    cases result with
    | ok _ =>
      obtain ⟨marks, given, hends, hbegins⟩ := parseReady_ends (l := l) (t := t) hp request
      exact ⟨marks, given, hends, hbegins, fun _ => rfl⟩
    | error fault =>
      -- the initialization failed: its fault is passed on, cannot be told, or is told in a result
      refine ⟨[], none, ?_, begins_none, fun h => absurd rfl h⟩
      rw [parseInitialized]
      split
      · rename_i hescapes
        exact .aborts (.refl s) (hu rfl) hescapes
      · rename_i hescapes
        rw [Bool.not_eq_true] at hescapes
        rw [hp]
        cases hwritable : fault.isWritable with
        | false =>
          rw [Fault.written_of_not_isWritable hwritable]
          exact .withholds (.refl s) (hu rfl) (by rw [Fault.isUntold, hescapes, hwritable]; rfl)
        | true =>
          rw [Fault.written_of_isWritable hwritable]
          exact .declines (.refl s) (Or.inr ⟨_, rfl⟩)

/-- The initialization leaves the parser as `q` and succeeds if the engine gets done, so that what
is left of the run is that of a parse with an initialized parser. -/
structure GetsReady (mid : Service × Run InitPoint Unit) (t : TaskId) (p : ParserId)
    (request : ParseRequest) (marks : List EngineMark) (given : Option (Except Fault Forest))
    (y : Service × Run ParsePoint (ParseResult SyntaxTree)) (q : Parser) : Prop where
  parser : mid.1.parser? p = some q
  begins : Begins mid.1 p q request marks given
  ready : given ≠ none → mid.2 = .finished (.ok ()) ∧ y = mid.1.parseReady t p request

theorem parseInitialized_getsReady (hp : s.parser? p = some q) (request : ParseRequest)
    (run : Run InitPoint Unit) (hu : ∀ {e}, run = .finished (.error e) → u e) :
    ∃ marks given, ParseEnds u l q request s marks given (s.parseInitialized t p request run)
      ∧ GetsReady (s, run) t p request marks given (s.parseInitialized t p request run) q := by
  obtain ⟨marks, given, hends, hbegins, hok⟩ :=
    parseInitialized_ends (l := l) (t := t) hp request run hu
  refine ⟨marks, given, hends, hp, hbegins, fun hgiven => ⟨hok hgiven, ?_⟩⟩
  rw [hok hgiven]
  rfl

/-- **A parse begins.** If the engine gets done at once, there is a text to parse, and the engine
found the parser as it was, or as the initialization left it. -/
theorem beginParse_ends (hp : s.parser? p = some q) (hanswer : q.engine.answer = none)
    (request : ParseRequest)
    (hu : ∀ {e}, ParseRequest.isEmpty request = false →
      (s.beginInit t p request.event).2 = .finished (.error e) → u e) :
    ∃ marks given, ParseEnds u l q request s marks given (s.beginParse t p request)
      ∧ (given ≠ none → ParseRequest.isEmpty request = false)
      ∧ ((q.stage = .initialized ∧ Begins s p q request marks given)
        ∨ ∃ q', GetsReady (s.beginInit t p request.event) t p request marks given
          (s.beginParse t p request) q') := by
  obtain ⟨q', hq', hsame, -⟩ := (beginInit_effects (l := l) (t := t) s p request.event).same hp
  have hnone : ∀ {y}, ∃ q', GetsReady (s.beginInit t p request.event) t p request [] none y q' :=
    ⟨q', hq', begins_none, fun h => absurd rfl h⟩
  rw [beginParse, hp]
  simp only [hanswer]
  -- the parser may be disposed of, there may be no text, and the parser may be initialized or not
  split
  · exact ⟨[], none, .raises (.refl s) (Or.inl rfl), fun h => absurd rfl h, Or.inr hnone⟩
  · split
    · exact ⟨[], none, .declines (.refl s) (Or.inl rfl), fun h => absurd rfl h, Or.inr hnone⟩
    · rename_i hempty
      rw [Bool.not_eq_true] at hempty
      split
      · rename_i hinit
        obtain ⟨marks, given, hends, hbegins⟩ := parseReady_ends (l := l) (t := t) hp request
        exact ⟨marks, given, hends, fun _ => hempty, Or.inl ⟨of_decide_eq_true hinit, hbegins⟩⟩
      · obtain ⟨marks, given, hends, hready⟩ :=
          parseInitialized_getsReady (l := l) (t := t) hq' request
          (s.beginInit t p request.event).2 (hu hempty)
        exact ⟨marks, given, hends.after (beginInit_effects ..) hsame (Or.inl rfl),
          fun _ => hempty, Or.inr ⟨q', hready⟩⟩

/-- **A parse goes on after a wait.** What is known of the engine depends on the point: after the
initialization and after the queue it is set to work in this run, and at the last point it was at
work before. -/
theorem resumeParse_ends (hp : s.parser? p = some q) (request : ParseRequest) (point : ParsePoint)
    (signal : Signal)
    (hu : ∀ {point' e}, point = .init point' →
      (s.resumeInit t p request.event point' signal).2 = .finished (.error e) → u e) :
    ∃ marks given, ParseEnds u l q request s marks given (s.resumeParse t p request point signal)
      ∧ (∀ point', point = .init point' →
        ∃ q', GetsReady (s.resumeInit t p request.event point' signal) t p request marks
          given (s.resumeParse t p request point signal) q')
      ∧ (point = .lock → Begins s p q request marks given)
      ∧ (point = .engine → marks = [] ∧ given = some (s.engineResult q request signal)) := by
  cases point with
  | init point =>
    -- what the initialization does comes before what the parse does, and keeps what the parser is
    -- for
    have hresumed := resumeInit_effects (l := l) (t := t) s p request.event point signal
    obtain ⟨q', hq', hsame, -⟩ := hresumed.same hp
    obtain ⟨marks, given, hends, hready⟩ := parseInitialized_getsReady (l := l) (t := t) hq' request
      (s.resumeInit t p request.event point signal).2 (hu rfl)
    refine ⟨marks, given, hends.after hresumed hsame (Or.inl rfl), fun point' h => ?_,
      fun h => ?_, fun h => ?_⟩
    · cases h
      exact ⟨q', hready⟩
    · cases h
    · cases h
  | lock =>
    have hlocked : ∃ marks given, ParseEnds u l q request s marks given
        (s.resumeParse t p request .lock signal)
        ∧ Begins s p q request marks given := by
      cases signal with
      | proceed => exact parseLocked_ends hp request
      | cancel => exact ⟨[], none, .raises (.refl s) (Or.inr rfl), begins_none⟩
    obtain ⟨marks, given, hends, hbegins⟩ := hlocked
    refine ⟨marks, given, hends, fun _ h => ?_, fun _ => hbegins, fun h => ?_⟩
    · cases h
    · cases h
  | engine =>
    rw [resumeParse, hp]
    refine ⟨[], _, endEngine_ends s p q request _, fun _ h => ?_, fun h => ?_, fun _ => ⟨rfl, rfl⟩⟩
    · cases h
    · cases h

/-- The parse that begins now, if it ends at once. A parser that has an answer of its own to every
request parses nothing. -/
def beginEnd? (s : Service) (t : TaskId) (p : ParserId) (request : ParseRequest) :
    Option EndedParse :=
  if (s.parser? p).any fun q => q.engine.answer.isNone then s.endOf p request none
    (s.beginParse t p request) else none

theorem GetsReady.heard {mid : Service × Run InitPoint Unit} {marks : List EngineMark}
    {given : Option (Except Fault Forest)} {y : Service × Run ParsePoint (ParseResult SyntaxTree)}
    {q' : Parser} (h : GetsReady mid t p request marks given y q') (hp : s.parser? p = some q)
    (heffects : Effects l [] s mid.1) :
    Heard s p q request marks given none := by
  obtain ⟨q'', hq'', hsame, -⟩ := heffects.same hp
  cases h.parser.symm.trans hq''
  exact h.begins.heard hsame heffects.surroundings.2

/-- What a parse that begins does, and what is counted in it. A parser with an answer of its own
counts nothing, nor does one that is not there. -/
theorem beginParse_effects (s : Service) (p : ParserId) (request : ParseRequest) :
    ∃ marks, Effects l marks s (s.beginParse t p request).1
      ∧ countedIn marks = countsOf (s.beginEnd? t p request) := by
  cases hp : s.parser? p with
  | none =>
    rw [beginEnd?, beginParse, hp]
    exact ⟨[], .refl s, rfl⟩
  | some q =>
    cases hanswer : q.engine.answer with
    | none =>
      obtain ⟨marks, given, hends, -, hready⟩ :=
        beginParse_ends (u := fun _ => True) (l := l) (t := t) hp hanswer request
        fun _ _ => trivial
      rw [beginEnd?, if_pos (by rw [hp, Option.any_some, hanswer]; rfl)]
      refine hends.effects hp ?_
      rcases hready with ⟨-, hbegins⟩ | ⟨q', hready⟩
      · exact hbegins.heard (.refl q) rfl
      · exact hready.heard hp (beginInit_effects (l := l) ..)
    -- an engine that answers by itself counts nothing
    | some answer =>
      rw [beginEnd?, if_neg (by rw [hp, Option.any_some, hanswer]; simp), beginParse, hp]
      simp only [hanswer]
      exact ⟨[], .refl s, rfl⟩

/-- Without the parser there is nothing to do but to let go of what is held, and nothing is
counted. -/
theorem parseInitialized_effects_of_none (hp : s.parser? p = none) (request : ParseRequest)
    (run : Run InitPoint Unit) :
    Effects l [] s (s.parseInitialized t p request run).1
      ∧ (s.parseInitialized t p request run).1.parser? p = none := by
  -- a parser that is not there is not found with the lock in hand either
  have hlocked : ∀ {s' : Service}, s'.parser? p = none →
      Effects l [] s' (s'.parseLocked t p request).1
      ∧ (s'.parseLocked t p request).1.parser? p = none := fun {s'} hp' => by
    rw [parseLocked, hp']
    exact ⟨release_effects .., by rw [parser?_release, hp']⟩
  cases run with
  | waiting point wait => exact ⟨.refl s, hp⟩
  | finished result =>
    cases result with
    | error fault =>
      rw [parseInitialized]
      split
      · exact ⟨.refl s, hp⟩
      · rw [hp]
        exact ⟨.refl s, hp⟩
    | ok _ =>
      rw [parseInitialized, parseReady]
      split
      · exact ⟨.refl s, hp⟩
      · have hacquired := acquire_effects (l := l) s (.parsing p) t
        rcases acquire_cases s (.parsing p) t with ⟨-, heq⟩ | ⟨-, heq⟩
        · rw [heq] at hacquired ⊢
          obtain ⟨heffects, hnone⟩ :=
            hlocked (show (s.setLock (.parsing p) (s.lock (.parsing p)).take).parser? p = none
            from hp)
          exact ⟨hacquired.trans heffects, hnone⟩
        · rw [heq] at hacquired ⊢
          exact ⟨hacquired, hp⟩

/-- The signal with which an engine goes on that was at work at this point of a parse. -/
def engagedAt (signal : Signal) : ParsePoint → Option Signal
  | .engine => some signal
  | _ => none

/-- What a parse that goes on does, and what is counted in it. -/
theorem resumeParse_effects (s : Service) (p : ParserId) (request : ParseRequest)
    (point : ParsePoint) (signal : Signal) :
    ∃ marks, Effects l marks s (s.resumeParse t p request point signal).1
      ∧ countedIn marks
        = countsOf (s.endOf p request (engagedAt signal point)
          (s.resumeParse t p request point signal)) := by
  cases hp : s.parser? p with
  | some q =>
    obtain ⟨marks, given, hends, hinit, hlock, hengine⟩ :=
      resumeParse_ends (u := fun _ => True) (l := l) (t := t) hp
      request point signal fun _ _ => trivial
    refine hends.effects hp ?_
    cases point with
    | init point =>
      obtain ⟨q', hready⟩ := hinit point rfl
      exact hready.heard hp (resumeInit_effects (l := l) ..)
    | lock => exact (hlock rfl).heard (.refl q) rfl
    | engine => exact hengine rfl
  | none =>
    -- there is no parser that could be counted for
    have hnone : ∀ {y : Service × Run ParsePoint (ParseResult SyntaxTree)}, y.1.parser? p = none →
        countsOf (s.endOf p request (engagedAt signal point) y) = [] := fun {y} hy => by
      rw [endOf]
      split
      · rw [hy]
        rfl
      · rfl
    cases point with
    | init point =>
      have hresumed := resumeInit_effects (l := l) (t := t) s p request.event point signal
      -- an initialization adds no parser, so the one that is not there stays away
      have hsize := (resumeInit_effects (l := noLeave) (t := t) s p request.event
        point signal).size_parsers id
      have hp' : (s.resumeInit t p request.event point signal).1.parser? p = none := by
        rw [parser?, Array.getElem?_eq_none_iff, hsize]
        exact Array.getElem?_eq_none_iff.mp hp
      obtain ⟨heffects, hlast⟩ := parseInitialized_effects_of_none (l := l) (t := t) hp' request
        (s.resumeInit t p request.event point signal).2
      exact ⟨[], hresumed.trans heffects, (hnone hlast).symm⟩
    | engine =>
      rw [resumeParse, hp]
      exact ⟨[], .refl s, (hnone hp).symm⟩
    | lock =>
      cases signal with
      | cancel => exact ⟨[], .refl s, (hnone hp).symm⟩
      | proceed =>
        show ∃ marks, Effects l marks s (s.parseLocked t p request).1
          ∧ countedIn marks = countsOf (s.endOf p request none (s.parseLocked t p request))
        rw [parseLocked, hp]
        exact ⟨[], release_effects .., (hnone (by rw [parser?_release, hp])).symm⟩

/-! ## Asking for a parser -/

end Service

/-- Enough leave to ask a registry for a parser: a parser may be built and disposed of if it cannot
be used, and a registry that is made instead may be filled. -/
structure Leave.Asks (l : Leave) (s : Service) : Prop where
  builds : l.builds
  retires : l.retires s.parsers.size
  edits : l.edits s.registries.size

theorem Leave.Asks.endWait {l : Leave} {s : Service} (h : l.Asks s) (t : TaskId) (wait : Wait)
    (signal : Signal) :
    l.Asks (s.endWait t wait signal) := by
  refine ⟨h.builds, ?_, ?_⟩
  · rw [Service.parsers_endWait]
    exact h.retires
  · rw [Service.registries_endWait]
    exact h.edits

namespace Service

variable {l : Leave} {t : TaskId}

theorem failGet_effects (s : Service) (r : RegistryId) (config : LanguageConfig)
    {dispose : Service → Except Fault Service} (fault : Fault)
    (hdispose : ∀ s s', dispose s = .ok s' → Effects l [] s s') :
    Effects l [] s (s.failGet r config dispose fault).1 := by
  have hlogged : Effects l [] s (s.write (creationFailure config fault)) := write_effects ..
  rw [failGet]
  split
  · exact release_effects ..
  · dsimp only
    split
    · rename_i disposed heq
      exact (hlogged.trans (hdispose _ _ heq)).trans (release_effects ..)
    · exact hlogged.trans (release_effects ..)

theorem keepParser_effects (s : Service) (r : RegistryId) (config : LanguageConfig) (p : ParserId) :
    Effects l [] s (s.keepParser r config p).1 := by
  have hkept : Effects l [] s (s.keep r config.key p) :=
    .single (.registry (Or.inr fun _ => ⟨rfl, rfl⟩))
  have hnoted := hkept.trans (note_effects (s.keep r config.key p) LogRecord.info registryLogger
    ("Created parser for language '" ++ config.name ++ "'"))
  rw [keepParser]
  refine Effects.trans ?_ (release_effects ..)
  split
  · split
    · exact hnoted.trans (write_effects ..)
    · exact hnoted
  · exact hnoted

theorem getInitialized_effects (s : Service) (r : RegistryId) (entry : Registration) {p : ParserId}
    (hretires : l.retires p) (run : Run InitPoint Unit) :
    Effects l [] s (s.getInitialized r entry p run).1 := by
  unfold getInitialized
  split
  · exact .refl s
  · exact keepParser_effects ..
  · refine failGet_effects _ _ _ _ fun s s' heq => ?_
    cases heq
    exact disposeParser_effects s hretires

theorem buildParser_effects {s : Service} (g : Registry) (config : LanguageConfig)
    (hedits : l.edits s.registries.size) : Effects l [] s (s.buildParser g config).1 := by
  rw [buildParser]
  split
  · exact .refl s
  · split
    · exact .refl s
    · have hmade := newRegistry_effects g.settings g.collector true hedits
      rw [buildRegistry]
      split
      · rename_i made fault heq
        rwa [heq] at hmade
      · rename_i made r heq
        rwa [heq] at hmade
    · exact .refl s

theorem language_ofBlueprint {b : Blueprint} {collector : Option CollectorId} {q : Parser}
    (h : Parser.ofBlueprint b collector = .ok q) : q.language ≠ "" := by
  rw [Parser.ofBlueprint] at h
  split at h
  · cases h
  · rename_i hlanguage
    cases h
    exact hlanguage

theorem language_buildParser {s s' : Service} {g : Registry} {config : LanguageConfig} {q : Parser}
    (h : s.buildParser g config = (s', .ok q)) : q.language ≠ "" := by
  rw [buildParser] at h
  split at h
  · cases h
  · split at h
    · rename_i factory _ _ _
      rw [Prod.mk.injEq] at h
      cases hbuild : factory.build g.settings with
      | error fault => simp [hbuild, bind, Except.bind] at h
      | ok blueprint =>
        simp only [hbuild, bind, Except.bind] at h
        exact language_ofBlueprint h.2
    · rw [buildRegistry] at h
      split at h <;> cases h
    · cases h

theorem disposeUnbuilt_effects {config : LanguageConfig} {s s' : Service}
    (h : disposeUnbuilt config s = .ok s') :
    Effects l [] s s' := by
  rcases disposeUnbuilt_cases config s with heq | ⟨e, heq⟩
  · rw [heq] at h
    cases h
    exact .refl s
  · rw [heq] at h
    cases h

/-- **Asking a registry**, with its lock, disposes at most of the parser that is built in this run,
and edits at most a registry that is made in its place. -/
theorem getLocked_effects {s : Service} (r : RegistryId) (language : String) (hasks : l.Asks s) :
    Effects l [] s (s.getLocked t r language).1 := by
  rw [getLocked]
  split
  · exact release_effects ..
  · dsimp only
    split
    · exact release_effects ..
    · split
      · exact release_effects ..
      · rename_i g _ _ _ _ entry _
        split
        · rename_i tried fault heq
          -- nothing was built, though a registry may have been made in its place
          have hbuilt := buildParser_effects g entry.config hasks.edits
          rw [heq] at hbuilt
          exact hbuilt.trans (failGet_effects _ _ _ _ fun _ _ => disposeUnbuilt_effects)
        · rename_i built q heq
          obtain ⟨rfl, -⟩ := buildParser_ok heq
          have hlanguage := language_buildParser heq
          -- the new parser gets the next free id, which is the one that may be disposed of
          have hadded : Effects l [] built
              (built.addParser { q with origin := some (r, entry) }).1 :=
            .single (.add hasks.builds hlanguage)
          exact (hadded.trans (beginInit_effects ..)).trans
            (getInitialized_effects _ r entry hasks.retires _)

theorem beginGet_effects {s : Service} (r : RegistryId) (language : Option String)
    (hasks : l.Asks s) :
    Effects l [] s (s.beginGet t r language).1 := by
  unfold beginGet
  split
  · split
    · have hacquired := acquire_effects (l := l) s (.registry r) t
      rcases acquire_cases s (.registry r) t with ⟨-, heq⟩ | ⟨-, heq⟩
      · rw [heq] at hacquired ⊢
        exact hacquired.trans (getLocked_effects r _ ⟨hasks.builds, hasks.retires, hasks.edits⟩)
      · rw [heq] at hacquired ⊢
        exact hacquired
    · exact note_effects ..
  · exact note_effects ..

theorem resumeGet_effects {s : Service} {r : RegistryId} (language : String) {point : GetPoint}
    (signal : Signal) (hasks : l.Asks s)
    (hbuilds : ∀ {entry p}, .build r entry p ∈ point.duties r → l.retires p) :
    Effects l [] s (s.resumeGet t r language point signal).1 := by
  cases point with
  | lock =>
    cases signal with
    | proceed => exact getLocked_effects r language hasks
    | cancel => exact .refl s
  | init entry p point =>
    exact (resumeInit_effects ..).trans (getInitialized_effects _ r entry (@hbuilds entry p (by
      simp [GetPoint.duties])) _)

/-! ## Facades -/

theorem tellFault_effects {α : Type} (s : Service) (f : Facade) (request : ParseRequest)
    (work opening : String) (fault : Fault) :
    Effects l [] s (s.tellFault (α := α) f request work opening fault).1 := by
  rw [tellFault]
  split
  · exact .refl s
  · split
    · exact .refl s
    · exact note_effects ..

theorem facadeParsed_effects (s : Service) (f : Facade) (request : ParseRequest) (p : ParserId)
    (run : Run ParsePoint (ParseResult SyntaxTree)) :
    Effects l [] s (s.facadeParsed f request p run).1 := by
  unfold facadeParsed
  split
  · exact .refl s
  · exact .refl s
  · exact tellFault_effects ..

/-- The parse that a facade begins once it has its parser, if it ends at once. -/
def gotEnd? (t : TaskId) (request : ParseRequest) (y : Service × Run GetPoint (Option ParserId)) :
    Option EndedParse :=
  match y.2 with
  | .finished (.ok (some p)) => y.1.beginEnd? t p request
  | _ => none

theorem facadeGot_effects (s : Service) (f : Facade) (request : ParseRequest)
    (run : Run GetPoint (Option ParserId)) :
    ∃ marks, Effects l marks s (s.facadeGot t f request run).1
      ∧ countedIn marks = countsOf (gotEnd? t request (s, run)) := by
  unfold facadeGot
  split
  · exact ⟨[], .refl s, rfl⟩
  · exact ⟨[], tellFault_effects .., rfl⟩
  · exact ⟨[], .refl s, rfl⟩
  · rename_i p
    obtain ⟨marks, h, hcounts⟩ := beginParse_effects (l := l) (t := t) s p request
    refine ⟨_, h.append (facadeParsed_effects ..), ?_⟩
    rw [List.append_nil]
    exact hcounts

/-- The parse behind a facade that begins now, if it ends at once. -/
def facadeEnd? (s : Service) (t : TaskId) (f : Facade) (request : ParseRequest) :
    Option EndedParse :=
  if ParseRequest.isEmpty request then none
  else
    let noted := s.note LogRecord.debug facadeLogger
      ("Parsing source code for language " ++ f.language)
    gotEnd? t request (noted.beginGet t f.registry (some f.language))

theorem beginFacadeParse_effects {s : Service} (f : Facade) (request : ParseRequest)
    (hasks : l.Asks s) :
    ∃ marks, Effects l marks s (s.beginFacadeParse t f request).1
      ∧ countedIn marks = countsOf (s.facadeEnd? t f request) := by
  rw [beginFacadeParse, facadeEnd?]
  split
  · exact ⟨[], .refl s, rfl⟩
  · have hasked := (note_effects s LogRecord.debug facadeLogger
      ("Parsing source code for language " ++ f.language)).trans
      (beginGet_effects (l := l) (t := t) f.registry (some f.language) ⟨hasks.builds,
        hasks.retires, hasks.edits⟩)
    obtain ⟨marks, h, hcounts⟩ := facadeGot_effects (l := l) (t := t) _ f request _
    exact ⟨_, hasked.append h, hcounts⟩

/-- The parse behind a facade that ends when the facade goes on after a wait. -/
def facadeEndAfter? (s : Service) (t : TaskId) (f : Facade) (request : ParseRequest)
    (signal : Signal) :
    FacadePoint → Option EndedParse
  | .get point => gotEnd? t request (s.resumeGet t f.registry f.language point signal)
  | .parse p point =>
    s.endOf p request (engagedAt signal point) (s.resumeParse t p request point signal)

theorem resumeFacadeParse_effects {s : Service} {f : Facade} (request : ParseRequest)
    {point : FacadePoint} (signal : Signal) (hasks : l.Asks s)
    (hbuilds : ∀ {entry p}, .build f.registry entry p ∈ point.duties f.registry → l.retires p) :
    ∃ marks, Effects l marks s (s.resumeFacadeParse t f request point signal).1
      ∧ countedIn marks = countsOf (s.facadeEndAfter? t f request signal point) := by
  cases point with
  | get point =>
    have hresumed := resumeGet_effects (l := l) (t := t) f.language signal hasks hbuilds
    obtain ⟨marks, h, hcounts⟩ := facadeGot_effects (l := l) (t := t) _ f request _
    exact ⟨_, hresumed.append h, hcounts⟩
  | parse p point =>
    obtain ⟨marks, h, hcounts⟩ := resumeParse_effects (l := l) (t := t) s p request point signal
    refine ⟨_, h.append (facadeParsed_effects ..), ?_⟩
    rw [List.append_nil]
    exact hcounts

theorem noteConverter_effects (s : Service) (tree : SyntaxTree) :
    Effects l [] s (s.noteConverter tree) := by
  rw [noteConverter]
  split
  · split
    · exact note_effects ..
    · exact .refl s
  · exact .refl s

theorem declare_effects (s : Service) (f : Facade) (request : ParseRequest) (tree : SyntaxTree) :
    Effects l [] s (s.declare f request tree).1 := by
  have hnoted := noteConverter_effects (l := l) s tree
  unfold declare
  dsimp only
  split
  · exact hnoted
  · exact hnoted.trans (tellFault_effects ..)

theorem declarationsOf_effects (s : Service) (f : Facade) (request : ParseRequest)
    (result : ParseResult SyntaxTree) :
    Effects l [] s (s.declarationsOf f request result).1 := by
  rw [declarationsOf]
  split
  · exact .refl s
  · split
    · exact declare_effects ..
    · exact tellFault_effects ..

theorem finishFacade_effects (s : Service) (f : Facade) (goal : FacadeGoal) (request : ParseRequest)
    (result : Except Fault (ParseResult SyntaxTree)) :
    Effects l [] s (finishFacade f goal request s result).1 := by
  cases result with
  | error fault => exact .refl s
  | ok parsed =>
    cases goal with
    | tree => exact .refl s
    | validity => exact .refl s
    | errors => exact .refl s
    | declarations => exact declarationsOf_effects s f request parsed

theorem finishScope_effects (s : Service) {p : ParserId} (hretires : l.retires p)
    (body : Option Fault) (result : Except Fault Unit) :
    Effects l [] s (finishScope p body s result).1 := by
  cases result with
  | error fault => exact .refl s
  | ok _ => exact disposeParser_effects s hretires

/-! ## Steps -/

theorem setTask_effects (s : Service) (t : TaskId) (status : TaskStatus) :
    Effects l [] s (s.setTask t status) :=
  .idle rfl rfl rfl

theorem settleRun_effects {marks : List EngineMark} {s : Service} {π α : Type} {frame : π → Frame}
    {finish : Service → Except Fault α → Service × Except Fault Outcome} {y : Service × Run π α}
    (h : Effects l marks s y.1) (hfinish : ∀ s result, Effects l [] s (finish s result).1) :
    Effects l marks s (settleRun t frame finish y) := by
  have hlast : Effects l [] y.1 (settleRun t frame finish y) := by
    rw [settleRun]
    split
    · exact setTask_effects ..
    · exact (hfinish _ _).trans (setTask_effects ..)
  have hall := h.append hlast
  rwa [List.append_nil] at hall

/-- The parse that ends in the first turn of a call: its own, or the one behind a facade. -/
def startEnd? (s : Service) (t : TaskId) : Call → Option EndedParse
  | .parse p request => s.beginEnd? t p request
  | .facade f _ request => s.facadeEnd? t f request
  | _ => none

/-- **The first turn of a call**: what it does, and the parse that is counted in it. Only parses and
facades count, and each turn ends at most one parse. -/
theorem start_effects {s : Service} {call : Call} (hasks : l.Asks s)
    (hscope : ∀ {p body}, call = .scoped p body → l.retires p) :
    ∃ marks, Effects l marks s (s.start t call)
      ∧ countedIn marks = countsOf (s.startEnd? t call) := by
  cases call with
  | init p event =>
    rw [start]
    exact ⟨[], settleRun_effects (beginInit_effects ..) fun s _ => .refl s, rfl⟩
  | parse p request =>
    rw [start]
    obtain ⟨marks, h, hcounts⟩ := beginParse_effects (l := l) (t := t) s p request
    exact ⟨marks, settleRun_effects h fun s _ => .refl s, hcounts⟩
  -- the scope disposes of its parser when its body is over
  | «scoped» p body =>
    rw [start]
    exact ⟨[], settleRun_effects (beginInit_effects ..) fun s =>
      finishScope_effects s (hscope rfl) body, rfl⟩
  | getParser r language =>
    rw [start]
    exact ⟨[], settleRun_effects (beginGet_effects r language hasks) fun s _ => .refl s, rfl⟩
  | facade f goal request =>
    rw [start]
    obtain ⟨marks, h, hcounts⟩ := beginFacadeParse_effects (l := l) (t := t) f request hasks
    exact ⟨marks, settleRun_effects h fun s => finishFacade_effects s f goal request, hcounts⟩

/-- The parse that ends in a later turn of a call. -/
def resumeEnd? (s : Service) (t : TaskId) (signal : Signal) : Frame → Option EndedParse
  | .parse p request point =>
    s.endOf p request (engagedAt signal point) (s.resumeParse t p request point signal)
  | .facade f _ request point => s.facadeEndAfter? t f request signal point
  | _ => none

/-- **A later turn of a call**: what it does, and the parse that is counted in it. Leave to dispose
of a parser is needed by scopes and by those who build one. -/
theorem resume_effects {s : Service} {frame : Frame} (signal : Signal) (hasks : l.Asks s)
    (hscope : ∀ {p body}, frame.call = .scoped p body → l.retires p)
    (hbuilds : ∀ {r entry p}, .build r entry p ∈ frame.duties → l.retires p) :
    ∃ marks, Effects l marks s (s.resume t signal frame)
      ∧ countedIn marks = countsOf (s.resumeEnd? t signal frame) := by
  cases frame with
  | init p event point =>
    rw [resume]
    exact ⟨[], settleRun_effects (resumeInit_effects ..) fun s _ => .refl s, rfl⟩
  | parse p request point =>
    rw [resume]
    obtain ⟨marks, h, hcounts⟩ := resumeParse_effects (l := l) (t := t) s p request point signal
    exact ⟨marks, settleRun_effects h fun s _ => .refl s, hcounts⟩
  | «scoped» p body point =>
    rw [resume]
    exact ⟨[], settleRun_effects (resumeInit_effects ..) fun s =>
      finishScope_effects s (hscope rfl) body, rfl⟩
  -- a build may be given up after its wait, and then the parser is disposed of
  | getParser r language point =>
    rw [resume]
    exact ⟨[], settleRun_effects (resumeGet_effects language signal hasks hbuilds) fun s _ =>
      .refl s, rfl⟩
  | facade f goal request point =>
    rw [resume]
    obtain ⟨marks, h, hcounts⟩ :=
      resumeFacadeParse_effects (l := l) (t := t) request signal hasks hbuilds
    exact ⟨marks, settleRun_effects h fun s => finishFacade_effects s f goal request, hcounts⟩

/-- The parse that ends in a turn of a task, with its parser. A parse that is cancelled before it
begins ends too. -/
def turnEnd? (s : Service) (t : TaskId) : TaskStatus → Option EndedParse
  | .fresh call false => s.startEnd? t call
  | .fresh (.parse p request) true => s.endOf p request none (s, .finished (.error .cancelled))
  | .waiting frame wait (some signal) => (s.endWait t wait signal).resumeEnd? t signal frame
  | _ => none

/-- The parse that ends in a step of a task. -/
def stepEnd? (s : Service) (t : TaskId) : Option EndedParse :=
  if t ∈ s.ready then s.tasks[t]?.bind (({ s with ready := s.ready.erase t } : Service).turnEnd? t)
    else none

theorem stepEnd?_of_ready {s : Service} {status : TaskStatus} (hready : t ∈ s.ready)
    (ht : s.tasks[t]? = some status) :
    s.stepEnd? t = ({ s with ready := s.ready.erase t } : Service).turnEnd? t status := by
  rw [stepEnd?, if_pos hready, ht]
  rfl

/-- **What a step may do.** It may dispose of the parser that the task builds or is about to build,
or uses in a scope, and it may fill a new registry. What it counts is told by the parse that ends in
it. -/
theorem step_effects {s : Service} (hasks : l.Asks s)
    (hscope : ∀ {status p body}, s.tasks[t]? = some status → status.call? = some (.scoped p body) →
      l.retires p)
    (hbuilds : ∀ {r entry p}, .build r entry p ∈ (s.footing t).duties → l.retires p) :
    ∃ marks, Effects l marks s (s.step t) ∧ countedIn marks = countsOf (s.stepEnd? t) := by
  have herased : Effects l [] s { s with ready := s.ready.erase t } := .idle rfl rfl rfl
  by_cases hready : t ∈ s.ready
  · cases ht : s.tasks[t]? with
    | none =>
      rw [stepEnd?, if_pos hready, step, if_neg (by simpa using hready)]
      simp only [ht]
      exact ⟨[], herased, rfl⟩
    | some status =>
      rw [stepEnd?_of_ready hready ht]
      cases status with
      | finished result =>
        rw [step, if_neg (by simpa using hready)]
        simp only [ht]
        exact ⟨[], herased, rfl⟩
      | fresh call cancelled =>
        cases cancelled with
        -- cancelled before it began: a parse ends by this, and nothing is counted about it
        | true =>
          rw [step_of_cancelled hready ht]
          refine ⟨[], herased.trans (setTask_effects ..), ?_⟩
          cases call with
          | parse p request => exact (countsOf_endOf_error (replyIn_self ..) _).symm
          | init p event => rfl
          | «scoped» p body => rfl
          | getParser r language => rfl
          | facade f goal request => rfl
        | false =>
          rw [step_of_fresh hready ht]
          obtain ⟨marks, h, hcounts⟩ :=
            start_effects (l := l) (t := t) (s := { s with ready := s.ready.erase t })
            ⟨hasks.builds, hasks.retires, hasks.edits⟩ fun (hcall : call = _) =>
              hscope ht (congrArg some hcall)
          exact ⟨_, herased.append h, hcounts⟩
      | waiting frame wait signal =>
        cases signal with
        | none =>
          rw [step_of_unsignalled hready ht]
          exact ⟨[], herased, rfl⟩
        | some signal =>
          rw [step_of_waiting hready ht]
          -- first the wait ends, which touches locks only, then the call goes on
          have harrived := herased.trans
            (endWait_effects { s with ready := s.ready.erase t } t wait signal)
          have hasks' : l.Asks { s with ready := s.ready.erase t } :=
            ⟨hasks.builds, hasks.retires, hasks.edits⟩
          obtain ⟨marks, h, hcounts⟩ := @resume_effects l t
            (({ s with ready := s.ready.erase t } : Service).endWait t wait signal) frame signal
            (hasks'.endWait t wait signal) (fun hcall => hscope ht (congrArg some hcall))
            fun hbuild => hbuilds (by
              rw [footing, ht]
              exact hbuild)
          exact ⟨_, harrived.append h, hcounts⟩
  · rw [step_of_not_ready hready, stepEnd?, if_neg hready]
    exact ⟨[], .refl s, rfl⟩

/-! ## Whatever happens to a service -/

theorem cancel_effects (s : Service) (t : TaskId) : Effects l [] s (s.cancel t) := by
  refine .idle (stock_cancel s t).1 (stock_cancel s t).2 ?_
  rw [cancel]
  split
  · rfl
  · rw [outside_wake]
    split <;> rfl
  · rfl
  · rfl

theorem finishWork_effects (s : Service) (t : TaskId) : Effects l [] s (s.finishWork t) := by
  refine .idle (stock_finishWork s t).1 (stock_finishWork s t).2 ?_
  rw [finishWork]
  split
  · exact outside_wake ..
  · rfl

theorem openGate_effects (s : Service) (name : String) : Effects l [] s (s.openGate name) := by
  -- tasks that go on are put in line, one after the other, and nothing else happens yet
  have hall : ∀ (entries : List (String × TaskId)) (s : Service),
      (entries.foldl (fun acc entry => acc.wake entry.2 .proceed) s).outside = s.outside := by
    intro entries
    induction entries with
    | nil => exact fun s => rfl
    | cons entry rest ih => exact fun s => (ih _).trans (outside_wake ..)
  exact .idle (stock_wakeAll ..).1 (stock_wakeAll ..).2 (hall _ _)

/-- What tasks do not do: make a collector, put in another engine, set or clear an event, change the
scanner. -/
def Action.isOutside : Service.Action → Bool
  | .addCollector | .setEngine _ _ | .setEvent _ | .clearEvent _ | .setNative _ => true
  | _ => false

/-- The leave that an action has: what it may dispose of, and which registry it may edit. -/
def leaveFor (s : Service) : Service.Action → Leave
  | .addParser _ _ => { noLeave with builds := True }
  | .disposeParser p => { noLeave with retires := (· = p) }
  | .newRegistry _ _ _ => { noLeave with edits := (· = s.registries.size) }
  | .register r _ => { noLeave with retires := fun p => ∃ key, s.Keeps r key p, edits := (· = r) }
  | .unregister r _ => { noLeave with retires := fun p => ∃ key, s.Keeps r key p, edits := (· = r) }
  | .disposeRegistry r =>
    { noLeave with retires := fun p => ∃ g, s.registries[r]? = some g ∧ p ∈ g.parsers.values }
  | .step t =>
    { retires := fun p => p = s.parsers.size ∨ (∃ r entry, .build r entry p ∈ (s.footing t).duties)
        ∨ ∃ status body, s.tasks[t]? = some status ∧ status.call? = some (.scoped p body)
      edits := (· = s.registries.size)
      builds := True }
  | _ => noLeave

/-- The parse that ends with an action. -/
def parseEnd? (s : Service) : Service.Action → Option EndedParse
  | .step t => s.stepEnd? t
  | _ => none

/-- **What each action does**, and what is counted in it. All but a step count nothing. Actions from
outside are left to themselves: they change what no task changes. -/
theorem act_effects (s : Service) {a : Service.Action} (h : a.isOutside = false) :
    ∃ marks, Effects (s.leaveFor a) marks s (s.act a)
      ∧ countedIn marks = countsOf (s.parseEnd? a) := by
  cases a with
  | addCollector => cases h
  | setEngine p engine => cases h
  | setEvent event => cases h
  | clearEvent event => cases h
  | setNative reply => cases h
  | step t =>
    -- what the task is about to build, what it builds, and the parser of its scope
    exact step_effects (l := s.leaveFor (.step t)) (t := t) (s := s) ⟨trivial, Or.inl rfl, rfl⟩
      (fun {status p body} ht hcall => Or.inr (Or.inr ⟨status, body, ht, hcall⟩))
      (fun {r entry p} hbuild => Or.inr (Or.inl ⟨r, entry, hbuild⟩))
  | addParser blueprint collector =>
    refine ⟨[], ?_, rfl⟩
    rw [act]
    split
    · rename_i q hq
      exact .single (.add trivial (language_ofBlueprint hq))
    · exact .refl s
  | disposeParser p => exact ⟨[], disposeParser_effects s rfl, rfl⟩
  | newRegistry settings collector withTable =>
    exact ⟨[], newRegistry_effects settings collector withTable rfl, rfl⟩
  | loadTable r path => exact ⟨[], loadTable_effects s r path, rfl⟩
  | register r config =>
    exact ⟨[], register_effects config rfl fun {key _} hkeeps => ⟨key, hkeeps⟩, rfl⟩
  | unregister r language =>
    exact ⟨[], unregister_effects language rfl fun {key _} hkeeps => ⟨key, hkeeps⟩, rfl⟩
  | disposeRegistry r => exact ⟨[], disposeRegistry_effects fun {g} hg p hp => ⟨g, hg, hp⟩, rfl⟩
  | spawn call =>
    refine ⟨[], ?_, rfl⟩
    rw [act]
    split
    · exact .idle rfl rfl rfl
    · exact .refl s
  | cancel t => exact ⟨[], cancel_effects s t, rfl⟩
  | finishWork t => exact ⟨[], finishWork_effects s t, rfl⟩
  | openGate name => exact ⟨[], openGate_effects s name, rfl⟩
  | closeGate name => exact ⟨[], .idle rfl rfl rfl, rfl⟩
  | setElapsed elapsed => exact ⟨[], .idle rfl rfl rfl, rfl⟩
  | writeConfig path text =>
    refine ⟨[], ?_, rfl⟩
    rw [act, writeConfig]
    cases s.folder.write path text with
    | ok folder => exact .idle rfl rfl rfl
    | error e => exact .refl s

end Service

end SyntaxForest
