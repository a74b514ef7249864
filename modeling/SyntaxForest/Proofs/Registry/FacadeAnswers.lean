import SyntaxForest.Proofs.Service.Goals

/-!
# What a facade answers

A facade asks its registry for a parser, parses with it, and answers what its caller wants to know.
On the way much can go wrong: the language is not known, no parser can be built, it is disposed of
meanwhile, the engine fails, or no declarations can be told. Nearly all that ends as a value, and
the answers to the four things that a caller may want to know agree with each other. Three things do
not: a fault that cannot be written, an interruption, and a parser that reports success and gives no
tree.

* **`Service.Behind`** — what the parse behind a call comes to, before the facade looks at it.
* **`Service.toldOf`** — what the facade makes of a fault.
* **`step_of_facade`** — what a step of a call can be, whatever the caller wants to know.
* **`FacadeLaw`** — how the four answers hang together. **`Answerable`** — what a facade can answer
  from.
* **`facade_law_iff`** — in every history the law holds if and only if the facade can answer from
  what came behind the call: had the caller asked for something else, the answer would have come at
  the same time and would have agreed.
-/

namespace SyntaxForest

/-- What a run has come to, if it has come to its end. -/
def Run.end? {π α : Type} : Run π α → Option (Except Fault α)
  | .waiting _ _ => none
  | .finished x => some x

namespace Service

variable {s : Service} {t : TaskId} {f : Facade} {request : ParseRequest}

/-! ## The parse behind a call -/

/-- What the parse comes to, once asking the registry has come to something: what was raised, that
there is no parser, or what the parser makes of the request at once. -/
def gotBehind? (t : TaskId) (f : Facade) (request : ParseRequest)
    (y : Service × Run GetPoint (Option ParserId)) :
    Option (Except Fault (ParseResult SyntaxTree)) :=
  match y.2 with
  | .waiting _ _ => none
  | .finished (.error e) => some (.error e)
  | .finished (.ok none) =>
    some (.ok (failedFacade f request ("No parser available for language '" ++ f.language ++ "'")))
  | .finished (.ok (some p)) => (y.1.beginParse t p request).2.end?

/-- What the parse behind a call comes to in a turn of its task, if it comes to an end. -/
def behind? (s : Service) (t : TaskId) (f : Facade) (request : ParseRequest) :
    TaskStatus → Option (Except Fault (ParseResult SyntaxTree))
  | .fresh _ true => some (.error .cancelled)
  | .fresh _ false =>
    if ParseRequest.isEmpty request then some (.ok (failedFacade f request emptySourceMessage))
    else
      let noted := s.note LogRecord.debug facadeLogger
        ("Parsing source code for language " ++ f.language)
      gotBehind? t f request (noted.beginGet t f.registry (some f.language))
  | .waiting (.facade _ _ _ (.get point)) wait (some signal) =>
    gotBehind? t f request ((s.endWait t wait signal).resumeGet t f.registry f.language
      point signal)
  | .waiting (.facade _ _ _ (.parse p point)) wait (some signal) =>
    ((s.endWait t wait signal).resumeParse t p request point signal).2.end?
  | _ => none

/-- **The next step of the task ends the parse behind its call** with this outcome. -/
def Behind (s : Service) (t : TaskId) (f : Facade) (request : ParseRequest)
    (outcome : Except Fault (ParseResult SyntaxTree)) : Prop :=
  t ∈ s.ready ∧ ∃ status, s.tasks[t]? = some status
    ∧ ({ s with ready := s.ready.erase t } : Service).behind? t f request status = some outcome

/-! ## What the facade makes of it -/

/-- What a caller is told of a fault: it is passed on, or there is a failed result, or the fault of
writing it. -/
def toldOf {α : Type} (f : Facade) (request : ParseRequest) (opening : String) (e : Fault) :
    Except Fault (ParseResult α) :=
  if passesOn e then .error e else e.written.map fun text =>
    failedFacade f request (opening ++ text)

theorem tellFault_snd {α : Type} (s : Service) (f : Facade) (request : ParseRequest)
    (work opening : String) (e : Fault) :
    (s.tellFault (α := α) f request work opening e).2 = toldOf f request opening e := by
  rw [tellFault, toldOf]
  split
  · rfl
  · cases e.written <;> rfl

/-- What a facade makes of the outcome of the parse behind it. -/
def toldParse (f : Facade) (request : ParseRequest) :
    Except Fault (ParseResult SyntaxTree) → Except Fault (ParseResult SyntaxTree)
  | .ok result => .ok result
  | .error e => toldOf f request "Parsing failed: " e

theorem failFacade_snd (s : Service) (f : Facade) (request : ParseRequest) (e : Fault) :
    (s.failFacade f request e).2 = .finished (toldParse f request (.error e)) :=
  congrArg Run.finished (tellFault_snd s f request "parsing source code" "Parsing failed: " e)

theorem facadeParsed_told (p : ParserId) {run : Run ParsePoint (ParseResult SyntaxTree)}
    {x : Except Fault (ParseResult SyntaxTree)}
    (h : (s.facadeParsed f request p run).2 = .finished x) :
    ∃ outcome, run.end? = some outcome ∧ x = toldParse f request outcome := by
  cases run with
  | waiting point wait => cases h
  | finished result =>
    refine ⟨result, rfl, ?_⟩
    cases result with
    | ok result =>
      cases h
      rfl
    | error e =>
      rw [facadeParsed, failFacade_snd] at h
      cases h
      rfl

theorem facadeGot_told {run : Run GetPoint (Option ParserId)}
    {x : Except Fault (ParseResult SyntaxTree)}
    (h : (s.facadeGot t f request run).2 = .finished x) :
    ∃ outcome, gotBehind? t f request (s, run) = some outcome
      ∧ x = toldParse f request outcome := by
  cases run with
  | waiting point wait => cases h
  | finished result =>
    cases result with
    | error e =>
      rw [facadeGot, failFacade_snd] at h
      cases h
      exact ⟨.error e, rfl, rfl⟩
    | ok found =>
      cases found with
      | none =>
        cases h
        exact ⟨_, rfl, rfl⟩
      | some p => exact facadeParsed_told p h

/-- **What a call that begins comes to** is told by what comes behind it. -/
theorem beginFacadeParse_told (goal : FacadeGoal) {x : Except Fault (ParseResult SyntaxTree)}
    (h : (s.beginFacadeParse t f request).2 = .finished x) :
    ∃ outcome, s.behind? t f request (.fresh (.facade f goal request) false) = some outcome
      ∧ x = toldParse f request outcome := by
  rw [beginFacadeParse] at h
  rw [behind?]
  split at h
  · rename_i hempty
    cases h
    exact ⟨_, if_pos hempty, rfl⟩
  · rename_i hempty
    rw [if_neg hempty]
    exact facadeGot_told h

/-- **What a call that goes on comes to** is told by what comes behind it. -/
theorem resumeFacadeParse_told (goal : FacadeGoal) {point : FacadePoint} {wait : Wait}
    {signal : Signal} {x : Except Fault (ParseResult SyntaxTree)}
    (h : ((s.endWait t wait signal).resumeFacadeParse t f request point signal).2 = .finished x) :
    ∃ outcome, s.behind? t f request (.waiting (.facade f goal request point) wait (some signal))
      = some outcome
      ∧ x = toldParse f request outcome := by
  cases point with
  | get point => exact facadeGot_told h
  | parse p point => exact facadeParsed_told p h

/-! ## Steps of a call -/

variable {goal₀ : FacadeGoal} {status : TaskStatus}

/-- Wanting to know what one wants to know already changes nothing. -/
theorem withGoal_self (ht : s.tasks[t]? = some status)
    (hcall : status.call? = some (.facade f goal₀ request)) :
    s.withGoal t goal₀ = s := by
  -- the goal is the one that the call has already, whether it has begun or waits
  have hstatus : status.withGoal goal₀ = status := by
    cases status with
    | fresh call cancelled =>
      cases hcall
      rfl
    | finished result => cases hcall
    | waiting frame wait signal =>
      cases frame with
      | facade f' goal' request' point =>
        cases hcall
        rfl
      | _ => cases hcall
  have htasks : s.tasks.modify t (TaskStatus.withGoal goal₀) = s.tasks := by
    refine Array.ext_getElem? fun i => ?_
    rw [Array.getElem?_modify]
    split
    · rename_i hi
      rw [← hi, ht, Option.map_some, hstatus]
    · rfl
  rw [withGoal, htasks]

/-- **What a step of a call through a facade can be**, whatever the caller wants to know: nothing, a
cancellation before it begins, or a run that does not depend on the goal and is told by what comes
behind the call. -/
theorem step_of_facade (ht : s.tasks[t]? = some status)
    (hcall : status.call? = some (.facade f goal₀ request)) :
    (∃ ready, ∀ goal, (s.withGoal t goal).step t = ({ s with ready } : Service).withGoal t goal)
      ∨ (s.Behind t f request (.error .cancelled) ∧ ∃ ready, ∀ goal, (s.withGoal t goal).step t
          = (({ s with ready } : Service).withGoal t goal).setTask t
            (.finished (.error .cancelled)))
      ∨ ∃ y : Service × Run FacadePoint (ParseResult SyntaxTree),
        (∀ {x}, y.2 = .finished x → ∃ outcome, s.Behind t f request outcome
          ∧ x = toldParse f request outcome)
        ∧ ∀ goal, (s.withGoal t goal).step t
          = settleRun t (.facade f goal request) (finishFacade f goal request)
            (runWithGoal t goal y) := by
  have htask : ∀ goal, (s.withGoal t goal).tasks[t]? = some (status.withGoal goal) := fun goal => by
    rw [task_withGoal, if_pos rfl, ht, Option.map_some]
  -- the task is at the same point whatever its goal is, so the goal is left open all along
  by_cases hready : t ∈ s.ready
  · have hready' : ∀ goal, t ∈ (s.withGoal t goal).ready := fun _ => hready
    cases status with
    | finished result => cases hcall
    | fresh call cancelled =>
      cases hcall
      cases cancelled with
      | true =>
        refine Or.inr (Or.inl ⟨⟨hready, _, ht, rfl⟩, s.ready.erase t, fun goal => ?_⟩)
        exact step_of_cancelled (hready' goal) (htask goal)
      | false =>
        refine Or.inr (Or.inr ⟨({ s with ready := s.ready.erase t } : Service).beginFacadeParse
          t f request,
          fun hx => ?_, fun goal => ?_⟩)
        · obtain ⟨outcome, hbehind, hx⟩ := beginFacadeParse_told goal₀ hx
          exact ⟨outcome, ⟨hready, _, ht, hbehind⟩, hx⟩
        rw [step_of_fresh (hready' goal) (htask goal), ← beginFacadeParse_withGoal]
        rfl
    | waiting frame wait signal =>
      cases signal with
      | none =>
        refine Or.inl ⟨s.ready.erase t, fun goal => ?_⟩
        exact step_of_unsignalled (hready' goal) (htask goal)
      | some signal =>
        cases frame with
        | facade f' goal' request' point =>
          cases hcall
          refine Or.inr (Or.inr
            ⟨(endWait { s with ready := s.ready.erase t } t wait signal).resumeFacadeParse t
              f request point signal, fun hx => ?_, fun goal => ?_⟩)
          · obtain ⟨outcome, hbehind, hx⟩ := resumeFacadeParse_told goal₀ hx
            exact ⟨outcome, ⟨hready, _, ht, hbehind⟩, hx⟩
          have hended := endWait_withGoal { s with ready := s.ready.erase t } t goal t wait signal
          rw [step_of_waiting (hready' goal) (htask goal), ← resumeFacadeParse_withGoal, ← hended]
          rfl
        | _ => cases hcall
  · exact Or.inl ⟨s.ready, fun goal => step_of_not_ready hready⟩

end Service

/-! ## How the answers hang together -/

/-- The answers to what a caller may want to know agree with the result of one parse. It is one
result for all four of them: the caller who wants the tree is given it, and the others are told what
follows from it. -/
structure AgreedAnswers (r : FacadeGoal → Except Fault Outcome) (result : ParseResult SyntaxTree) :
    Prop where
  tree : r .tree = .ok (.parsed result)
  /-- The text is valid if and only if the parse gave a tree without errors. -/
  valid : r .validity = .ok (.validated (.ok true))
    ↔ result.success = true ∧ ∃ tree, result.value = some tree ∧ tree.errors = []
  invalid : r .validity ≠ .ok (.validated (.ok true)) → r .validity = .ok (.validated (.ok false))
  errors : ∀ {tree}, result.success = true → result.value = some tree →
    r .errors = .ok (.diagnosed (.ok tree.errors))
  noErrors : result.success = false → r .errors = .ok (.diagnosed (.ok []))
  /-- No declarations are told of a text that could not be parsed, for the reason for which it could
  not. -/
  declarations : result.success = false →
    r .declarations = .ok (.declared { success := false, error := result.error })

/-- **How the answers hang together** that a caller could get: lack of memory and cancellation are
raised and nothing else, whatever they wanted to know, and otherwise the answers are about one
result. -/
structure FacadeLaw (r : FacadeGoal → Except Fault Outcome) : Prop where
  raised : ∀ goal {e}, r goal = .error e → e.isOutOfMemory = true ∨ e.isCancelled = true
  agreed : (∃ e, ∀ goal, r goal = .error e) ∨ ∃ result, AgreedAnswers r result

/-- **What a facade can answer from**: a fault that does not stray, a failure, or a tree whose
declarations can be told or fail with such a fault. -/
def Answerable : Except Fault (ParseResult SyntaxTree) → Prop
  | .error e => e.strays Service.passesOn = false
  | .ok result => result.success = true →
    ∃ tree, result.value = some tree ∧ ∀ e, tree.declarations = .error e →
    e.strays Service.passesOn = false

namespace Service

variable {f : Facade} {request : ParseRequest}

theorem raised_of_passesOn {e : Fault} (h : passesOn e = true) (hstays : e.isInterruption = false) :
    e.isOutOfMemory = true ∨ e.isCancelled = true := by
  simp only [passesOn, Bool.or_eq_true, Bool.not_eq_true'] at h
  exact h.imp_right fun hfailure => Fault.isCancelled_of_not_isFailure hfailure hstays

/-- **A fault is told to callers in a way that they are used to** if and only if it does not
stray. -/
theorem strays_eq_false_iff (α : Type) (f : Facade) (request : ParseRequest) (opening : String)
    (e : Fault) :
    e.strays passesOn = false ↔
      ∀ e', toldOf (α := α) f request opening e = .error e' → e'.isOutOfMemory = true
        ∨ e'.isCancelled = true := by
  constructor
  · intro hstays e' htold
    simp only [Fault.strays, Fault.isUntold, Bool.or_eq_false_iff, Bool.and_eq_false_iff,
      Bool.not_eq_false'] at hstays
    rw [toldOf] at htold
    split at htold
    · rename_i hpasses
      cases htold
      exact raised_of_passesOn hpasses hstays.1
    · rename_i hpasses
      rw [Fault.written_of_isWritable (hstays.2.resolve_left hpasses)] at htold
      cases htold
  · intro hused
    refine Bool.eq_false_iff.mpr fun hstrays => ?_
    -- an interruption comes through as it is, and a fault without words as that of writing it
    simp only [Fault.strays, Fault.isUntold, Bool.or_eq_true, Bool.and_eq_true, Bool.not_eq_true']
      at hstrays
    rcases hstrays with hinterrupted | ⟨hpasses, hwritable⟩
    · have hpasses : passesOn e = true := by
        rw [passesOn, Fault.isFailure_of_isInterruption hinterrupted, Bool.or_comm]; rfl
      obtain ⟨-, hmemory, hcancelled⟩ := Fault.of_isInterruption hinterrupted
      have := hused e (by rw [toldOf, if_pos hpasses])
      rw [hmemory, hcancelled] at this
      rcases this with h | h <;> cases h
    · have := hused (.tooManyDigits "") (by
        rw [toldOf, if_neg (Bool.eq_false_iff.mp hpasses),
          Fault.written_of_not_isWritable hwritable]
        rfl)
      rcases this with h | h <;> cases h

/-- What is told of the declarations of a tree. -/
def toldTree (f : Facade) (request : ParseRequest) (tree : SyntaxTree) :
    Except Fault (ParseResult UnitDecl) :=
  match tree.declarations with
  | .ok unit => .ok (.ok unit)
  | .error e => toldOf f request "Definition conversion failed: " e

theorem declarationsOf_snd (s : Service) (f : Facade) (request : ParseRequest)
    {result : ParseResult SyntaxTree} {tree : SyntaxTree} (hsuccess : result.success = true)
    (hvalue : result.value = some tree) :
    (s.declarationsOf f request result).2 = toldTree f request tree := by
  rw [declarationsOf, if_neg (by simp [ParseResult.isFailure, hsuccess]), hvalue, toldTree]
  dsimp only
  rw [declare]
  cases tree.declarations with
  | ok unit => rfl
  | error e => exact tellFault_snd ..

/-- What is answered depends on the parse, not on the state of the service, which is only written to
on the way. -/
theorem finishFacade_snd (s s' : Service) (goal : FacadeGoal)
    (x : Except Fault (ParseResult SyntaxTree)) :
    (finishFacade f goal request s x).2 = (finishFacade f goal request s' x).2 := by
  cases x with
  | error e => rfl
  | ok result =>
    cases goal with
    | tree => rfl
    | validity => rfl
    | errors => rfl
    -- only the goal of declarations may fail on its own, and then it is told like any other fault
    | declarations =>
      show (s.declarationsOf f request result).2.map _
        = (s'.declarationsOf f request result).2.map _
      cases hsuccess : result.success with
      | false =>
        have hfailure : result.isFailure = true := by rw [ParseResult.isFailure, hsuccess]; rfl
        rw [declarationsOf, declarationsOf, if_pos hfailure, if_pos hfailure]
      | true =>
        cases hvalue : result.value with
        | some tree =>
          rw [declarationsOf_snd s f request hsuccess hvalue,
            declarationsOf_snd s' f request hsuccess hvalue]
        | none =>
          have hnot : ¬result.isFailure = true := by simp [ParseResult.isFailure, hsuccess]
          rw [declarationsOf, declarationsOf, if_neg hnot, if_neg hnot, hvalue]
          exact congrArg (Except.map Outcome.declared)
            ((tellFault_snd ..).trans (tellFault_snd ..).symm)

/-- The answers after a parse that gave a tree. Whether its declarations can be told is left open
here; they are not among what the answers have to agree on. -/
theorem answers_of_tree (s : Service) (f : Facade) (request : ParseRequest)
    {result : ParseResult SyntaxTree} {tree : SyntaxTree} (hsuccess : result.success = true)
    (hvalue : result.value = some tree) :
    AgreedAnswers (fun goal => (finishFacade f goal request s (.ok result)).2) result := by
  have hvalid : (finishFacade f .validity request s (.ok result)).2
      = .ok (.validated (.ok (!tree.hasErrors))) := by
    simp [finishFacade, answerGoal, validityOf, ParseResult.isFailure, hsuccess, hvalue, Except.map]
  have herrors : (finishFacade f .errors request s (.ok result)).2
      = .ok (.diagnosed (.ok tree.errors)) := by
    simp [finishFacade, answerGoal, errorsOf, ParseResult.isFailure, hsuccess, hvalue, Except.map]
  have hfailed : ¬result.success = false := by simp [hsuccess]
  -- the parse has succeeded, so nothing is to be shown for one that failed
  refine ⟨rfl, ?_, fun hnot => ?_, fun _ htree => ?_, fun h => absurd h hfailed,
    fun h => absurd h hfailed⟩
  · rw [hvalid]
    simp [ParseResult.ok, SyntaxTree.hasErrors, hsuccess, hvalue]
  · rw [hvalid] at hnot ⊢
    cases hhas : tree.hasErrors with
    | true => rfl
    | false =>
      rw [hhas] at hnot
      exact absurd rfl hnot
  · rw [hvalue, Option.some.injEq] at htree
    exact htree ▸ herrors

theorem answers_of_failure (s : Service) (f : Facade) (request : ParseRequest)
    {result : ParseResult SyntaxTree} (h : result.success = false) :
    AgreedAnswers (fun goal => (finishFacade f goal request s (.ok result)).2) result := by
  have hfailure : result.isFailure = true := by rw [ParseResult.isFailure, h]; rfl
  have hvalid : (finishFacade f .validity request s (.ok result)).2
      = .ok (.validated (.ok false)) := by
    simp [finishFacade, answerGoal, validityOf, hfailure, Except.map]
  refine ⟨rfl, ?_, fun _ => hvalid, fun hsuccess => ?_, fun _ => ?_, fun _ => ?_⟩
  · rw [hvalid]
    simp [ParseResult.ok, h]
  · rw [h] at hsuccess
    cases hsuccess
  · simp [finishFacade, answerGoal, errorsOf, hfailure, Except.map]
  · show (s.declarationsOf f request result).2.map Outcome.declared = _
    rw [declarationsOf, if_pos hfailure]
    rfl

theorem facadeLaw_of_failure (s : Service) {result : ParseResult SyntaxTree}
    (h : result.success = false) :
    FacadeLaw fun goal => (finishFacade f goal request s (.ok result)).2 := by
  have hanswers := answers_of_failure s f request h
  refine ⟨fun goal e hraised => ?_, Or.inr ⟨result, hanswers⟩⟩
  cases goal with
  | tree => cases hanswers.tree.symm.trans hraised
  | validity =>
    have hinvalid := hanswers.invalid fun hvalid => by cases hvalid.symm.trans hraised
    cases hinvalid.symm.trans hraised
  | errors => cases (hanswers.noErrors h).symm.trans hraised
  | declarations => cases (hanswers.declarations h).symm.trans hraised

/-- After a parse that gave a tree nothing but the telling of its declarations can raise. So the law
holds if and only if what goes wrong there can be told. -/
theorem facadeLaw_of_tree_iff (s : Service) {result : ParseResult SyntaxTree} {tree : SyntaxTree}
    (hsuccess : result.success = true) (hvalue : result.value = some tree) :
    FacadeLaw (fun goal => (finishFacade f goal request s (.ok result)).2)
      ↔ ∀ e, tree.declarations = .error e → e.strays passesOn = false := by
  have hdeclared : ∀ {e}, tree.declarations = .error e →
      (finishFacade f .declarations request s (.ok result)).2
      = (toldOf f request "Definition conversion failed: " e).map .declared := fun {e} htree => by
    show (s.declarationsOf f request result).2.map Outcome.declared = _
    rw [declarationsOf_snd s f request hsuccess hvalue, toldTree, htree]
  have hanswers := answers_of_tree s f request hsuccess hvalue
  constructor
  · intro hlaw e htree
    refine (strays_eq_false_iff UnitDecl f request "Definition conversion failed: " e).mpr
      fun e' htold => hlaw.raised .declarations ?_
    rw [hdeclared htree, htold]
    rfl
  · intro hstays
    refine ⟨fun goal e' hraised => ?_, Or.inr ⟨result, hanswers⟩⟩
    -- three of the four answers are never raised, by their agreement with the result
    cases goal with
    | tree => cases hanswers.tree.symm.trans hraised
    | validity =>
      have hinvalid := hanswers.invalid fun hvalid => by cases hvalid.symm.trans hraised
      cases hinvalid.symm.trans hraised
    | errors => cases (hanswers.errors hsuccess hvalue).symm.trans hraised
    | declarations =>
      cases htree : tree.declarations with
      | ok unit =>
        have htold : (s.declarationsOf f request result).2.map Outcome.declared
            = .error e' := hraised
        rw [declarationsOf_snd s f request hsuccess hvalue, toldTree, htree] at htold
        cases htold
      | error e =>
        have htold := (hdeclared htree).symm.trans hraised
        cases hsaid : toldOf (α := UnitDecl) f request "Definition conversion failed: " e with
        | ok told =>
          rw [hsaid] at htold
          cases htold
        | error e'' =>
          rw [hsaid] at htold
          cases htold
          exact (strays_eq_false_iff _ f request "Definition conversion failed: " e).mp
            (hstays e htree) e' hsaid

theorem not_facadeLaw_of_no_tree (s : Service) {result : ParseResult SyntaxTree}
    (hsuccess : result.success = true) (hvalue : result.value = none) :
    ¬FacadeLaw fun goal => (finishFacade f goal request s (.ok result)).2 := by
  intro hlaw
  have hvalid : (finishFacade f .validity request s (.ok result)).2
      = .error (noTree "has_errors") := by
    simp [finishFacade, answerGoal, validityOf, ParseResult.isFailure, hsuccess, hvalue, Except.map]
  rcases hlaw.raised .validity hvalid with h | h <;> cases h

/-- **The answers that can be given at the end of a parse** hang together if and only if there is
something to answer from. -/
theorem facadeLaw_finish_iff (s : Service) (f : Facade) (request : ParseRequest)
    (outcome : Except Fault (ParseResult SyntaxTree)) :
    FacadeLaw (fun goal => (finishFacade f goal request s (toldParse f request outcome)).2)
      ↔ Answerable outcome := by
  -- the parse may have raised, and otherwise it failed, gave a tree, or claimed one
  cases outcome with
  | error e =>
    rw [Answerable, strays_eq_false_iff SyntaxTree f request "Parsing failed: "]
    cases htold : toldOf (α := SyntaxTree) f request "Parsing failed: " e with
    | error e' =>
      rw [toldParse, htold]
      constructor
      · intro hlaw e'' heq
        cases heq
        exact hlaw.raised .tree rfl
      · intro hused
        refine ⟨fun _ _ h => ?_, Or.inl ⟨e', fun _ => rfl⟩⟩
        cases h
        exact hused e' rfl
    | ok result =>
      -- a fault of which the caller is told leaves a failed result
      have hfailed : result.success = false := by
        rw [toldOf] at htold
        split at htold
        · cases htold
        · cases hwritten : e.written with
          | ok text =>
            rw [hwritten] at htold
            cases htold
            rfl
          | error e' =>
            rw [hwritten] at htold
            cases htold
      rw [toldParse, htold]
      exact ⟨fun _ e' h => (by cases h), fun _ => facadeLaw_of_failure s hfailed⟩
  | ok result =>
    rw [Answerable, toldParse]
    cases hsuccess : result.success with
    | false => exact ⟨fun _ h => (by cases h), fun _ => facadeLaw_of_failure s hsuccess⟩
    | true =>
      cases hvalue : result.value with
      | none =>
        refine ⟨fun hlaw => absurd hlaw (not_facadeLaw_of_no_tree s hsuccess hvalue), fun h => ?_⟩
        obtain ⟨tree, htree, -⟩ := h rfl
        cases htree
      | some tree =>
        rw [facadeLaw_of_tree_iff s hsuccess hvalue]
        constructor
        · exact fun hstays _ => ⟨tree, rfl, hstays⟩
        · intro h
          obtain ⟨tree', htree, hstays⟩ := h rfl
          cases htree
          exact hstays

end Service

/-! ## Histories that differ in what the caller wants to know -/

/-- The run in which a caller asks a facade for something, after `pre` and before `more`. -/
def asking (pre : List Service.Action) (f : Facade) (request : ParseRequest)
    (more : List Service.Action) (goal : FacadeGoal) : List Service.Action :=
  pre ++ .spawn (.facade f goal request) :: more

/-- In the history without a goal but the tree, this outcome came behind the call. -/
def CameBehind (pre more : List Service.Action) (f : Facade) (request : ParseRequest)
    (outcome : Except Fault (ParseResult SyntaxTree)) : Prop :=
  ∃ past, past ++ [.step (Service.after pre).tasks.size] <+: more
    ∧ (Service.after (asking pre f request past .tree)).Behind (Service.after pre).tasks.size
      f request outcome

theorem CameBehind.append {pre more : List Service.Action} {f : Facade} {request : ParseRequest}
    {outcome : Except Fault (ParseResult SyntaxTree)} (h : CameBehind pre more f request outcome)
    (later : List Service.Action) : CameBehind pre (more ++ later) f request outcome := by
  obtain ⟨past, hpast, hbehind⟩ := h
  exact ⟨past, hpast.trans (List.prefix_append more later), hbehind⟩

/-- Where the call of a task stands in services that differ in what the caller wants to know: it
goes on in the same way in all of them, or it has ended in all of them with answers that hang
together if and only if there was something to answer from. The outcomes that may have come behind
the call are those of `came`. -/
inductive Asked (t : TaskId) (f : Facade) (request : ParseRequest)
    (came : Except Fault (ParseResult SyntaxTree) → Prop) (services : FacadeGoal → Service) : Prop
  | busy {s : Service} {status : TaskStatus} (hsame : ∀ goal, services goal = s.withGoal t goal)
      (ht : s.tasks[t]? = some status) (hcall : status.call? = some (.facade f .tree request)) :
      Asked t f request came services
  | ended {r : FacadeGoal → Except Fault Outcome} {outcome : Except Fault (ParseResult SyntaxTree)}
      (hends : ∀ goal, (services goal).result? t = some (r goal)) (hcame : came outcome)
      (hlaw : FacadeLaw r ↔ Answerable outcome) : Asked t f request came services

theorem Valid.result?_act {s : Service} (h : Valid s) {t : TaskId} {outcome : Except Fault Outcome}
    (hended : s.result? t = some outcome) (a : Service.Action) :
    (s.act a).result? t = some outcome := by
  have ht : s.tasks[t]? = some (.finished outcome) := by
    rw [Service.result?] at hended
    split at hended
    · cases hended
      assumption
    · cases hended
  have halike : ∀ {a b : TaskStatus}, a = .finished outcome → a.Alike b →
      b = .finished outcome := by
    rintro a b rfl hab
    cases hab
    rfl
  obtain ⟨status', ht', rfl⟩ := h.task_act halike ht rfl ⟨_, Service.step_of_finished ht, rfl⟩ a
  rw [Service.result?, ht']

namespace Asked

variable {t : TaskId} {f : Facade} {request : ParseRequest} {services : FacadeGoal → Service}
  {came : Except Fault (ParseResult SyntaxTree) → Prop}

/-- The call gets its turn. If it goes on in one of the histories it does so in all of them, and if
it ends, the outcome behind it is the same in all of them. -/
theorem step {s : Service} {status : TaskStatus} (hvalid : ∀ goal, Valid (s.withGoal t goal))
    (ht : s.tasks[t]? = some status) (hcall : status.call? = some (.facade f .tree request))
    (hcame : ∀ {outcome}, s.Behind t f request outcome → came outcome) :
    Asked t f request came fun goal => (s.withGoal t goal).step t := by
  have hlast : ∀ goal, ∃ last, ((s.withGoal t goal).step t).tasks[t]? = some last := fun goal => by
    have htask : (s.withGoal t goal).tasks[t]? = some (status.withGoal goal) := by
      rw [Service.task_withGoal, if_pos rfl, ht, Option.map_some]
    exact (hvalid goal).exists_task_step htask
  -- the task may not be ready, it may be cancelled before it begins, or the call runs
  rcases Service.step_of_facade ht hcall with ⟨ready, hidle⟩ | ⟨hbehind, ready, hcancelled⟩
    | ⟨⟨s₁, run⟩, htold, hruns⟩
  · exact .busy hidle ht hcall
  · refine .ended (r := fun _ => .error .cancelled) (fun goal => ?_) (hcame hbehind)
      (Service.facadeLaw_finish_iff s f request (.error .cancelled))
    obtain ⟨last, hlast⟩ := hlast goal
    rw [Service.result?, hlast]
    rw [hcancelled goal] at hlast
    rw [Service.status_of_setTask hlast]
  · cases run with
    | waiting point wait =>
      have hsame : ∀ goal, (s.withGoal t goal).step t
          = (s₁.setTask t
            (.waiting (.facade f .tree request point) wait none)).withGoal t goal := by
        intro goal
        rw [hruns goal, ← Service.setTask_withGoal_self]
        rfl
      obtain ⟨last, hlast⟩ := hlast .tree
      have hlt := (Array.getElem?_eq_some_iff.mp hlast).1
      rw [hsame .tree, Service.withGoal, Service.setTask, Array.size_modify,
        Array.size_modify] at hlt
      exact .busy hsame (Service.task_setTask hlt _) rfl
    | finished x =>
      obtain ⟨outcome, hbehind, rfl⟩ := htold rfl
      refine .ended (fun goal => ?_) (hcame hbehind)
        (Service.facadeLaw_finish_iff s₁ f request outcome)
      -- the services differ in the goal that they keep, which the answers do not look at
      obtain ⟨last, hlast⟩ := hlast goal
      rw [Service.result?, hlast]
      rw [hruns goal] at hlast
      rw [Service.status_of_setTask hlast]
      exact congrArg some (Service.finishFacade_snd ..)

/-- **One more action.** A call that has ended is left alone, a step of its own task is its turn,
and what anybody else does is the same whatever its goal is. -/
theorem act (h : Asked t f request came services) (hvalid : ∀ goal, Valid (services goal))
    (a : Service.Action) (came' : Except Fault (ParseResult SyntaxTree) → Prop)
    (hcame : ∀ {outcome}, came outcome → came' outcome)
    (hstep : ∀ {outcome}, a = .step t → (services .tree).Behind t f request outcome →
      came' outcome) :
    Asked t f request came' fun goal => (services goal).act a := by
  cases h with
  | ended hends hcame' hlaw =>
    exact .ended (fun goal => (hvalid goal).result?_act (hends goal) a) (hcame hcame') hlaw
  | @busy s status hsame ht hcall =>
    -- the services differ in the goal alone, so they are all told by one of them
    obtain rfl : services = fun goal => s.withGoal t goal := funext hsame
    by_cases ha : a = .step t
    · subst ha
      refine step hvalid ht hcall fun hbehind => hstep rfl ?_
      show (s.withGoal t .tree).Behind t f request _
      rwa [Service.withGoal_self ht hcall]
    · -- somebody else acts, and at most wakes or cancels the task
      have hself : Valid (s.withGoal t .tree) := hvalid .tree
      rw [Service.withGoal_self ht hcall] at hself
      obtain ⟨status', ht', halike⟩ := (hself.happening a).alike ht ha
      refine .busy (fun goal => Service.act_withGoal s t goal (Array.getElem?_eq_some_iff.mp ht).1
        ha) ht' ?_
      cases halike with
      | fresh call cancelled cancelled' => exact hcall
      | waiting frame wait signal signal' => exact hcall
      | finished result => exact hcall

theorem spawn (s : Service) (f : Facade) (request : ParseRequest)
    (came : Except Fault (ParseResult SyntaxTree) → Prop) :
    Asked s.tasks.size f request came fun goal => s.act (.spawn (.facade f goal request)) := by
  have ht : (s.spawn (.facade f .tree request)).1.tasks[s.tasks.size]?
      = some (.fresh (.facade f .tree request) false) := by
    rw [Service.task_spawn, if_pos rfl]
  have htasks : ∀ goal, s.tasks.push (.fresh (.facade f goal request) false)
      = (s.tasks.push (.fresh (.facade f .tree request) false)).modify s.tasks.size
        (TaskStatus.withGoal goal) := fun goal => by
    refine Array.ext_getElem? fun i => ?_
    rw [Array.getElem?_modify, Array.getElem?_push, Array.getElem?_push]
    by_cases hi : i = s.tasks.size
    · rw [if_pos hi, if_pos hi, if_pos hi.symm]
      rfl
    · rw [if_neg hi, if_neg hi, if_neg (Ne.symm hi)]
  refine .busy (fun goal => ?_) ht rfl
  rw [Service.act, if_pos (show (Call.facade f goal request).clients.all s.offers = true from rfl),
    Service.spawn, htasks goal]
  rfl

/-- **Histories.** -/
theorem after (pre more : List Service.Action) (f : Facade) (request : ParseRequest) :
    Asked (Service.after pre).tasks.size f request (CameBehind pre more f request) fun goal =>
      Service.after (asking pre f request more goal) := by
  induction more using List.reverseRecOn with
  | nil =>
    have hspawned := spawn (Service.after pre) f request (CameBehind pre [] f request)
    simp only [← Service.after_concat] at hspawned
    exact hspawned
  | append_singleton more a ih =>
    -- what came behind the call before this action, or comes with it if it is a step of the task
    have hacted := ih.act (fun goal => valid_after _) a (CameBehind pre (more ++ [a]) f request)
      (fun hcame => hcame.append [a]) fun ha hbehind => ⟨more, ha ▸ List.prefix_refl _, hbehind⟩
    simp only [← Service.after_concat] at hacted
    simp only [asking, ← List.cons_append, ← List.append_assoc] at hacted ⊢
    exact hacted

end Asked

/-- **When a facade answers as it should.** Take any history in which a caller asks a facade
something, and the histories that differ from it in nothing but what the caller wants to know. The
call goes on in all of them or has ended in all of them. Where it has ended, the law of the four
answers holds if and only if the facade could answer from what came behind the call: it raised lack
of memory or cancellation, or all answers are about the result of one parse. The text is then valid
if and only if the parse gave a tree without errors, the errors are those of the tree, and after a
failed parse there are no errors and no declarations, for the reason for which it failed. -/
theorem facade_law_iff (pre more : List Service.Action) (f : Facade) (request : ParseRequest) :
    (∀ goal, (Service.after (asking pre f request more goal)).result?
      (Service.after pre).tasks.size = none)
      ∨ ∃ r outcome,
        (∀ goal, (Service.after (asking pre f request more goal)).result?
          (Service.after pre).tasks.size = some (r goal))
        ∧ CameBehind pre more f request outcome ∧ (FacadeLaw r ↔ Answerable outcome) := by
  cases Asked.after pre more f request with
  | ended hends hcame hlaw => exact Or.inr ⟨_, _, hends, hcame, hlaw⟩
  | @busy s status hsame ht hcall =>
    refine Or.inl fun goal => ?_
    rw [hsame goal, Service.result?_withGoal, Service.result?, ht]
    cases status with
    | finished result => cases hcall
    | fresh call cancelled => rfl
    | waiting frame wait signal => rfl

/-- A facade whose registry is not there. -/
example :
    (Service.after (asking [] ⟨0, "text"⟩ { source := some "a" } [.step 0] .validity)).result? 0
    = some (.ok (.validated (.ok false))) := rfl

/-- A registry with one language, whose parser answers every request in the same way. -/
def answering (answer : Except Fault (ParseResult SyntaxTree)) : List Service.Action :=
  let blueprint : Blueprint :=
    { name := "Parser", language := "text", engine := { answer := some fun _ _ => answer } }
  [.newRegistry {} 0 false,
    .register 0 { name := "text", factory := some { build := fun _ => .ok blueprint } }]

/-- The kind of fault that a caller is raised who asks that registry, by what they want to know. -/
def raisedBy (answer : Except Fault (ParseResult SyntaxTree)) (goal : FacadeGoal) : Option String :=
  ((Service.after (asking (answering answer) ⟨0, "text"⟩ { source := some "a" }
    [.step 0] goal)).result? 0).bind raisedKind?

/-- A parser that raises a fault which cannot be written, and one that reports success without a
tree: callers are raised faults that are neither lack of memory nor cancellation. -/
theorem facade_raises :
    (∀ goal, raisedBy (.error unwritableFault) goal = some "ValueError")
      ∧ raisedBy (.ok { success := true }) .tree = none
      ∧ raisedBy (.ok { success := true }) .validity = some "AttributeError"
      ∧ raisedBy (.ok { success := true }) .errors = some "AttributeError"
      ∧ raisedBy (.ok { success := true }) .declarations = none := by
  refine ⟨fun goal => ?_,
    by decide +kernel, by decide +kernel, by decide +kernel, by decide +kernel⟩
  cases goal <;> decide +kernel

end SyntaxForest
