import SyntaxForest.Proofs.Declaration.Tokens
import SyntaxForest.Proofs.Native.Copying
import SyntaxForest.Proofs.Service.Faults
import SyntaxForest.Settings

/-!
# Keeping tokens

A parser can keep the tokens of its native trees or leave them out. Callers who ask for declarations
should not notice, and they do not, as long as no token has a kind that introduces a declaration, a
list of parameters or a body.

* **`NativeInfo.isToken`**, **`NativeTree.Quiet`** — tokens, and tokens that say nothing to a
  converter.
* **`Scan.CopiesAll.matches`** — of two copies of a native tree, the one without tokens is the other
  one thinned.
* **`Service.Declaring`**, **`Service.told`** — a call for declarations whose engine got done, and
  what its caller is told.
* **`Service.told_without_tokens`** — with tokens or without, callers are told the same.
* **`Service.told_a_keyword`** — where a keyword is spelled like the kind of a namespace, they are
  not.
-/

namespace SyntaxForest

/-- A token: an anonymous native node that neither failed nor was made up. -/
def NativeInfo.isToken (info : NativeInfo) : Bool :=
  !info.isNamed && !info.isError && !info.isMissing

/-- Nothing is below the token, and its kind tells nothing. -/
structure NativeTree.Quiet (c : Classifier) (m : NativeTree) : Prop where
  leaf : m.children = []
  untold : c.tells m.info.kind = false

instance (c : Classifier) (m : NativeTree) : Decidable (m.Quiet c) :=
  decidable_of_iff (m.children.isEmpty = true ∧ c.tells m.info.kind = false)
    ⟨fun h => ⟨List.isEmpty_iff.mp h.1, h.2⟩, fun h => ⟨List.isEmpty_iff.mpr h.leaf, h.untold⟩⟩

/-! ## Two copies of a native tree -/

namespace Scan

variable {s : Scan} {limit : Int} {source : String} {keep keep' : Bool}

theorem flags_of_nodeInfo {info : NativeInfo} {children : List NativeTree} {made : NodeInfo}
    (h : s.nodeInfo info children = .ok made) :
    s.nameOf children = .ok made.name ∧ made.isError = info.isError
      ∧ made.isMissing = info.isMissing
      ∧ made.metadata = [("is_named", .bool info.isNamed), ("has_error", .bool info.hasError)] := by
  obtain ⟨start, -, h⟩ := exists_ok_of_bind h
  obtain ⟨stop, -, h⟩ := exists_ok_of_bind h
  obtain ⟨name, hname, h⟩ := exists_ok_of_bind h
  obtain ⟨span, -, h⟩ := exists_ok_of_bind h
  cases h
  exact ⟨hname, rfl, rfl, rfl⟩

/-- The nodes of tokens can be told by what they say. -/
theorem Copies.isToken {m : NativeTree} {n : SyntaxNode} (h : s.Copies m n) :
    n.isToken = m.info.isToken := by
  cases m with
  | node info isName children =>
    cases n with
    | node id made nodes =>
      obtain ⟨-, herror, hmissing, hmetadata⟩ := flags_of_nodeInfo h.2.1
      show (!((Assoc.get? made.metadata "is_named").map Datum.isGiven).getD true
        && !made.isError && !made.isMissing) = (!info.isNamed && !info.isError && !info.isMissing)
      rw [herror, hmissing, hmetadata]
      rfl

theorem nodeInfo_keep (info : NativeInfo) (children : List NativeTree) :
    (ofSource ⟨limit, keep⟩ source).nodeInfo info children
      = (ofSource ⟨limit, keep'⟩ source).nodeInfo info children :=
  rfl

theorem keeps_all (info : NativeInfo) : (ofSource ⟨limit, true⟩ source).keeps info = true :=
  Bool.or_true _

theorem keeps_eq (info : NativeInfo) :
    (ofSource ⟨limit, false⟩ source).keeps info = !info.isToken := by
  cases info with
  | mk kind start stop named error missing inside =>
    cases named <;> cases error <;> cases missing <;> rfl

variable {c : Converter}

theorem Copies.silent {m : NativeTree} {n : SyntaxNode} (h : s.Copies m n)
    (htoken : m.info.isToken = true) (hquiet : m.Quiet c.classifier) : c.Silent n := by
  have hcopied := h.isToken
  cases m with
  | node info isName children =>
    cases n with
    | node id made nodes =>
      obtain ⟨-, hmade, hbelow⟩ := h
      obtain rfl : children = [] := hquiet.leaf
      obtain rfl : nodes = [] := hbelow
      obtain hname : none = made.name := Except.ok.inj (flags_of_nodeInfo hmade).1
      refine ⟨hcopied.trans htoken, rfl, ?_, ?_⟩
      · show made.name.any (· != "") = false
        rw [← hname]
        rfl
      · show c.classifier.tells made.kind = false
        rw [kind_of_nodeInfo hmade]
        exact hquiet.untold

/-- The second nodes are the first ones without their tokens, whatever else corresponds. -/
def Matches (c : Converter) (nodes others : List SyntaxNode) : Prop :=
  ∃ ids, ids.map Prod.fst = ((SyntaxNode.preorderAll nodes).filter (!·.isToken)).map SyntaxNode.id
    ∧ ids.map Prod.snd = SyntaxNode.idsAll others ∧ ∀ all, ids ⊆ all → c.ThinsAll all nodes others

theorem Matches.nil : Matches c [] [] := ⟨[], rfl, rfl, fun _ _ => rfl⟩

theorem Matches.token {n : SyntaxNode} {rest others : List SyntaxNode} (hn : c.Silent n)
    (h : Matches c rest others) : Matches c (n :: rest) others := by
  obtain ⟨ids, hfirst, hsecond, hthins⟩ := h
  refine ⟨ids, ?_, hsecond, fun all hall => ?_⟩
  · rw [SyntaxNode.preorderAll, hn.preorder, List.singleton_append,
      List.filter_cons_of_neg (by rw [hn.token]; exact Bool.false_ne_true), hfirst]
  · rw [Converter.ThinsAll, if_pos hn.token]
    exact ⟨hn, hthins all hall⟩

theorem Matches.node {id id' : NodeId} {info : NodeInfo}
    {children children' rest others : List SyntaxNode}
    (hkept : (SyntaxNode.node id info children).isToken = false)
    (hbelow : Matches c children children') (h : Matches c rest others) :
    Matches c (.node id info children :: rest) (.node id' info children' :: others) := by
  obtain ⟨inside, hfirstInside, hsecondInside, hthinsInside⟩ := hbelow
  obtain ⟨ids, hfirst, hsecond, hthins⟩ := h
  refine ⟨(id, id') :: (inside ++ ids), ?_, ?_, fun all hall => ?_⟩
  · rw [SyntaxNode.preorderAll, SyntaxNode.preorder, List.cons_append,
      List.filter_cons_of_pos (by rw [hkept]; rfl), List.filter_append, List.map_cons,
      List.map_cons,
      List.map_append, List.map_append, hfirstInside, hfirst]
    rfl
  · rw [SyntaxNode.idsAll_cons, SyntaxNode.ids_node, List.map_cons, List.map_append,
      hsecondInside, hsecond]
    rfl
  · obtain ⟨hpair, hrest⟩ := List.cons_subset.mp hall
    obtain ⟨hinside, hids⟩ := List.append_subset.mp hrest
    rw [Converter.ThinsAll, if_neg (Bool.eq_false_iff.mp hkept)]
    exact ⟨_, _, rfl, ⟨hpair, rfl, hthinsInside all hinside⟩, hthins all hids⟩

mutual

theorem Copies.matches_children :
    ∀ {m : NativeTree} {n n' : SyntaxNode}, (ofSource ⟨limit, true⟩ source).Copies m n →
      (ofSource ⟨limit, false⟩ source).Copies m n' →
      (∀ x ∈ NativeTree.preorderAll m.children, x.info.isToken = true → x.Quiet c.classifier) →
      n.info = n'.info ∧ Matches c n.children n'.children
  | .node _ _ _, .node _ _ _, .node _ _ _, ⟨_, hmade, hcopies⟩, ⟨_, hmade', hcopies'⟩, hquiet =>
    ⟨Except.ok.inj (hmade.symm.trans ((nodeInfo_keep ..).trans hmade')),
      hcopies.matches hcopies' hquiet⟩

/-- **Of two copies of a native tree**, the one made without tokens is the other one without its
tokens. The induction is on the native tree, which both copies follow. -/
theorem CopiesAll.matches :
    ∀ {natives : List NativeTree} {nodes others : List SyntaxNode},
      (ofSource ⟨limit, true⟩ source).CopiesAll natives nodes →
      (ofSource ⟨limit, false⟩ source).CopiesAll natives others →
      (∀ x ∈ NativeTree.preorderAll natives, x.info.isToken = true → x.Quiet c.classifier) →
      Matches c nodes others
  | [], nodes, others, h, h', _ => by
    rw [CopiesAll] at h h'
    subst h h'
    exact .nil
  | .node info isName natives :: rest, nodes, others, h, h', hquiet => by
    rw [NativeTree.preorderAll, List.forall_mem_append] at hquiet
    rw [CopiesAll, if_pos (keeps_all _)] at h
    obtain ⟨⟨id, made, children⟩, nodes, rfl, hn, hnodes⟩ := h
    rw [CopiesAll, keeps_eq] at h'
    -- with tokens every native node has its copy, and without them a token is passed over
    cases htoken : info.isToken with
    | true =>
      rw [if_neg (by rw [NativeTree.info, htoken]; decide)] at h'
      have hsilent : c.Silent (.node id made children) :=
        hn.silent htoken (hquiet.1 _ (NativeTree.self_mem_preorder _) htoken)
      exact .token hsilent (hnodes.matches h' hquiet.2)
    | false =>
      rw [if_pos (by rw [NativeTree.info, htoken]; rfl)] at h'
      obtain ⟨⟨id', made', children'⟩, others, rfl, hn', hothers⟩ := h'
      obtain ⟨hinfo, hbelow⟩ :=
        hn.matches_children hn' fun x hx => hquiet.1 x (List.mem_cons_of_mem _ hx)
      obtain rfl : made = made' := hinfo
      exact .node (hn.isToken.trans htoken) hbelow (hnodes.matches hothers hquiet.2)

end

mutual

theorem kept_subset : ∀ native : NativeTree,
    native.kept (ofSource ⟨limit, false⟩ source) ⊆ native.kept (ofSource ⟨limit, true⟩ source)
  | .node info isName children => by
    rw [NativeTree.kept, NativeTree.kept]
    exact List.cons_subset_cons _ (keptAll_subset children)

theorem keptAll_subset : ∀ natives : List NativeTree,
    NativeTree.keptAll (ofSource ⟨limit, false⟩ source) natives
      ⊆ NativeTree.keptAll (ofSource ⟨limit, true⟩ source) natives
  | [] => List.Subset.refl _
  | native :: rest => by
    rw [NativeTree.keptAll, NativeTree.keptAll, if_pos (keeps_all native.info)]
    split
    · exact List.append_subset.mpr ⟨List.subset_append_of_subset_left _ (kept_subset native),
        List.subset_append_of_subset_right _ (keptAll_subset rest)⟩
    · exact List.subset_append_of_subset_right _ (keptAll_subset rest)

end

end Scan

/-- Where a tree can be made with the tokens, one can be made without them, and both declare the
same. -/
theorem SyntaxTree.exists_without_tokens {native : NativeTree} {limit : Int}
    {source language : String} {file : Option String} {c : Converter} {forest : Forest}
    {t : SyntaxTree}
    (hquiet : ∀ m ∈ NativeTree.preorderAll native.children, m.info.isToken = true →
      m.Quiet c.classifier)
    (hforest : (NativeReply.tree (some native)).forest ⟨limit, true⟩ source = .ok forest)
    (hmake : SyntaxTree.make forest (some 0) (some source) (some language) file = .ok t) :
    ∃ forest' t', (NativeReply.tree (some native)).forest ⟨limit, false⟩ source = .ok forest'
      ∧ SyntaxTree.make forest' (some 0) (some source) (some language) file = .ok t'
      ∧ (c.unit t').outline = (c.unit t).outline := by
  obtain ⟨ht, hcopies, hids⟩ := of_grown hforest hmake
  have hlanguage : language ≠ "" := by
    rintro rfl
    cases hmake
  -- less is kept, and what is found out about it is the same
  have hdescribes : ∀ m ∈ native.kept (Scan.ofSource ⟨limit, false⟩ source),
      (Scan.ofSource ⟨limit, false⟩ source).Describes m := fun m hm =>
    ((List.forall₂_and_left _ _).mp hcopies.forall₂).1 m (Scan.kept_subset native hm)
  obtain ⟨forest', t', hforest', hmake'⟩ := exists_grown hlanguage file hdescribes
  obtain ⟨ht', hcopies', hids'⟩ := of_grown hforest' hmake'
  -- the two trees are copies of one native tree, so they correspond
  obtain ⟨hinfo, ids, hfirst, hsecond, hthins⟩ := hcopies.matches_children hcopies' hquiet
  have hbelow : c.ThinsBelow ids t.root t'.root :=
    ⟨hinfo, hthins ids (List.Subset.refl _), hfirst, hsecond⟩
  have hsource : t.source = t'.source := by rw [ht, ht']
  have hfile : t.file = t'.file := by rw [ht, ht']
  refine ⟨forest', t', hforest', hmake', (Converter.outline_unit hsource hfile hbelow ?_ ?_).symm⟩
  · rw [hids]
    exact List.nodup_range'
  · rw [hids']
    exact List.nodup_range'

/-! ## Calls for declarations -/

theorem NativeReply.size_of_forest {native : NativeTree} {settings : GrowthSettings}
    {source : String} {forest : Forest}
    (h : (NativeReply.tree (some native)).forest settings source = .ok forest) :
    forest.size ≠ 0 := by
  obtain ⟨-, hsize, -⟩ :=
    Scan.grow_spec native Forest.Sound.empty ((Scan.growStack_eq native).symm.trans h)
  cases native
  rw [hsize, NativeTree.kept, List.length_cons]
  exact Nat.succ_ne_zero _

theorem SyntaxTree.declarations_of_make {forest : Forest} {id : NodeId} {source language : String}
    {file : Option String} {t : SyntaxTree} {rules : Rules}
    (hrules : Rules.forLanguage? language = some rules)
    (hmake : SyntaxTree.make forest (some id) (some source) (some language) file = .ok t) :
    t.declarations = .ok (Converter.unit ⟨language, .byRules rules⟩ t) := by
  rw [make] at hmake
  dsimp only at hmake
  split at hmake
  · cases hmake
  · rename_i hlanguage
    split at hmake
    · cases hmake
      rw [declarations, Converter.make]
      dsimp only
      rw [if_neg hlanguage, Option.none_or, hrules]
      rfl
    · cases hmake

namespace Service

/-- The outline of the unit that a call for declarations returns, if it returns one. -/
def outline? : Except Fault Outcome → Option Datum
  | .ok (.declared result) => result.value.map UnitDecl.outline
  | _ => none

/-- The outline that the caller of an ended call for declarations is given, if there is one. -/
def told (s : Service) (task : TaskId) : Option Datum := (s.result? task).bind outline?

/-- The task has asked for the declarations of a source text, and the engine has got done with a
native tree. The call has not been cancelled, so what is left is to make the tree and to declare
it. -/
structure Declaring (s : Service) (task : TaskId) (settings : Settings) (language source : String)
    (file : Option String) (native : NativeTree) : Prop where
  ready : task ∈ s.ready
  replies : s.native = .tree (some native)
  waits : ∃ f p request parser,
    s.tasks[task]? = some (.waiting (.facade f .declarations request (.parse p .engine))
      .worker (some .proceed))
      ∧ request.source = some source ∧ request.file = file ∧ s.isSet request.event = false
      ∧ s.parser? p = some parser ∧ parser.engine = .native settings.growth (.ok ())
      ∧ parser.language = language

theorem release_keeps (s : Service) (id : LockId) :
    (s.release id).tasks.size = s.tasks.size ∧ (s.release id).events = s.events := by
  rw [release, setLockAndWake]
  split
  · rw [wake]
    split
    · exact ⟨Array.size_modify, rfl⟩
    · exact ⟨rfl, rfl⟩
  · exact ⟨rfl, rfl⟩

variable {s : Service} {task : TaskId} {settings : Settings} {language source : String}
  {file : Option String} {native : NativeTree}

/-- The step with which a call for declarations goes on when its engine has got done. It ends the
parse, and the facade goes on with what comes of it. -/
theorem Declaring.step_eq (h : s.Declaring task settings language source file native) :
    ∃ (s₀ : Service) (f : Facade) (p : ParserId) (request : ParseRequest) (parser : Parser),
      task < s₀.tasks.size ∧ s₀.isSet request.event = false ∧ parser.language = language
      ∧ request.source = some source ∧ request.file = file
      ∧ s.step task = settleRun task (fun point => .facade f .declarations request point)
          (finishFacade f .declarations request)
          (let ended := s₀.endEngine p parser request
            ((NativeReply.tree (some native)).forest settings.growth source)
          ended.1.facadeParsed f request p ended.2) := by
  obtain ⟨hready, hreplies, f, p, request, parser, htask, hsource, hfile, hevent,
      hparser, hengine, hlanguage⟩ := h
  refine ⟨({ s with ready := s.ready.erase task } : Service).endWait task .worker .proceed,
    f, p, request, parser,
    (Array.getElem?_eq_some_iff.mp htask).1, hevent, hlanguage, hsource, hfile, ?_⟩
  -- the engine gives the forest of the native tree
  have hresult : (({ s with ready := s.ready.erase task } : Service).endWait task
      .worker .proceed).engineResult
      parser request .proceed = (NativeReply.tree (some native)).forest settings.growth source := by
    show parser.engine.parse s.native (request.source.getD "") request.file = _
    rw [hengine, hreplies, hsource]
    rfl
  have hfound : (({ s with ready := s.ready.erase task } : Service).endWait task
      .worker .proceed).parser? p
      = some parser := hparser
  rw [step_of_waiting hready htask]
  simp only [resume, resumeFacadeParse, resumeParse, hfound, hresult]

theorem outline?_failDeclare (s₀ : Service) (f : Facade) (request : ParseRequest) (fault : Fault) :
    outline? ((s₀.failDeclare f request fault).2.map .declared) = none := by
  rw [failDeclare]
  rcases tellFault_answer s₀ f request "converting syntax tree to definition"
    "Definition conversion failed: " fault with
    ⟨e, heq⟩ | ⟨message, heq⟩
  · rw [heq]
    rfl
  · rw [heq]
    rfl

theorem outline?_finishFacade (s₀ : Service) (f : Facade) (request : ParseRequest)
    (t : SyntaxTree) :
    outline? (finishFacade f .declarations request s₀ (.ok (.ok t))).2
      = t.declarations.toOption.map UnitDecl.outline := by
  show outline? ((s₀.declare f request t).2.map .declared) = _
  rw [declare]
  cases t.declarations with
  | ok unit => rfl
  | error fault => exact outline?_failDeclare ..

/-- No tree is returned. -/
def Treeless (result : Except Fault (ParseResult SyntaxTree)) : Prop :=
  ∀ parsed, result = .ok parsed → parsed.value = none

theorem Treeless.error (fault : Fault) : Treeless (.error fault) := fun _ h => by cases h

theorem Treeless.fail (failure : ParseFailure) : Treeless (.ok (.fail failure)) := fun _ h => by
  cases h
  rfl

theorem Treeless.outline? {result : Except Fault (ParseResult SyntaxTree)} (h : Treeless result)
    (s₀ : Service) (f : Facade) (request : ParseRequest) :
    Service.outline? (finishFacade f .declarations request s₀ result).2 = none := by
  cases result with
  | error fault => rfl
  | ok parsed =>
    show Service.outline? ((s₀.declarationsOf f request parsed).2.map .declared) = none
    rw [declarationsOf, h parsed rfl]
    split
    · rfl
    · exact outline?_failDeclare ..

theorem Treeless.facadeParsed {result : Except Fault (ParseResult SyntaxTree)} (h : Treeless result)
    (s₀ : Service) (f : Facade) (request : ParseRequest) (p : ParserId) :
    ∃ s₁ result', s₀.facadeParsed f request p (.finished result) = (s₁, .finished result')
      ∧ s₁.tasks = s₀.tasks ∧ Treeless result' := by
  cases result with
  | ok parsed => exact ⟨s₀, .ok parsed, rfl, rfl, h⟩
  | error fault =>
    have hquiet := tellFault_quiet (α := SyntaxTree) s₀ f request "parsing source code"
      "Parsing failed: " fault
    have hanswer := tellFault_answer (α := SyntaxTree) s₀ f request "parsing source code"
      "Parsing failed: " fault
    rw [Service.facadeParsed, failFacade]
    generalize s₀.tellFault (α := SyntaxTree) f request "parsing source code" "Parsing failed: "
      fault = told at *
    refine ⟨told.1, told.2, rfl, hquiet.tasks, ?_⟩
    rcases hanswer with ⟨e, heq⟩ | ⟨message, heq⟩
    · rw [heq]
      exact .error e
    · rw [heq]
      exact .fail _

section Engine

variable (s₀ : Service) (p : ParserId) (parser : Parser) {request : ParseRequest} {forest : Forest}

theorem endEngine_tree (hevent : s₀.isSet request.event = false) (hsize : forest.size ≠ 0)
    {t : SyntaxTree}
    (hmake : SyntaxTree.make forest (some 0) request.source (some parser.language) request.file
      = .ok t) :
    ∃ s₁, s₀.endEngine p parser request (.ok forest) = (s₁, .finished (.ok (.ok t)))
      ∧ s₁.tasks.size = s₀.tasks.size := by
  obtain ⟨htasks, hevents⟩ := (s₀.modifyParser p Parser.endParse).release_keeps (.parsing p)
  have hopen : ((s₀.modifyParser p Parser.endParse).release (.parsing p)).isSet request.event
      = false := by
    rw [isSet, hevents]
    exact hevent
  obtain ⟨-, -, hquiet⟩ :=
    finishEngine_quiet ((s₀.modifyParser p Parser.endParse).release (.parsing p))
      parser request forest
  rw [endEngine, finishEngine, if_neg (by rw [hopen]; decide), if_neg hsize]
  rw [finishEngine, if_neg (by rw [hopen]; decide), if_neg hsize] at hquiet
  simp only [hmake] at hquiet ⊢
  exact ⟨_, rfl, (congrArg Array.size hquiet.tasks).trans htasks⟩

/-- The engine has failed, or no tree can be made of its forest. -/
theorem endEngine_treeless {result : Except Fault Forest}
    (hnone : ∀ forest t, result = .ok forest → forest.size ≠ 0 →
      SyntaxTree.make forest (some 0) request.source (some parser.language) request.file ≠ .ok t) :
    ∃ s₁ parsed, s₀.endEngine p parser request result = (s₁, .finished parsed)
      ∧ s₁.tasks.size = s₀.tasks.size ∧ Treeless parsed := by
  obtain ⟨htasks, -⟩ := (s₀.modifyParser p Parser.endParse).release_keeps (.parsing p)
  generalize hfree : (s₀.modifyParser p Parser.endParse).release (.parsing p) = free at htasks
  cases result with
  | error fault =>
    rw [endEngine, hfree]
    obtain ⟨parsed, hends, hquiet⟩ := failEngine_quiet free parser request fault
    refine ⟨_, parsed, Prod.ext rfl hends, (congrArg Array.size hquiet.tasks).trans htasks, ?_⟩
    -- the fault is raised, or that of writing it, or a failed result is given
    rw [failEngine] at hends
    split at hends
    · cases hends
      exact .error fault
    · dsimp only at hends
      split at hends
      · cases hends
        exact .error _
      · cases hends
        exact .fail _
  | ok forest =>
    rw [endEngine, hfree, finishEngine]
    split
    · exact ⟨free, _, rfl, htasks, .error _⟩
    · dsimp only
      split
      · exact ⟨free, _, rfl, htasks, .error _⟩
      · rename_i t hmake
        split at hmake
        · cases hmake
        · exact absurd hmake (hnone forest t rfl ‹_›)

end Engine

theorem Declaring.told_tree (h : s.Declaring task settings language source file native)
    {forest : Forest} {t : SyntaxTree}
    (hforest : (NativeReply.tree (some native)).forest settings.growth source = .ok forest)
    (hmake : SyntaxTree.make forest (some 0) (some source) (some language) file = .ok t) :
    (s.step task).told task = t.declarations.toOption.map UnitDecl.outline := by
  obtain ⟨s₀, f, p, request, parser, hlt, hevent, rfl, hsource, rfl, hstep⟩ := h.step_eq
  rw [← hsource] at hmake
  obtain ⟨s₁, hended, hsize⟩ :=
    endEngine_tree s₀ p parser hevent (NativeReply.size_of_forest hforest) hmake
  have hquiet := finishFacade_quiet s₁ f .declarations request (.ok (.ok t))
  have hlt' : task < (finishFacade f .declarations request s₁ (.ok (.ok t))).1.tasks.size := by
    rwa [hquiet.tasks, hsize]
  -- the facade passes a tree on as it is
  have hpassed : s₁.facadeParsed f request p (.finished (.ok (.ok t)))
      = (s₁, .finished (.ok (.ok t))) := rfl
  rw [told, hstep, hforest, hended]
  dsimp only
  rw [hpassed, result?_settle hlt', Option.bind_some, outline?_finishFacade]

/-- Where there is no tree, the caller is told nothing. -/
theorem Declaring.exists_tree (h : s.Declaring task settings language source file native)
    {d : Datum} (htold : (s.step task).told task = some d) :
    ∃ forest t, (NativeReply.tree (some native)).forest settings.growth source = .ok forest
      ∧ SyntaxTree.make forest (some 0) (some source) (some language) file = .ok t := by
  by_contra hnone
  -- without a tree, neither the engine nor the facade nor the goal comes to one
  obtain ⟨s₀, f, p, request, parser, hlt, -, rfl, hsource, rfl, hstep⟩ := h.step_eq
  have hfails : ∀ forest t, (NativeReply.tree (some native)).forest settings.growth source
      = .ok forest →
      forest.size ≠ 0 →
      SyntaxTree.make forest (some 0) request.source (some parser.language) request.file ≠ .ok t :=
    fun forest t hforest _ hmake => hnone ⟨forest, t, hforest, hsource ▸ hmake⟩
  obtain ⟨s₁, parsed, hended, -, htreeless⟩ := endEngine_treeless s₀ p parser hfails
  obtain ⟨s₂, result, hpassed, -, htreeless⟩ := htreeless.facadeParsed s₁ f request p
  rw [told, hstep, hended] at htold
  dsimp only at htold
  rw [hpassed] at htold
  obtain ⟨outcome, hresult, houtline⟩ := Option.bind_eq_some_iff.mp htold
  obtain ⟨_, hfinished, houtcome, -⟩ := result?_settleRun hresult
  cases hfinished
  rw [← houtcome, htreeless.outline? s₂ f request] at houtline
  cases houtline

theorem Declaring.told_copy (h : s.Declaring task settings language source file native)
    {rules : Rules} (hrules : Rules.forLanguage? language = some rules)
    (hwell : ∀ m ∈ native.preorder, m.WellFormed) :
    ∃ t : SyntaxTree, t.root = native.copy settings.growth source 0
      ∧ (s.step task).told task = some (Converter.unit ⟨language, .byRules rules⟩ t).outline := by
  have hlanguage : language ≠ "" := by
    rintro rfl
    cases hrules
  have hdescribes : ∀ m ∈ native.kept (Scan.ofSource settings.growth source),
      (Scan.ofSource settings.growth source).Describes m := Scan.describes_of_wellFormed hwell
  obtain ⟨forest, t, hforest, hmake⟩ := SyntaxTree.exists_grown hlanguage file hdescribes
  obtain ⟨-, hcopies, hids⟩ := SyntaxTree.of_grown hforest hmake
  refine ⟨t, hcopies.eq_copy hids hwell, ?_⟩
  rw [h.told_tree hforest hmake, SyntaxTree.declarations_of_make hrules hmake]
  rfl

/-- **With tokens or without, callers are told the same.** Let a service keep the tokens of its
native trees and another one leave them out, and let the tokens be leaves whose kinds tell nothing.
Whatever a caller of the first one is told, a caller of the other one is told too; and both are told
something if the native tree is well formed. -/
theorem told_without_tokens (s s' : Service) (task task' : TaskId) (settings : Settings)
    (language source : String) (file : Option String) (native : NativeTree) (rules : Rules)
    (h : s.Declaring task { settings with keepAnonymous := true } language source file native)
    (h' : s'.Declaring task' { settings with keepAnonymous := false } language source file native)
    (hrules : Rules.forLanguage? language = some rules)
    (hquiet : ∀ m ∈ NativeTree.preorderAll native.children, m.info.isToken = true →
      m.Quiet (.byRules rules)) :
    (∀ d, (s.step task).told task = some d → (s'.step task').told task' = some d)
      ∧ ((∀ m ∈ native.preorder, m.WellFormed) → ∃ d, (s.step task).told task = some d) := by
  constructor
  -- what is told comes of a tree, and so there is a tree without tokens as well
  · intro d htold
    obtain ⟨forest, t, hforest, hmake⟩ := h.exists_tree htold
    obtain ⟨forest', t', hforest', hmake', hsame⟩ :=
      SyntaxTree.exists_without_tokens (c := ⟨language, .byRules rules⟩) hquiet hforest hmake
    rw [h.told_tree hforest hmake, SyntaxTree.declarations_of_make hrules hmake] at htold
    rw [h'.told_tree hforest' hmake', SyntaxTree.declarations_of_make hrules hmake', ← htold]
    exact congrArg some hsame
  · intro hwell
    obtain ⟨t, -, htold⟩ := h.told_copy hrules hwell
    exact ⟨_, htold⟩

/-- A service in which a call for the declarations of a text in TypeScript goes on next. -/
def declaring (keep : Bool) (source : String) (native : NativeTree) : Service where
  parsers := #[{
    name := "TypeScriptParser", language := "typescript", stage := .initialized
    grammarLoaded := true, engine := .native { keepAnonymous := keep } (.ok ()) }]
  tasks := #[.waiting
    (.facade ⟨0, "typescript"⟩ .declarations { source := some source } (.parse 0 .engine))
    .worker (some .proceed)]
  ready := [0]
  native := .tree (some native)

theorem declaring_spec (keep : Bool) (source : String) (native : NativeTree) :
    (declaring keep source native).Declaring 0 { keepAnonymous := keep } "typescript" source none
      native :=
  ⟨List.mem_singleton.mpr rfl, rfl, ⟨0, "typescript"⟩, 0, { source := some source }, _, rfl, rfl,
    rfl, rfl, rfl, rfl, rfl⟩

/-- The native tree of `class A {}`, with a keyword and two brackets. -/
def emptyClass : NativeTree :=
  .node { kind := "program", startByte := 0, stopByte := 10, isNamed := true } false [
    .node { kind := "class_declaration", startByte := 0, stopByte := 10, isNamed := true } false [
      .node { kind := "class", startByte := 0, stopByte := 5 } false [],
      .node { kind := "type_identifier", startByte := 6, stopByte := 7, isNamed := true } true [],
      .node { kind := "class_body", startByte := 8, stopByte := 10, isNamed := true } false [
        .node { kind := "\x7b", startByte := 8, stopByte := 9 } false [],
        .node { kind := "\x7d", startByte := 9, stopByte := 10 } false []]]]

/-- The keyword and the brackets are kept by one service only, and both tell the same. -/
theorem told_empty_class :
    ∃ d, ((declaring true "class A \x7b\x7d" emptyClass).step 0).told 0 = some d
      ∧ ((declaring false "class A \x7b\x7d" emptyClass).step 0).told 0 = some d := by
  have hwell : ∀ m ∈ emptyClass.preorder, m.WellFormed := by decide
  have hquiet : ∀ m ∈ NativeTree.preorderAll emptyClass.children, m.info.isToken = true →
      m.Quiet (.byRules .typescript) := by decide
  obtain ⟨hsame, htold⟩ :=
    told_without_tokens _ _ 0 0 {} "typescript" "class A \x7b\x7d" none emptyClass .typescript
    (declaring_spec true _ _) (declaring_spec false _ _) rfl hquiet
  obtain ⟨d, hd⟩ := htold hwell
  exact ⟨d, hd, hsame d hd⟩

/-- The native tree of `module A {}`. The keyword has the kind of the namespace that it begins. -/
def emptyModule : NativeTree :=
  .node { kind := "program", startByte := 0, stopByte := 11, isNamed := true } false [
    .node { kind := "module", startByte := 0, stopByte := 11, isNamed := true } false [
      .node { kind := "module", startByte := 0, stopByte := 6 } false [],
      .node { kind := "identifier", startByte := 7, stopByte := 8, isNamed := true } true [],
      .node { kind := "statement_block", startByte := 9, stopByte := 11, isNamed := true } false [
        .node { kind := "\x7b", startByte := 9, stopByte := 10 } false [],
        .node { kind := "\x7d", startByte := 10, stopByte := 11 } false []]]]

/-- **A keyword is told as a namespace** inside the one that it begins, if tokens are kept. Its kind
is one by which namespaces are told, so it is not quiet although nothing is below it. -/
theorem told_a_keyword :
    (∀ m ∈ NativeTree.preorderAll emptyModule.children, m.info.isToken = true →
      m.children.isEmpty = true)
      ∧ (∀ m ∈ emptyModule.preorder, m.WellFormed)
      ∧ ((declaring true "module A \x7b\x7d" emptyModule).step 0).told 0
        ≠ ((declaring false "module A \x7b\x7d" emptyModule).step 0).told 0 := by
  have hwell : ∀ m ∈ emptyModule.preorder, m.WellFormed := by decide
  obtain ⟨t, hroot, htold⟩ :=
    (declaring_spec true "module A \x7b\x7d" emptyModule).told_copy rfl hwell
  obtain ⟨t', hroot', htold'⟩ :=
    (declaring_spec false "module A \x7b\x7d" emptyModule).told_copy rfl hwell
  refine ⟨by decide, hwell, fun hsame => ?_⟩
  -- the outlines would agree on how many namespaces there are in the module
  rw [htold, htold', Option.some.injEq] at hsame
  have hnested := Converter.nested_of_outline hsame
  rw [hroot, hroot'] at hnested
  exact absurd hnested (by decide +kernel)

end Service

end SyntaxForest
