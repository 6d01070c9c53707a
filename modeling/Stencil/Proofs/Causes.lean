import Mathlib
import Stencil.Proofs.IncludeGraph
import Stencil.Proofs.Rendering

/-!
# Stencil — why a render fails

A render ends with the first error that comes up, however deep inside loops and includes. This
module says where an error can come from, and what a refused include has to do with the graph of
includes. The chain of active includes changes all the time, and siblings that are done have left
it again; still, at every moment it is a path in that graph.

* `Parser.parseText_eq_error` — what parsing fails with; never with a refused include.
* `Session.Barred` — a path of includes of which the last one is not let in.
* `Error.Cause` — where an error of a rendering comes from. `Session.explained_evaluate` finds a
  cause for each of them.
* `Engine.GenuineChain` — what a chain has to do with the render that reports it;
  `Engine.failure_of_renderEntry` says where the error of a whole render comes from.
* `Engine.refused_chains_are_genuine` — the chain of a cycle, and a chain behind every error of
  depth.

A source may fail as it likes, with the error of a cycle as well. Such an answer is the last one of
the render, which fails with it as it stands, genuine or not
(`Engine.answered_refusals_need_not_be_genuine`); it is kept apart from the errors that a session
makes.
-/

namespace Stencil

-- ---------------------------------------------------------------------------
-- What parsing fails with
-- ---------------------------------------------------------------------------

theorem Pass.meaning_of_run_eq_error {meaning : Nat → Token → Except Error Meaning} {e : Error} :
    ∀ {tokens : List Token} {pass : Pass}, run meaning tokens pass = .error e →
      ∃ depth t, meaning depth t = .error e
  | [], pass, hRun => by cases hRun
  | t :: ts, pass, hRun => by
    rw [run] at hRun
    cases hStep : pass.step meaning t ts with
    | ok next =>
      rw [hStep] at hRun
      exact meaning_of_run_eq_error hRun
    | error e' =>
      rw [hStep] at hRun
      cases hRun
      unfold step at hStep
      split at hStep
      · cases hStep
      · split at hStep
        · next hMeaning =>
          cases hStep
          exact ⟨_, _, hMeaning⟩
        · cases hStep
        · cases hStep

namespace Parser

/-- A template that does not parse has a bad name in it, or bad grammar. -/
theorem parseText_eq_error {p : Parser} {template : String} {e : Error}
    (hParse : p.parseText template = .error e) :
    (∃ reason, e = .validation reason) ∨ ∃ position fault, e = .grammar position fault := by
  rw [parseText, parse_eq_run] at hParse
  obtain ⟨depth, t, hMeaning⟩ := Pass.meaning_of_run_eq_error hParse
  obtain ⟨content, raw, position, -, hReason | ⟨fault, hFault⟩⟩ := meaning_eq_error hMeaning
  · exact .inl hReason
  · exact .inr ⟨position, fault, hFault⟩

end Parser

-- ---------------------------------------------------------------------------
-- Includes that are not let in
-- ---------------------------------------------------------------------------

namespace Session

/-- Includes in `names` led along `path`, from a session like `s`: all were let in and asked for
but the last. -/
structure Barred (s : Session) (r : Renderer) (names : List String) (requests : List Request)
    (path : List String) : Prop where
  leads    : r.IncludePath names path
  asked    : ∀ name ∈ path.dropLast, ∃ request ∈ requests,
    request.name = name ∧ request.chain.getLast? = some name
  distinct : s.chain.Nodup → (s.chain ++ path.dropLast).Nodup
  bounded  : s.chain.length ≤ s.limits.maxIncludeDepth →
    s.chain.length + path.length ≤ s.limits.maxIncludeDepth + 1

end Session

/-- Where an error comes from that ended a rendering of trees with the includes `names`, in a
session like `s`, after some questions to the source. -/
inductive Error.Cause (r : Renderer) (names : List String) (s : Session)
    (requests : List Request) : Error → Prop
  | answered {e : Error} {request : Request} (hLast : requests.getLast? = some request)
      (hSource : r.source request.name = .error e) : Cause r names s requests e
  | malformed {e : Error} {request : Request} {template : String}
      (hLast : requests.getLast? = some request) (hSource : r.source request.name = .ok template)
      (hParse : r.parser.parseText template = .error e) : Cause r names s requests e
  | budget : Cause r names s requests (.loopLimit s.limits.maxLoopEvaluations)
  | cycle {path : List String} {name : String} (hBarred : s.Barred r names requests path)
      (hLast : path.getLast? = some name) (hActive : name ∈ s.chain ++ path.dropLast) :
      Cause r names s requests (.circularInclude (s.chain ++ path))
  | depth {path : List String} (hBarred : s.Barred r names requests path)
      (hDistinct : s.chain.Nodup → (s.chain ++ path).Nodup)
      (hFull : s.limits.maxIncludeDepth < s.chain.length + path.length) :
      Cause r names s requests (.depthExceeded s.limits.maxIncludeDepth)

section

variable {r : Renderer} {names names' : List String} {s s' entered : Session}
  {requests requests' : List Request} {path : List String} {e : Error}

theorem Session.Barred.mono (h : s.Barred r names requests path) (hNames : names ⊆ names')
    (hRequests : requests ⊆ requests') : s.Barred r names' requests' path := by
  refine ⟨h.leads.mono hNames, fun name hName => ?_, h.distinct, h.bounded⟩
  obtain ⟨request, hAsked, hSame⟩ := h.asked name hName
  exact ⟨request, hRequests hAsked, hSame⟩

theorem Session.Barred.of_kept (hKept : s.Kept s') (h : s'.Barred r names requests path) :
    s.Barred r names requests path := by
  obtain ⟨hPath, hAsked, hDistinct, hBounded⟩ := h
  rw [hKept.chain] at hDistinct hBounded
  rw [hKept.limits] at hBounded
  exact ⟨hPath, hAsked, hDistinct, hBounded⟩

/-- An include that is not let in is a path by itself. -/
theorem Session.barred_here (s : Session) (r : Renderer) (name : String) (requests : List Request) :
    s.Barred r [name] requests [name] := by
  refine ⟨.last (List.mem_singleton_self name), ?_, ?_, ?_⟩
  · intro inner hMem
    cases hMem
  · intro hDistinct
    simpa using hDistinct
  · intro hBounded
    rw [List.length_singleton]
    omega

/-- A path inside a template is one through its include. -/
theorem Session.Barred.inside {name template : String} {nodes : List Node}
    (hEnter : s.enterInclude name = .ok entered) (hSource : r.source name = .ok template)
    (hParse : r.parser.parseText template = .ok nodes)
    (h : entered.Barred r (includeNames nodes) requests path) :
    s.Barred r [name] ({ name, chain := entered.chain } :: requests) (name :: path) := by
  have hEntered := nodup_enterInclude hEnter
  obtain ⟨-, hRoom, rfl⟩ := enterInclude_eq_ok_iff.mp hEnter
  obtain ⟨hPath, hAsked, hDistinct, hBounded⟩ := h
  have hDrop : (name :: path).dropLast = name :: path.dropLast :=
    List.dropLast_cons_of_ne_nil hPath.ne_nil
  refine ⟨.step (List.mem_singleton_self name) hSource hParse hPath, ?_, ?_, ?_⟩
  · intro inner hMem
    rw [hDrop] at hMem
    rcases List.mem_cons.mp hMem with rfl | hMem
    · exact ⟨_, List.mem_cons_self, rfl, List.getLast?_concat⟩
    · obtain ⟨request, hRequest, hSame⟩ := hAsked inner hMem
      exact ⟨request, List.mem_cons_of_mem _ hRequest, hSame⟩
  · intro hAround
    have hInside := hDistinct (hEntered hAround)
    rw [hDrop]
    simpa using hInside
  · intro hAround
    unfold room at hRoom
    simp only [List.length_append, List.length_cons, List.length_nil] at hBounded ⊢
    have hInside := hBounded (by omega)
    omega

theorem getLast?_of_suffix {α : Type} {as bs : List α} {a : α} (hLast : as.getLast? = some a)
    (hSuffix : as <:+ bs) : bs.getLast? = some a := by
  obtain ⟨before, rfl⟩ := hSuffix
  exact List.mem_getLast?_append_of_mem_getLast? hLast

namespace Error.Cause

theorem mono (h : Cause r names s requests e) (hNames : names ⊆ names')
    (hRequests : requests <:+ requests') : Cause r names' s requests' e := by
  cases h with
  | answered hLast hSource => exact .answered (getLast?_of_suffix hLast hRequests) hSource
  | malformed hLast hSource hParse =>
    exact .malformed (getLast?_of_suffix hLast hRequests) hSource hParse
  | budget => exact .budget
  | cycle hBarred hLast hActive =>
    exact .cycle (hBarred.mono hNames hRequests.subset) hLast hActive
  | depth hBarred hDistinct hFull =>
    exact .depth (hBarred.mono hNames hRequests.subset) hDistinct hFull

theorem of_kept (hKept : s.Kept s') (h : Cause r names s' requests e) :
    Cause r names s requests e := by
  cases h with
  | answered hLast hSource => exact .answered hLast hSource
  | malformed hLast hSource hParse => exact .malformed hLast hSource hParse
  | budget =>
    rw [hKept.limits]
    exact .budget
  | cycle hBarred hLast hActive =>
    rw [hKept.chain] at hActive ⊢
    exact .cycle (hBarred.of_kept hKept) hLast hActive
  | depth hBarred hDistinct hFull =>
    rw [hKept.limits] at hFull ⊢
    rw [hKept.chain] at hDistinct hFull
    exact .depth (hBarred.of_kept hKept) hDistinct hFull

theorem of_enterInclude {name : String} (hEnter : s.enterInclude name = .error e) :
    Cause r [name] s requests e := by
  have hBarred := s.barred_here r name requests
  rcases Session.enterInclude_eq_error_iff.mp hEnter with ⟨hActive, rfl⟩ | ⟨hNew, hFull, rfl⟩
  · refine .cycle hBarred (List.getLast?_singleton) ?_
    simpa using hActive
  · refine .depth hBarred (fun hDistinct => ?_) ?_
    · have hConcat := hDistinct.concat hNew
      rwa [List.concat_eq_append] at hConcat
    · unfold Session.room at hFull
      rw [List.length_singleton]
      omega

/-- The cause of an error inside a template, seen from its include. -/
theorem inside {name template : String} {nodes : List Node}
    (hEnter : s.enterInclude name = .ok entered) (hSource : r.source name = .ok template)
    (hParse : r.parser.parseText template = .ok nodes)
    (h : Cause r (includeNames nodes) entered requests e) :
    Cause r [name] s ({ name, chain := entered.chain } :: requests) e := by
  have hDistinct := Session.nodup_enterInclude hEnter
  have hEntered := (Session.enterInclude_eq_ok_iff.mp hEnter).2.2
  -- the name is at the end of one chain, and at the start of the other path
  have hMove : ∀ path, entered.chain ++ path = s.chain ++ name :: path := by
    intro path
    simp [hEntered]
  have hLimits : entered.limits = s.limits := by rw [hEntered]
  have hAfter : ∀ {requests : List Request} {request last : Request},
      requests.getLast? = some last → (request :: requests).getLast? = some last :=
    fun hLast => getLast?_of_suffix hLast (List.suffix_cons _ _)
  cases h with
  | answered hLast hSource' => exact .answered (hAfter hLast) hSource'
  | malformed hLast hSource' hParse' => exact .malformed (hAfter hLast) hSource' hParse'
  | budget =>
    rw [hLimits]
    exact .budget
  | @cycle path inner hBarred hLast hActive =>
    have hLast' : (name :: path).getLast? = some inner := by
      rw [List.getLast?_cons, hLast]
      rfl
    rw [hMove] at hActive ⊢
    rw [← List.dropLast_cons_of_ne_nil hBarred.leads.ne_nil] at hActive
    exact .cycle (hBarred.inside hEnter hSource hParse) hLast' hActive
  | depth hBarred hNew hFull =>
    have hLength := congrArg List.length (hMove [])
    rw [hMove] at hNew
    rw [hLimits] at hFull ⊢
    refine .depth (hBarred.inside hEnter hSource hParse) (fun h => hNew (hDistinct h)) ?_
    simp only [List.length_append, List.length_cons, List.length_nil] at hLength ⊢
    omega

end Error.Cause

end

-- ---------------------------------------------------------------------------
-- Every error has a cause
-- ---------------------------------------------------------------------------

namespace Outcome

def Explained (o : Outcome) (r : Renderer) (names : List String) (s : Session) : Prop :=
  ∀ e, o.result = .error e → Error.Cause r names s o.requests e

variable {r : Renderer} {names names' : List String} {s : Session} {o : Outcome}

theorem explained_done (text : String) : (done text s).Explained r names s := by
  intro e hFail
  cases hFail

theorem Explained.mono (h : o.Explained r names s) (hNames : names ⊆ names') :
    o.Explained r names' s :=
  fun e hFail => (h e hFail).mono hNames (List.suffix_refl _)

theorem Explained.andThen {next : Session → Outcome} (hFirst : o.Explained r names s)
    (hKept : s.Kept o.session) (hNext : (next o.session).Explained r names o.session) :
    (o.andThen next).Explained r names s := by
  intro e hFail
  cases hResult : o.result with
  | error e' =>
    rw [andThen_of_error hResult] at hFail ⊢
    exact hFirst e hFail
  | ok text =>
    rw [andThen_of_ok hResult] at hFail ⊢
    cases hRest : (next o.session).result with
    | ok text' =>
      rw [hRest] at hFail
      cases hFail
    | error e' =>
      rw [hRest] at hFail
      cases hFail
      exact ((hNext e hRest).of_kept hKept).mono (List.Subset.refl _) (List.suffix_append _ _)

/-- Steps in a row are explained if each of them is, in every session that the ones before it may
leave. -/
theorem explained_sequence {α : Type} {step : α → Session → Outcome}
    (hKept : ∀ a (s' : Session), s'.Kept (step a s').session)
    (hStep : ∀ a s', s.Kept s' → (step a s').Explained r names s') (as : List α) :
    ∀ s', s.Kept s' → (sequence (as.map step) s').Explained r names s' := by
  induction as with
  | nil => exact fun s' _ => explained_done ""
  | cons a as ih =>
    intro s' hReached
    have hAfter := hKept a s'
    exact (hStep a s' hReached).andThen hAfter (ih _ (hReached.trans hAfter))

end Outcome

namespace Session

variable {r : Renderer}

theorem explained_include {s : Session} {c : Context} {name : String}
    (hInside : ∀ entered template inner, s.enterInclude name = .ok entered →
      r.source name = .ok template → r.parser.parseText template = .ok inner →
      (entered.evaluate r inner c).Explained r (includeNames inner) entered) :
    (r.renderInclude s.room name c s).Explained r [name] s := by
  intro e hFail
  have hStep := s.includeStep r c name
  generalize r.renderInclude s.room name c s = o at hStep hFail ⊢
  cases hStep with
  | refused hEnter =>
    cases hFail
    exact .of_enterInclude hEnter
  | missing hEnter hSource =>
    cases hFail
    exact .answered rfl hSource
  | malformed hEnter hSource hParse =>
    cases hFail
    exact .malformed rfl hSource hParse
  | rendered hEnter hSource hParse =>
    exact (hInside _ _ _ hEnter hSource hParse e hFail).inside hEnter hSource hParse

theorem explained_loop {s : Session} {c : Context} (item collection : String) {body : List Node}
    (position : Position)
    (hBody : ∀ v s', s.Kept s' →
      (s'.evaluate r body (c.forItem item v)).Explained r (includeNames body) s') :
    (r.renderNode (r.renderInclude s.room) (.loop item collection body position) c s).Explained r
      (includeNames body) s := by
  intro e hFail
  rw [s.evaluate_loop] at hFail ⊢
  cases hRecord : s.recordLoop with
  | error e' =>
    rw [hRecord] at hFail
    cases hFail
    obtain ⟨-, rfl⟩ := recordLoop_eq_error_iff.mp hRecord
    exact .budget
  | ok charged =>
    have hCharged := kept_recordLoop hRecord
    simp only [hRecord] at hFail ⊢
    cases hItems : (c.lookup? collection).bind Value.items? with
    | none =>
      simp only [hItems] at hFail
      cases hFail
    | some items =>
      simp only [hItems] at hFail ⊢
      have hAll := Outcome.explained_sequence (s := charged)
        (fun v s' => s'.kept_evaluate r body (c.forItem item v))
        (fun v s' hKept => hBody v s' (hCharged.trans hKept)) items charged (Kept.refl charged)
      exact (hAll e hFail).of_kept hCharged

/-- **Every error of a rendering has a cause.** -/
theorem explained_evaluate (r : Renderer) (nodes : List Node) (c : Context) (s : Session) :
    (s.evaluate r nodes c).Explained r (includeNames nodes) s := by
  refine evaluate_induction r
    (P := fun nodes c s => (s.evaluate r nodes c).Explained r (includeNames nodes) s)
    ?nil ?text ?placeholder ?inclusion ?loop nodes c s
  case nil =>
    intro c s
    exact Outcome.explained_done ""
  case text =>
    intro content position nodes c s ih
    rw [evaluate_cons]
    exact (Outcome.explained_done content).andThen (Kept.refl s) ih
  case placeholder =>
    intro path position nodes c s ih
    rw [evaluate_cons]
    exact (Outcome.explained_done (placeholderText c path)).andThen (Kept.refl s) ih
  case inclusion =>
    intro name position nodes c s hInside ih
    rw [evaluate_cons]
    have hKept := r.keeps_renderInclude s.room name c s
    have hFirst := (explained_include hInside).mono
      (List.subset_append_left [name] (includeNames nodes))
    exact hFirst.andThen hKept
      ((ih _ hKept).mono (List.subset_append_right [name] (includeNames nodes)))
  case loop =>
    intro item collection body position nodes c s hBody ih
    rw [evaluate_cons]
    have hKept := r.kept_renderNode (r.keeps_renderInclude s.room)
      (.loop item collection body position) c s
    have hFirst := (explained_loop item collection position hBody).mono
      (List.subset_append_left (includeNames body) (includeNames nodes))
    exact hFirst.andThen hKept
      ((ih _ hKept).mono (List.subset_append_right (includeNames body) (includeNames nodes)))

end Session

-- ---------------------------------------------------------------------------
-- Whole renders
-- ---------------------------------------------------------------------------

namespace Engine

/-- The source itself has answered the last question with the error. -/
def SourceAnswered (engine : Engine) (requests : List Request) (e : Error) : Prop :=
  ∃ request, requests.getLast? = some request ∧ engine.source request.name = .error e

/-- What leads to a refused include: from the text of the entry, each name stands in an include of
the template before it. All but the last were let in, and were asked for. -/
structure GenuineChain (engine : Engine) (entry : Entry) (requests : List Request)
    (chain : List String) : Prop where
  path : ∃ template nodes, entry.template engine.source = .ok template ∧
    engine.parser.parseText template = .ok nodes ∧
    engine.renderer.IncludePath (includeNames nodes) chain ∧
    -- so the entry itself is on the chain only if some include names it
    ∀ name ∈ chain, name ∈ includeNames nodes ∨
      ∃ outer ∈ chain.dropLast, name ∈ engine.renderer.includesOf outer
  /-- By includes: the question for the entry itself has no include around it. -/
  asked : ∀ name ∈ chain.dropLast, ∃ request ∈ requests,
    request.name = name ∧ request.chain.getLast? = some name
  distinct : chain.dropLast.Nodup

/-- Where the error of a whole render comes from. -/
inductive Failure (engine : Engine) (entry : Entry) (requests : List Request) : Error → Prop
  | invalid (reason : Refusal) : Failure engine entry requests (.validation reason)
  | grammar (position : Position) (fault : GrammarFault) :
      Failure engine entry requests (.grammar position fault)
  | answered {e : Error} (hAnswered : engine.SourceAnswered requests e) :
      Failure engine entry requests e
  | budget : Failure engine entry requests (.loopLimit engine.limits.maxLoopEvaluations)
  | cycle {chain : List String} {name : String}
      (hGenuine : engine.GenuineChain entry requests chain)
      (hBound : chain.length ≤ engine.limits.maxIncludeDepth + 1)
      (hAgain : name ∈ chain.dropLast) (hLast : chain.getLast? = some name) :
      Failure engine entry requests (.circularInclude chain)
  | depth {chain : List String} (hGenuine : engine.GenuineChain entry requests chain)
      (hLength : chain.length = engine.limits.maxIncludeDepth + 1) (hDistinct : chain.Nodup) :
      Failure engine entry requests (.depthExceeded engine.limits.maxIncludeDepth)

variable {engine : Engine} {entry : Entry} {requests : List Request} {c : Context} {e : Error}
  {template : String} {nodes : List Node}

theorem Failure.of_parse (hParse : engine.parser.parseText template = .error e) :
    engine.Failure entry requests e := by
  rcases Parser.parseText_eq_error hParse with ⟨reason, rfl⟩ | ⟨position, fault, rfl⟩
  · exact .invalid reason
  · exact .grammar position fault

/-- A path from the entry whose last include was not let in is a genuine chain. -/
theorem genuineChain_of_barred {path : List String}
    (hEntry : entry.template engine.source = .ok template)
    (hParse : engine.parser.parseText template = .ok nodes)
    (hBarred : (Session.start engine.limits).Barred engine.renderer (includeNames nodes) requests
      path) :
    engine.GenuineChain entry requests path ∧ path.length ≤ engine.limits.maxIncludeDepth + 1 := by
  obtain ⟨hPath, hAsked, hDistinct, hBounded⟩ := hBarred
  constructor
  · exact ⟨⟨template, nodes, hEntry, hParse, hPath, hPath.mem_includes⟩, hAsked,
      hDistinct List.nodup_nil⟩
  · have hBound := hBounded (Nat.zero_le _)
    -- a session that starts has no active includes
    change 0 + path.length ≤ engine.limits.maxIncludeDepth + 1 at hBound
    omega

theorem Failure.of_cause (hEntry : entry.template engine.source = .ok template)
    (hParse : engine.parser.parseText template = .ok nodes)
    (hCause : Error.Cause engine.renderer (includeNames nodes) (.start engine.limits) requests e) :
    engine.Failure entry requests e := by
  cases hCause with
  | answered hLast hSource => exact .answered ⟨_, hLast, hSource⟩
  | malformed hLast hSource hInner => exact .of_parse hInner
  | budget => exact .budget
  | cycle hBarred hLast hActive =>
    obtain ⟨hGenuine, hBound⟩ := genuineChain_of_barred hEntry hParse hBarred
    exact .cycle hGenuine hBound hActive hLast
  | @depth path hBarred hDistinct hFull =>
    obtain ⟨hGenuine, hBound⟩ := genuineChain_of_barred hEntry hParse hBarred
    change engine.limits.maxIncludeDepth < 0 + path.length at hFull
    exact .depth hGenuine (by omega) (hDistinct List.nodup_nil)

theorem failure_of_renderText (hEntry : entry.template engine.source = .ok template)
    (hFail : (engine.renderText template c).result = .error e)
    (hRequests : (engine.renderText template c).requests <:+ requests) :
    engine.Failure entry requests e := by
  cases hParse : engine.parser.parseText template with
  | error e' =>
    rw [renderText_of_malformed hParse] at hFail
    cases hFail
    exact .of_parse hParse
  | ok nodes =>
    rw [renderText_of_parse hParse] at hFail hRequests
    have hCause := Session.explained_evaluate _ nodes c _ e hFail
    exact .of_cause hEntry hParse (hCause.mono (List.Subset.refl _) hRequests)

theorem failure_of_renderEntry (hFail : (engine.renderEntry entry c).result = .error e) :
    engine.Failure entry (engine.renderEntry entry c).requests e := by
  cases entry with
  | text template => exact failure_of_renderText rfl hFail (List.suffix_refl _)
  | named name =>
    rw [renderEntry_named] at hFail ⊢
    cases hCheck : TemplateName.check name with
    | error e' =>
      rw [render_of_refused hCheck] at hFail
      obtain ⟨reason, rfl⟩ := TemplateName.check_eq_error hCheck
      cases hFail
      exact .invalid reason
    | ok _ =>
      cases hSource : engine.source name with
      | error e' =>
        rw [render_of_missing hCheck hSource] at hFail ⊢
        cases hFail
        exact .answered ⟨_, rfl, hSource⟩
      | ok template =>
        -- the question for the entry itself comes on top
        rw [render_of_source hCheck hSource] at hFail ⊢
        exact failure_of_renderText hSource hFail (List.suffix_cons _ _)

/--
**Refused chains are genuine.** Take any engine, whatever its source answers and whatever constructs
it knows, any entry and any context. When a render fails with a cycle, and not because the source
has answered its last question with just this error, the chain reported leads from the text of the
entry from include to include; its names but the last are different and were asked for, its last
name is one of them, and it has at least two names and at most one more than includes may be active.
When a render fails for depth, and again not because of such an answer, the limit is the engine's,
and there is such a chain with one name more than allowed and no name twice. The name of the entry
is on a chain only if it was included.
-/
theorem refused_chains_are_genuine (engine : Engine) (entry : Entry) (c : Context) :
    let o := engine.renderEntry entry c
    (∀ chain, o.result = .error (.circularInclude chain) →
      engine.SourceAnswered o.requests (.circularInclude chain) ∨
      (engine.GenuineChain entry o.requests chain ∧
        2 ≤ chain.length ∧ chain.length ≤ engine.limits.maxIncludeDepth + 1 ∧
        ∃ name ∈ chain.dropLast, chain.getLast? = some name)) ∧
    (∀ max, o.result = .error (.depthExceeded max) →
      engine.SourceAnswered o.requests (.depthExceeded max) ∨
      (max = engine.limits.maxIncludeDepth ∧
        ∃ chain, engine.GenuineChain entry o.requests chain ∧
          chain.length = max + 1 ∧ chain.Nodup)) := by
  intro o
  constructor
  · -- the name that ends the chain is on it once before, so it is not the only one
    intro chain hFail
    cases failure_of_renderEntry hFail with
    | answered hAnswered => exact .inl hAnswered
    | cycle hGenuine hBound hAgain hLast =>
      have hBefore := List.length_pos_of_mem hAgain
      rw [List.length_dropLast] at hBefore
      exact .inr ⟨hGenuine, by omega, hBound, _, hAgain, hLast⟩
  · intro max hFail
    cases failure_of_renderEntry hFail with
    | answered hAnswered => exact .inl hAnswered
    | depth hGenuine hLength hDistinct => exact .inr ⟨rfl, _, hGenuine, hLength, hDistinct⟩

set_option maxRecDepth 4000 in
/-- The theorem at two templates that include each other, of which one is the entry. -/
theorem refused_chains_are_genuine_around_entry :
    let source : TemplateSource := fun name =>
      .ok (if name = "a" then "\x7b\x7binclude:b\x7d\x7d" else "\x7b\x7binclude:a\x7d\x7d")
    let wide : Engine := .ofSource source
    let narrow : Engine := { source, limits := { maxIncludeDepth := 1 } }
    let entry : Entry := .named "a"
    ((wide.renderEntry entry .empty).result = .error (.circularInclude ["b", "a", "b"]) ∧
      wide.GenuineChain entry (wide.renderEntry entry .empty).requests ["b", "a", "b"]) ∧
    ((narrow.renderEntry entry .empty).result = .error (.depthExceeded 1) ∧
      ∃ chain, narrow.GenuineChain entry (narrow.renderEntry entry .empty).requests chain ∧
        chain.length = 2 ∧ chain.Nodup) := by
  intro source wide narrow entry
  have hNoAnswer : ∀ (engine : Engine) requests e, engine.source = source →
      ¬ engine.SourceAnswered requests e := by
    rintro engine requests e hSource ⟨request, -, hAnswer⟩
    rw [hSource] at hAnswer
    cases hAnswer
  have hToB : ({} : Parser).parseText "\x7b\x7binclude:b\x7d\x7d" =
      .ok [.inclusion "b" ⟨1, 1⟩] := by
    have hScan : Token.scan "\x7b\x7binclude:b\x7d\x7d" =
        [.tag "include:b" "\x7b\x7binclude:b\x7d\x7d" ⟨1, 1⟩] := by cbv
    rw [Parser.parseText, hScan, Parser.parse_eq_run]
    rfl
  have hToA : ({} : Parser).parseText "\x7b\x7binclude:a\x7d\x7d" =
      .ok [.inclusion "a" ⟨1, 1⟩] := by
    have hScan : Token.scan "\x7b\x7binclude:a\x7d\x7d" =
        [.tag "include:a" "\x7b\x7binclude:a\x7d\x7d" ⟨1, 1⟩] := by cbv
    rw [Parser.parseText, hScan, Parser.parse_eq_run]
    rfl
  have hA : source "a" = .ok "\x7b\x7binclude:b\x7d\x7d" := rfl
  have hB : source "b" = .ok "\x7b\x7binclude:a\x7d\x7d" := rfl
  have hWide : (wide.renderEntry entry .empty).result =
      .error (.circularInclude ["b", "a", "b"]) := by
    have hFirst : (Session.start {}).enterInclude "b" = .ok ⟨{}, ["b"], 0⟩ := rfl
    have hSecond : (⟨{}, ["b"], 0⟩ : Session).enterInclude "a" = .ok ⟨{}, ["b", "a"], 0⟩ := rfl
    show (wide.renderer.renderText {} "\x7b\x7binclude:b\x7d\x7d" .empty).result = _
    rw [Renderer.renderText_of_ok hToB]
    show (wide.renderer.renderNodes (wide.renderer.renderInclude 10) _ .empty
      (.start {})).result = _
    rw [Renderer.renderNodes, Renderer.renderNode,
      wide.renderer.renderInclude_of_parsed hFirst hB hToA, Renderer.renderNodes,
      Renderer.renderNode, wide.renderer.renderInclude_of_parsed hSecond hA hToB]
    rfl
  have hNarrow : (narrow.renderEntry entry .empty).result = .error (.depthExceeded 1) := by
    have hFirst : (Session.start narrow.limits).enterInclude "b" =
      .ok ⟨narrow.limits, ["b"], 0⟩ := rfl
    show (narrow.renderer.renderText narrow.limits "\x7b\x7binclude:b\x7d\x7d" .empty).result = _
    rw [Renderer.renderText_of_ok hToB]
    show (narrow.renderer.renderNodes (narrow.renderer.renderInclude 1) _ .empty
      (.start _)).result = _
    rw [Renderer.renderNodes, Renderer.renderNode,
      narrow.renderer.renderInclude_of_parsed hFirst hB hToA]
    rfl
  obtain ⟨hCycle, -⟩ := wide.refused_chains_are_genuine entry .empty
  obtain ⟨-, hDepth⟩ := narrow.refused_chains_are_genuine entry .empty
  refine ⟨⟨hWide, ?_⟩, hNarrow, ?_⟩
  · rcases hCycle _ hWide with hAnswer | ⟨hGenuine, -⟩
    · exact absurd hAnswer (hNoAnswer wide _ _ rfl)
    · exact hGenuine
  · rcases hDepth _ hNarrow with hAnswer | ⟨-, hGenuine⟩
    · exact absurd hAnswer (hNoAnswer narrow _ _ rfl)
    · exact hGenuine

set_option maxRecDepth 4000 in
/-- A source that answers with a refusal of its own is passed on as it is, be it asked for the entry
or for an include: with a cycle that has no chain, and for a depth that is not that of the engine. -/
theorem answered_refusals_need_not_be_genuine :
    let cyclic : Engine := .ofSource fun _ => .error (.circularInclude [])
    let deep : Engine := .ofSource fun _ => .error (.depthExceeded 999)
    let named : Entry := .named "a"
    let including : Entry := .text "\x7b\x7binclude:a\x7d\x7d"
    ((cyclic.renderEntry named .empty).result = .error (.circularInclude []) ∧
      ¬ cyclic.GenuineChain named (cyclic.renderEntry named .empty).requests []) ∧
    ((cyclic.renderEntry including .empty).result = .error (.circularInclude []) ∧
      ¬ cyclic.GenuineChain including (cyclic.renderEntry including .empty).requests []) ∧
    (deep.renderEntry named .empty).result = .error (.depthExceeded 999) ∧
    (deep.renderEntry including .empty).result = .error (.depthExceeded 999) ∧
    deep.limits.maxIncludeDepth = 10 := by
  intro cyclic deep named including
  -- a chain leads through one include at least
  have hNoChain : ∀ (entry : Entry) requests, ¬ cyclic.GenuineChain entry requests [] := by
    intro entry requests hGenuine
    obtain ⟨template, nodes, -, -, hPath, -⟩ := hGenuine.path
    exact hPath.ne_nil rfl
  refine ⟨⟨?_, hNoChain named _⟩, ⟨?_, hNoChain including _⟩, ?_, ?_, rfl⟩
  · unfold named cyclic
    cbv
  · unfold including cyclic
    cbv
  · unfold named deep
    cbv
  · unfold including deep
    cbv

end Engine

end Stencil
