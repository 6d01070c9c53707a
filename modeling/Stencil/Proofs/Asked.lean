import Mathlib
import Stencil.Proofs.Names
import Stencil.Proofs.Stream
import Stencil.Proofs.Thresholds

/-!
# Stencil — what a render asks for

A render puts questions to its source: one for its entry, if the entry is a name, and one for each
include that is let in. Templates come from that source too, so nothing is known about them; what is
asked for is safe because of what is checked on the way.

* `includeNames` — the names that the includes of some trees ask for, at any loop nesting;
  `admissible_of_parse` says what they are like in a tree that was parsed.
* `Renderer.IncludePath` — names that lead from one template to the next: each stands in an include
  of the template before it, which the source has and which parses.
* `Request.Accounted` — a question put by an include: its chain is that of the session and a path,
  it ends with the name asked for, and it has no name twice and no more names than allowed.
* `accounted_renderNodes`, `accounted_renderInclude` — all questions of a rendering are accounted
  for, whatever came of it.
* `Engine.asks_only_what_is_admissible` — the same for a whole render, with the entry in front.
-/

namespace Stencil

/-! ## Names in trees -/

mutual

def Node.includeNames : Node → List String
  | .text .. => []
  | .placeholder .. => []
  | .inclusion name _ => [name]
  | .loop _ _ body _ => includeNames body
termination_by structural node => node

/-- The names that the includes in some trees ask for, in order, those in loops included. -/
def includeNames : List Node → List String
  | [] => []
  | node :: nodes => node.includeNames ++ includeNames nodes
termination_by structural nodes => nodes

end

/-- Every name in a tree that was parsed has been checked and trimmed. -/
theorem Parser.admissible_of_parse {p : Parser} {tokens : List Token} {nodes : List Node}
    (hParse : p.parse tokens = .ok nodes) :
    ∀ name ∈ includeNames nodes, TemplateName.Admissible name ∧ TemplateName.Trimmed name := by
  refine forest_of_parse (P := fun _ nodes => ∀ name ∈ includeNames nodes,
    TemplateName.Admissible name ∧ TemplateName.Trimmed name) ?nil ?text ?node ?loop hParse
  case nil =>
    intro depth name hName
    cases hName
  case text =>
    intro depth content position nodes ih
    exact ih
  case node =>
    intro depth t node nodes hMeaning ih name hName
    rcases List.mem_append.mp hName with hHere | hRest
    · rcases meaning_node_cases hMeaning with
        ⟨_, rfl⟩ | ⟨_, rfl⟩ | ⟨content, target, hTarget, rfl⟩
      · cases hHere
      · cases hHere
      · obtain rfl : name = target := List.mem_singleton.mp hHere
        exact admissible_of_includeTarget hTarget
    · exact ih name hRest
  case loop =>
    intro depth t header body nodes hMeaning hBody ih name hName
    rcases List.mem_append.mp hName with hHere | hRest
    · exact hBody name hHere
    · exact ih name hRest

/-! ## Paths of includes -/

namespace Renderer

/-- Names that lead from the includes in `names` on: the first is one of them, and every other
stands in an include of the template that the source has for the one before it. -/
inductive IncludePath (r : Renderer) : (names path : List String) → Prop
  | last {names : List String} {name : String} (hName : name ∈ names) :
      r.IncludePath names [name]
  | step {names : List String} {name template : String} {nodes : List Node} {path : List String}
      (hName : name ∈ names) (hSource : r.source name = .ok template)
      (hParse : r.parser.parseText template = .ok nodes)
      (hPath : r.IncludePath (includeNames nodes) path) : r.IncludePath names (name :: path)

namespace IncludePath

variable {r : Renderer} {names names' path : List String}

theorem mono (hPath : r.IncludePath names path) (hNames : names ⊆ names') :
    r.IncludePath names' path := by
  cases hPath with
  | last hName => exact .last (hNames hName)
  | step hName hSource hParse hRest => exact .step (hNames hName) hSource hParse hRest

/-- What is known of the names at the start is known of all names on the path, since templates on
the way have been parsed. -/
theorem admissible {p : Parser} {source : TemplateSource}
    (hPath : (p.over source).IncludePath names path)
    (hNames : ∀ name ∈ names, TemplateName.Admissible name ∧ TemplateName.Trimmed name) :
    ∀ name ∈ path, TemplateName.Admissible name ∧ TemplateName.Trimmed name := by
  induction hPath with
  | last hName =>
    intro name hMem
    obtain rfl := List.mem_singleton.mp hMem
    exact hNames _ hName
  | step hName hSource hParse hRest ih =>
    intro name hMem
    rcases List.mem_cons.mp hMem with rfl | hMem
    · exact hNames _ hName
    · exact ih (Parser.admissible_of_parse (p := p) hParse) name hMem

/-- All templates on the path but the last are there, and parse. -/
theorem parsed (hPath : r.IncludePath names path) :
    ∀ name ∈ path.dropLast, ∃ template nodes,
      r.source name = .ok template ∧ r.parser.parseText template = .ok nodes := by
  induction hPath with
  | last hName =>
    intro name hMem
    cases hMem
  | step hName hSource hParse hRest ih =>
    intro name hMem
    cases hRest with
    | last _ =>
      obtain rfl := List.mem_singleton.mp hMem
      exact ⟨_, _, hSource, hParse⟩
    | step _ _ _ _ =>
      rcases List.mem_cons.mp hMem with rfl | hMem
      · exact ⟨_, _, hSource, hParse⟩
      · exact ih name hMem

end IncludePath

end Renderer

/-! ## Questions of includes -/

/-- A chain without repetitions stays one as a name enters it. -/
theorem Session.nodup_enterInclude {s entered : Session} {name : String}
    (hEnter : s.enterInclude name = .ok entered) (hDistinct : s.chain.Nodup) :
    entered.chain.Nodup := by
  obtain ⟨hNew, -, rfl⟩ := enterInclude_eq_ok_iff.mp hEnter
  have hConcat := hDistinct.concat hNew
  rwa [List.concat_eq_append] at hConcat

/-- The question was put by an include that `names` lead to, in a session like `s`. -/
structure Request.Accounted (r : Renderer) (names : List String) (s : Session)
    (request : Request) : Prop where
  path     : ∃ path, request.chain = s.chain ++ path ∧ r.IncludePath names path
  last     : request.chain.getLast? = some request.name
  distinct : s.chain.Nodup → request.chain.Nodup
  bounded  : request.chain.length ≤ s.limits.maxIncludeDepth

namespace Request.Accounted

variable {r : Renderer} {names names' : List String} {s s' : Session} {request : Request}

theorem mono (h : request.Accounted r names s) (hNames : names ⊆ names') :
    request.Accounted r names' s := by
  obtain ⟨path, hChain, hPath⟩ := h.path
  exact ⟨⟨path, hChain, hPath.mono hNames⟩, h.last, h.distinct, h.bounded⟩

theorem of_kept (h : request.Accounted r names s') (hKept : s.Kept s') :
    request.Accounted r names s := by
  obtain ⟨hPath, hLast, hDistinct, hBounded⟩ := h
  rw [hKept.chain] at hPath hDistinct
  rw [hKept.limits] at hBounded
  exact ⟨hPath, hLast, hDistinct, hBounded⟩

/-- An include that is let in may be asked for. -/
theorem of_enterInclude {entered : Session} {name : String}
    (hEnter : s.enterInclude name = .ok entered) :
    Request.Accounted r [name] s { name, chain := entered.chain } := by
  have hDistinct := Session.nodup_enterInclude hEnter
  obtain ⟨-, hRoom, rfl⟩ := Session.enterInclude_eq_ok_iff.mp hEnter
  refine ⟨⟨[name], rfl, .last (List.mem_singleton_self name)⟩, List.getLast?_concat, hDistinct, ?_⟩
  unfold Session.room at hRoom
  show (s.chain ++ [name]).length ≤ s.limits.maxIncludeDepth
  rw [List.length_append, List.length_singleton]
  omega

/-- What the trees of a template ask for is asked for on a path through its include. -/
theorem inside_include {entered : Session} {name template : String} {nodes : List Node}
    (hEnter : s.enterInclude name = .ok entered) (hSource : r.source name = .ok template)
    (hParse : r.parser.parseText template = .ok nodes)
    (h : request.Accounted r (includeNames nodes) entered) : request.Accounted r [name] s := by
  have hDistinct := Session.nodup_enterInclude hEnter
  obtain ⟨-, -, rfl⟩ := Session.enterInclude_eq_ok_iff.mp hEnter
  obtain ⟨path, hChain, hPath⟩ := h.path
  refine ⟨⟨name :: path, ?_, ?_⟩, h.last, fun hAround => h.distinct (hDistinct hAround), h.bounded⟩
  · rw [hChain]
    exact List.append_assoc _ _ _
  · exact .step (List.mem_singleton_self name) hSource hParse hPath

end Request.Accounted

namespace Outcome

theorem requests_andThen {o : Outcome} {next : Session → Outcome} {request : Request}
    (hMem : request ∈ (o.andThen next).requests) :
    request ∈ o.requests ∨ request ∈ (next o.session).requests := by
  cases hResult : o.result with
  | error e =>
    rw [andThen_of_error hResult] at hMem
    exact .inl hMem
  | ok text =>
    rw [andThen_of_ok hResult] at hMem
    exact List.mem_append.mp hMem

/-- All questions have been put by includes that `names` lead to. -/
def Accounted (r : Renderer) (names : List String) (s : Session) (o : Outcome) : Prop :=
  ∀ request ∈ o.requests, request.Accounted r names s

variable {r : Renderer} {names names' : List String} {s : Session}

theorem accounted_done (text : String) : (done text s).Accounted r names s :=
  List.forall_mem_nil _

theorem accounted_fail (e : Error) : (fail e s).Accounted r names s :=
  List.forall_mem_nil _

theorem Accounted.mono {o : Outcome} (h : o.Accounted r names s) (hNames : names ⊆ names') :
    o.Accounted r names' s :=
  fun request hMem => (h request hMem).mono hNames

theorem Accounted.andThen {o : Outcome} {next : Session → Outcome}
    (hFirst : o.Accounted r names s) (hKept : s.Kept o.session)
    (hNext : (next o.session).Accounted r names o.session) :
    (o.andThen next).Accounted r names s := by
  intro request hMem
  rcases requests_andThen hMem with hMem | hMem
  · exact hFirst request hMem
  · exact (hNext request hMem).of_kept hKept

theorem accounted_sequence {α : Type} {step : α → Session → Outcome}
    (hKept : ∀ a (s : Session), s.Kept (step a s).session)
    (hStep : ∀ a (s : Session), (step a s).Accounted r names s) (as : List α) (s : Session) :
    (sequence (as.map step) s).Accounted r names s := by
  induction as generalizing s with
  | nil => exact accounted_done ""
  | cons a as ih => exact (hStep a s).andThen (hKept a s) (ih _)

end Outcome

/-- Whatever is asked for in an include is asked for on a path through it. -/
def IncludeRule.Accounted (r : Renderer) (onInclude : IncludeRule) : Prop :=
  ∀ name c (s : Session), (onInclude name c s).Accounted r [name] s

namespace Renderer

variable (r : Renderer) {onInclude : IncludeRule}

theorem accounted_loop (hKeeps : onInclude.Keeps) {body : List Node}
    (hBody : ∀ c (s : Session),
      (r.renderNodes onInclude body c s).Accounted r (includeNames body) s)
    (item collection : String) (position : Position) (c : Context) (s : Session) :
    (r.renderNode onInclude (.loop item collection body position) c s).Accounted r
      (includeNames body) s := by
  rw [renderNode_loop]
  cases hRecord : s.recordLoop with
  | error e => exact Outcome.accounted_fail e
  | ok charged =>
    have hItems : (r.renderItems onInclude item collection body c charged).Accounted r
        (includeNames body) charged := by
      unfold renderItems
      cases (c.lookup? collection).bind Value.items? with
      | none => exact Outcome.accounted_done ""
      | some items =>
        exact Outcome.accounted_sequence (fun v => r.kept_renderNodes hKeeps body _)
          (fun v => hBody _) items charged
    exact fun request hMem => (hItems request hMem).of_kept (Session.kept_recordLoop hRecord)

/-- Rendering asks for what its trees lead to, if its way to render includes does. -/
theorem accounted_renderNodes (hKeeps : onInclude.Keeps) (hRule : onInclude.Accounted r)
    (nodes : List Node) :
    ∀ c (s : Session), (r.renderNodes onInclude nodes c s).Accounted r (includeNames nodes) s := by
  induction nodes using Node.forest_induction with
  | nil => exact fun c s => Outcome.accounted_done ""
  | text content position nodes ih =>
    exact fun c s => (Outcome.accounted_done content).andThen (Session.Kept.refl s) (ih c s)
  | placeholder path position nodes ih =>
    intro c s
    have hFirst : (Outcome.done (placeholderText c path) s).Accounted r (includeNames nodes) s :=
      Outcome.accounted_done _
    exact hFirst.andThen (Session.Kept.refl s) (ih c s)
  | inclusion name position nodes ih =>
    intro c s
    have hFirst := (hRule name c s).mono (List.subset_append_left [name] (includeNames nodes))
    have hNext := (ih c (onInclude name c s).session).mono
      (List.subset_append_right [name] (includeNames nodes))
    exact hFirst.andThen (hKeeps name c s) hNext
  | loop item collection body position nodes hBody ih =>
    intro c s
    have hKept := r.kept_loop (r.kept_renderNodes hKeeps body) item collection position c s
    have hFirst := (r.accounted_loop hKeeps hBody item collection position c s).mono
      (List.subset_append_left (includeNames body) (includeNames nodes))
    have hNext := (ih c (r.renderNode onInclude (.loop item collection body position) c s).session
      ).mono (List.subset_append_right (includeNames body) (includeNames nodes))
    exact hFirst.andThen hKept hNext

/-- **Includes ask for what their templates lead to**, however many levels they have. -/
theorem accounted_renderInclude (levels : Nat) : (r.renderInclude levels).Accounted r := by
  induction levels with
  | zero =>
    intro name c s
    unfold renderInclude
    cases s.enterInclude name with
    | error e => exact Outcome.accounted_fail e
    | ok entered => exact Outcome.accounted_fail _
  | succ levels ih =>
    intro name c s
    cases hEnter : s.enterInclude name with
    | error e =>
      rw [r.renderInclude_of_error hEnter]
      exact Outcome.accounted_fail e
    | ok entered =>
      rw [r.renderInclude_succ_of_ok hEnter]
      intro request hMem
      rcases List.mem_cons.mp hMem with rfl | hMem
      · exact .of_enterInclude hEnter
      · -- asked for inside: there was a template, and it was parsed
        cases hSource : r.source name with
        | error e =>
          rw [r.renderTemplate_of_error hSource] at hMem
          cases hMem
        | ok template =>
          rw [r.renderTemplate_of_ok hSource] at hMem
          cases hParse : r.parser.parseText template with
          | error e =>
            rw [r.parsed_of_error hParse] at hMem
            cases hMem
          | ok nodes =>
            rw [r.parsed_of_ok hParse] at hMem
            have hInside := r.accounted_renderNodes (r.keeps_renderInclude levels) ih nodes c
              entered request hMem
            exact hInside.inside_include hEnter hSource hParse

end Renderer

theorem Session.accounted_evaluate (s : Session) (r : Renderer) (nodes : List Node)
    (c : Context) : (s.evaluate r nodes c).Accounted r (includeNames nodes) s :=
  r.accounted_renderNodes (r.keeps_renderInclude s.room) (r.accounted_renderInclude s.room) nodes
    c s

/-! ## Whole renders -/

namespace Engine

/-- The question that a render puts for its entry, before anything else. -/
def Entry.asks : Entry → List Request
  | .text _ => []
  | .named name =>
    match TemplateName.check name with
    | .error _ => []
    | .ok () => [{ name }]

/-- What is true of every question that an include puts. -/
structure IncludeQuestion (engine : Engine) (entry : Entry) (request : Request) : Prop where
  admissible : TemplateName.Admissible request.name
  trimmed    : TemplateName.Trimmed request.name
  /-- The active includes end with the one that asks. -/
  last       : request.chain.getLast? = some request.name
  distinct   : request.chain.Nodup
  bounded    : request.chain.length ≤ engine.limits.maxIncludeDepth
  /-- The text that the render starts with was parsed, and leads to the include that asks. -/
  path       : ∃ template nodes, entry.template engine.source = .ok template ∧
    engine.parser.parseText template = .ok nodes ∧
    engine.renderer.IncludePath (includeNames nodes) request.chain
  /-- The text of every include around the one that asks was parsed. -/
  parsed     : ∀ name ∈ request.chain.dropLast, ∃ template nodes,
    engine.source name = .ok template ∧ engine.parser.parseText template = .ok nodes

variable (engine : Engine) (c : Context)

/-- All questions of a render from text are put by includes. -/
theorem includeQuestion_of_renderText {entry : Entry} {template : String}
    (hEntry : entry.template engine.source = .ok template) :
    ∀ request ∈ (engine.renderText template c).requests,
      engine.IncludeQuestion entry request := by
  intro request hMem
  cases hParse : engine.parser.parseText template with
  | error e =>
    -- nothing is asked for by a text that does not parse
    rw [renderText_of_malformed hParse] at hMem
    cases hMem
  | ok nodes =>
    rw [renderText_of_parse hParse] at hMem
    have hAccounted := (Session.start engine.limits).accounted_evaluate engine.renderer nodes c
      request hMem
    obtain ⟨path, hChain, hPath⟩ := hAccounted.path
    obtain rfl : request.chain = path := hChain
    have hLast := hAccounted.last
    have hNames := hPath.admissible (Parser.admissible_of_parse hParse) request.name
      (List.mem_of_getLast? hLast)
    exact ⟨hNames.1, hNames.2, hLast, hAccounted.distinct List.nodup_nil, hAccounted.bounded,
      ⟨template, nodes, hEntry, hParse, hPath⟩, hPath.parsed⟩

theorem admissible_of_asks {entry : Entry} {request : Request} (hMem : request ∈ entry.asks) :
    TemplateName.Admissible request.name := by
  cases entry with
  | text template => cases hMem
  | named name =>
    simp only [Entry.asks] at hMem
    split at hMem
    · cases hMem
    · next hCheck =>
      obtain rfl := List.mem_singleton.mp hMem
      exact TemplateName.check_eq_ok_iff.mp hCheck

theorem render_of_not_admissible {name : String} (hName : ¬ TemplateName.Admissible name) :
    ∃ reason, engine.render name c =
      .fail (.validation reason) (Session.start engine.limits) := by
  cases hCheck : TemplateName.check name with
  | error e =>
    obtain ⟨reason, rfl⟩ := TemplateName.check_eq_error hCheck
    exact ⟨reason, render_of_refused hCheck⟩
  | ok _ => exact absurd (TemplateName.check_eq_ok_iff.mp hCheck) hName

/-- After the question for the entry itself, all questions are put by includes. -/
theorem requests_renderEntry (entry : Entry) :
    ∃ included, (engine.renderEntry entry c).requests = entry.asks ++ included ∧
      ∀ request ∈ included, engine.IncludeQuestion entry request := by
  cases entry with
  | text template => exact ⟨_, rfl, engine.includeQuestion_of_renderText c rfl⟩
  | named name =>
    simp only [renderEntry_named, Entry.asks]
    cases hCheck : TemplateName.check name with
    | error e =>
      rw [render_of_refused hCheck]
      exact ⟨[], rfl, List.forall_mem_nil _⟩
    | ok _ =>
      cases hSource : engine.source name with
      | error e =>
        rw [render_of_missing hCheck hSource]
        exact ⟨[], rfl, List.forall_mem_nil _⟩
      | ok template =>
        rw [render_of_source hCheck hSource]
        exact ⟨_, rfl, engine.includeQuestion_of_renderText c hSource⟩

/--
**A render asks only for what is admissible.** Take any engine, whatever its source answers and
whatever constructs it knows, any entry and any context. A name that is not admissible fails as an
entry, as invalid, and nothing is asked for. Apart from the question for the entry itself, every
question is put by an include: for an admissible name without blanks around it, while the active
includes are pairwise different, end with that name and are no more than allowed. They lead to that
name from the text of the entry, through texts that parse; so a text that does not parse has none of
its includes asked for.
-/
theorem asks_only_what_is_admissible (entry : Entry) :
    let o := engine.renderEntry entry c
    (∀ request ∈ o.requests, TemplateName.Admissible request.name) ∧
    (∃ included, o.requests = entry.asks ++ included ∧
      ∀ request ∈ included, engine.IncludeQuestion entry request) ∧
    (∀ name, entry = .named name → ¬ TemplateName.Admissible name →
      (∃ reason, o.result = .error (.validation reason)) ∧ o.requests = []) := by
  obtain ⟨included, hRequests, hIncluded⟩ := engine.requests_renderEntry c entry
  refine ⟨?_, ⟨included, hRequests, hIncluded⟩, ?_⟩
  · intro request hMem
    rw [hRequests] at hMem
    rcases List.mem_append.mp hMem with hMem | hMem
    · exact admissible_of_asks hMem
    · exact (hIncluded request hMem).admissible
  · rintro name rfl hName
    obtain ⟨reason, hRender⟩ := engine.render_of_not_admissible c hName
    simp only [renderEntry_named, hRender]
    exact ⟨⟨reason, rfl⟩, rfl⟩

set_option maxRecDepth 4000 in
/-- The theorem at a name that leads upwards, and at an include with blanks around its name. -/
theorem asks_only_what_is_admissible_at_entries :
    let engine : Engine := .ofSource fun _ => .ok "t"
    let entry : Entry := .text "\x7b\x7binclude: a \x7d\x7d"
    (¬ TemplateName.Admissible "a/../b" ∧
      (∃ reason, (engine.render "a/../b" .empty).result = .error (.validation reason)) ∧
      (engine.render "a/../b" .empty).requests = []) ∧
    (engine.renderEntry entry .empty).requests = [⟨"a", ["a"]⟩] ∧
    engine.IncludeQuestion entry ⟨"a", ["a"]⟩ := by
  intro engine entry
  have hRefused : ¬ TemplateName.Admissible "a/../b" := fun h => h.noClimb (by decide)
  have hEntry : engine.parser.parseText "\x7b\x7binclude: a \x7d\x7d" =
      .ok [.inclusion "a" ⟨1, 1⟩] := by
    have hScan : Token.scan "\x7b\x7binclude: a \x7d\x7d" =
        [.tag "include: a" "\x7b\x7binclude: a \x7d\x7d" ⟨1, 1⟩] := by cbv
    rw [Parser.parseText, hScan, Parser.parse_eq_run]
    rfl
  have hIncluded : engine.parser.parseText "t" = .ok [.text "t" ⟨1, 1⟩] := by
    have hScan : Token.scan "t" = [.text "t" ⟨1, 1⟩] := by cbv
    rw [Parser.parseText, hScan, Parser.parse_eq_run]
    rfl
  have hRequests : (engine.renderEntry entry .empty).requests = [⟨"a", ["a"]⟩] := by
    have hSource : engine.renderer.source "a" = .ok "t" := rfl
    have hEnter : (Session.start {}).enterInclude "a" = .ok ⟨{}, ["a"], 0⟩ := by rfl
    rw [renderEntry_text, renderText_of_parse hEntry]
    show (engine.renderer.renderNodes (engine.renderer.renderInclude 10) _ .empty
      (.start {})).requests = _
    rw [Renderer.renderNodes, Renderer.renderNode, Renderer.renderInclude_succ_of_ok _ hEnter,
      Renderer.renderTemplate_of_ok _ hSource, Renderer.parsed_of_ok _ hIncluded]
    rfl
  obtain ⟨-, -, hNamed⟩ := engine.asks_only_what_is_admissible .empty (.named "a/../b")
  obtain ⟨-, ⟨included, hSame, hAll⟩, -⟩ := engine.asks_only_what_is_admissible .empty entry
  refine ⟨⟨hRefused, hNamed "a/../b" rfl hRefused⟩, hRequests, hAll _ ?_⟩
  rw [hRequests] at hSame
  rw [← show [⟨"a", ["a"]⟩] = included from hSame]
  exact List.mem_singleton_self _

end Engine

end Stencil
