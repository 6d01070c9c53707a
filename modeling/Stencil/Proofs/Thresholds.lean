import Stencil.Engine
import Stencil.Proofs.Cut
import Stencil.Proofs.LockStep

/-!
# Stencil — exact limits of a render

A render that succeeds takes so many includes within includes, so many loops and so many loops
within loops. This module says how many, and proves that a render of the same entry succeeds under
exactly the limits that have room for them.

* `Node.loopCount`, `loopCounts`, `Renderer.includeLoops` — the loops that are evaluated: one for
  each loop, those of its body once per item, and those of an included template for each time it is
  included. A render that succeeds charges so many (`charges_renderNodes`, `charges_renderInclude`).
* `Engine.Entry` — what a render starts from: the name of a template, or its text.
* `Engine.need` — the limits that are just wide enough for a render.
* `Engine.limits_exact` — under any other limits the same render succeeds, with the same text and
  the same questions to the source, if they have room for the need, and otherwise is stopped by one
  that has not; and it does the same as before whenever the limits are no narrower and the first
  render was not stopped by one of its own.
-/

namespace Stencil

/-! ## Counting loops -/

/-- How many loops an include evaluates, from its name and the context of its tag. -/
abbrev IncludeCount := String → Context → Nat

/-- The values of `f` on a list, added up. -/
def sumOf {α : Type} (f : α → Nat) (as : List α) : Nat := as.foldr (fun a n => f a + n) 0

mutual

/-- How many loops a node evaluates. -/
def Node.loopCount (onInclude : IncludeCount) : Node → Context → Nat
  | .text .., _           => 0
  | .placeholder .., _    => 0
  | .inclusion name _, c  => onInclude name c
  | .loop item collection body _, c =>
    match (c.lookup? collection).bind Value.items? with
    | none => 1
    | some items => 1 + sumOf (fun v => loopCounts onInclude body (c.forItem item v)) items
termination_by structural node => node

/-- How many loops a list of nodes evaluates. -/
def loopCounts (onInclude : IncludeCount) : List Node → Context → Nat
  | [], _            => 0
  | node :: nodes, c => node.loopCount onInclude c + loopCounts onInclude nodes c
termination_by structural nodes => nodes

end

/-- How many loops a template evaluates; none if it cannot be parsed. -/
def Renderer.textLoops (r : Renderer) (onInclude : IncludeCount) (template : String)
    (c : Context) : Nat :=
  match r.parser.parseText template with
  | .error _  => 0
  | .ok nodes => loopCounts onInclude nodes c

/-- How many loops an include evaluates with `levels` levels for it and the includes inside it; none
if there is no such template. -/
def Renderer.includeLoops (r : Renderer) : (levels : Nat) → IncludeCount
  | 0, _, _ => 0
  | levels + 1, name, c =>
    match r.source name with
    | .error _     => 0
    | .ok template => r.textLoops (r.includeLoops levels) template c

/-- If it succeeds, the outcome has charged `n` loops since there were `before`. -/
def Outcome.Charges (o : Outcome) (before n : Nat) : Prop :=
  ∀ text, o.result = .ok text → o.session.loops = before + n

/-- Includes charge so many loops as the count says. -/
def IncludeRule.Charges (onInclude : IncludeRule) (count : IncludeCount) : Prop :=
  ∀ name c (s : Session), (onInclude name c s).Charges s.loops (count name c)

namespace Outcome

theorem charges_done (text : String) (s : Session) : (done text s).Charges s.loops 0 :=
  fun _ _ => rfl

theorem charges_fail (e : Error) (s : Session) (before n : Nat) : (fail e s).Charges before n :=
  fun _ hOk => nomatch hOk

theorem Charges.andThen {o : Outcome} {next : Session → Outcome} {before m n : Nat}
    (hFirst : o.Charges before m) (hNext : ∀ s : Session, (next s).Charges s.loops n) :
    (o.andThen next).Charges before (m + n) := by
  intro all hOk
  cases hResult : o.result with
  | error e =>
    rw [andThen_of_error hResult] at hOk
    exact nomatch hResult.symm.trans hOk
  | ok text =>
    obtain ⟨text', hOk'⟩ := ok_of_andThen hResult hOk
    have hLoops : o.session.loops = before + m := hFirst text hResult
    have hLoops' : (next o.session).session.loops = o.session.loops + n := hNext _ text' hOk'
    rw [andThen_of_ok hResult]
    show (next o.session).session.loops = before + (m + n)
    omega

theorem charges_sequence {α : Type} {step : α → Session → Outcome} {count : α → Nat}
    (hStep : ∀ a (s : Session), (step a s).Charges s.loops (count a)) (as : List α) (s : Session) :
    (sequence (as.map step) s).Charges s.loops (sumOf count as) := by
  induction as generalizing s with
  | nil => exact charges_done "" s
  | cons a as ih => exact (hStep a s).andThen ih

end Outcome

namespace Renderer

variable {onInclude : IncludeRule} {count : IncludeCount}

/-- A loop charges one, and what its body charges for each item. -/
theorem charges_loop (r : Renderer) {body : List Node}
    (hBody : ∀ c (s : Session),
      (r.renderNodes onInclude body c s).Charges s.loops (loopCounts count body c))
    (item collection : String) (position : Position) (c : Context) (s : Session) :
    (r.renderNode onInclude (.loop item collection body position) c s).Charges s.loops
      ((Node.loop item collection body position).loopCount count c) := by
  rw [renderNode_loop]
  cases hRecord : s.recordLoop with
  | error e => exact Outcome.charges_fail e s _ _
  | ok charged =>
    obtain ⟨-, rfl⟩ := Session.recordLoop_eq_ok_iff.mp hRecord
    intro text hOk
    simp only [renderItems, Node.loopCount] at hOk ⊢
    cases hItems : (c.lookup? collection).bind Value.items? with
    | none => rfl
    | some items =>
      rw [hItems] at hOk
      -- the bodies are charged on top of the loop itself
      have hLoops := Outcome.charges_sequence (fun v => hBody (c.forItem item v)) items
        { s with loops := s.loops + 1 } text hOk
      exact hLoops.trans (Nat.add_assoc _ _ _)

/-- **What is charged is what is counted**, if the includes charge what is counted for them. -/
theorem charges_renderNodes (r : Renderer) (hRule : onInclude.Charges count) (nodes : List Node) :
    ∀ c (s : Session), (r.renderNodes onInclude nodes c s).Charges s.loops
      (loopCounts count nodes c) := by
  induction nodes using Node.forest_induction with
  | nil => exact fun c s => Outcome.charges_done "" s
  | text content position nodes ih =>
    exact fun c s => (Outcome.charges_done content s).andThen (ih c)
  | placeholder path position nodes ih =>
    exact fun c s => (Outcome.charges_done (placeholderText c path) s).andThen (ih c)
  | inclusion name position nodes ih =>
    exact fun c s => (hRule name c s).andThen (ih c)
  | loop item collection body position nodes hBody ih =>
    exact fun c s => (r.charges_loop hBody item collection position c s).andThen (ih c)

theorem charges_parsed (r : Renderer) (hRule : onInclude.Charges count) (template : String)
    (c : Context) (s : Session) :
    (r.parsed template s fun nodes => r.renderNodes onInclude nodes c s).Charges s.loops
      (r.textLoops count template c) := by
  cases hParse : r.parser.parseText template with
  | error e =>
    rw [r.parsed_of_error hParse]
    exact Outcome.charges_fail e s _ _
  | ok nodes =>
    rw [r.parsed_of_ok hParse, textLoops, hParse]
    exact r.charges_renderNodes hRule nodes c s

/-- Includes charge what is counted for as many levels. -/
theorem charges_renderInclude (r : Renderer) (levels : Nat) :
    (r.renderInclude levels).Charges (r.includeLoops levels) := by
  induction levels with
  | zero =>
    intro name c s
    unfold renderInclude
    cases s.enterInclude name with
    | error e => exact Outcome.charges_fail e s _ _
    | ok entered => exact Outcome.charges_fail _ s _ _
  | succ levels ih =>
    intro name c s
    cases hEnter : s.enterInclude name with
    | error e =>
      rw [r.renderInclude_of_error hEnter]
      exact Outcome.charges_fail e s _ _
    | ok entered =>
      obtain ⟨-, -, rfl⟩ := Session.enterInclude_eq_ok_iff.mp hEnter
      rw [r.renderInclude_succ_of_ok hEnter, includeLoops]
      cases hSource : r.source name with
      | error e =>
        rw [r.renderTemplate_of_error hSource]
        exact Outcome.charges_fail e _ _ _
      | ok template =>
        rw [r.renderTemplate_of_ok hSource]
        exact r.charges_parsed ih template c _

end Renderer

/-! ## Entries -/

/-- What a render starts from. -/
inductive Engine.Entry where
  /-- The template of the given name. -/
  | named (name : String)
  /-- A template as it stands. -/
  | text (template : String)

/-- The template that a render starts with. -/
def Engine.Entry.template (source : TemplateSource) : Engine.Entry → Except Error String
  | .named name    => source name
  | .text template => .ok template

/-- Renders an entry. -/
def Renderer.renderEntry (r : Renderer) (limits : Limits) : Engine.Entry → Context → Outcome
  | .named name    => r.render limits name
  | .text template => r.renderText limits template

/-- Renders an entry. -/
def Engine.renderEntry (engine : Engine) : Engine.Entry → Context → Outcome :=
  engine.renderer.renderEntry engine.limits

@[simp]
theorem Engine.renderEntry_named (engine : Engine) (name : String) (c : Context) :
    engine.renderEntry (.named name) c = engine.render name c := rfl

@[simp]
theorem Engine.renderEntry_text (engine : Engine) (template : String) (c : Context) :
    engine.renderEntry (.text template) c = engine.renderText template c := rfl

/-- How many loops a render of the entry evaluates. -/
def Engine.loopCount (engine : Engine) (entry : Engine.Entry) (c : Context) : Nat :=
  match entry.template engine.source with
  | .error _     => 0
  | .ok template =>
    engine.renderer.textLoops (engine.renderer.includeLoops engine.limits.maxIncludeDepth)
      template c

/-- A render by name evaluates the loops of the text that the source has for the name. -/
theorem Engine.loopCount_named {engine : Engine} {name template : String} {c : Context}
    (hSource : engine.source name = .ok template) :
    engine.loopCount (.named name) c = engine.loopCount (.text template) c := by
  simp only [Engine.loopCount, Engine.Entry.template, hSource]

/-- The largest number of loops open at once in the template that a render starts with. -/
def Parser.entryNesting (p : Parser) (source : TemplateSource) (entry : Engine.Entry) : Nat :=
  match entry.template source with
  | .error _     => 0
  | .ok template => p.textNesting template

/-- The limits that are just wide enough for a render: the deepest chain of includes that the source
was asked from, the loops evaluated, and the largest number of loops open at once in any template
that was parsed. -/
def Engine.need (engine : Engine) (entry : Engine.Entry) (c : Context) : Limits where
  maxIncludeDepth    := maxOf (·.chain.length) (engine.renderEntry entry c).requests
  maxLoopEvaluations := engine.loopCount entry c
  maxLoopNesting     := max (engine.parser.entryNesting engine.source entry)
    (maxOf (fun request => engine.parser.nestingOf engine.source request.name)
      (engine.renderEntry entry c).requests)

open Limits

namespace Parser

variable (p : Parser) (source : TemplateSource) (limits limits' : Limits) (c : Context)

/-- The engine that reads the templates of `source` with `p`, with its limits in force. -/
def engine (p : Parser) (source : TemplateSource) (limits : Limits) : Engine :=
  { source, limits, parser := p.withLimits limits }

/-- Every usable engine is one of these. -/
theorem withParser_of_withLimits {source : TemplateSource} {limits : Limits} {engine : Engine}
    (hEngine : Engine.withLimits source limits = .ok engine) (p : Parser) :
    engine.withParser p = p.engine source limits := by
  unfold Engine.withLimits at hEngine
  split at hEngine
  · cases hEngine
  · cases hEngine
    rfl

/-- Rendering a text goes in lock-step. -/
theorem lockStep_renderText (template : String) :
    Limits.LockStep limits limits'
      (p.needAfter source template ((p.engine source limits).renderText template c))
      ((p.engine source limits').renderText template c =
        ((p.engine source limits).renderText template c).relimit limits')
      ((p.engine source limits).renderText template c).result
      ((p.engine source limits').renderText template c).result :=
  Outcome.lockStep_parsed
    (fun nodes => (Session.start limits).lockStep_evaluate p source nodes c limits' (Nat.zero_le _))
    template (Session.start limits)

/-- Rendering by name fails before anything is parsed, whatever the limits, or renders the text that
the source has for the name, after asking for it. -/
theorem render_cases (p : Parser) (source : TemplateSource) (c : Context) (name : String) :
    (∃ e asked, ∀ limits, (p.engine source limits).render name c =
      { Outcome.fail e (Session.start limits) with requests := asked }) ∨
    (∃ template, source name = .ok template ∧ ∀ limits, (p.engine source limits).render name c =
      ((p.engine source limits).renderText template c).asking { name }) := by
  cases hCheck : TemplateName.check name with
  | error e => exact .inl ⟨e, [], fun limits => Engine.render_of_refused hCheck⟩
  | ok _ =>
    cases hSource : source name with
    | error e =>
      exact .inl ⟨e, [{ name }], fun limits => Engine.render_of_missing hCheck hSource⟩
    | ok template =>
      exact .inr ⟨template, rfl, fun limits => Engine.render_of_source hCheck hSource⟩

/-- What a render of the entry took that ended in `o`. -/
def entryNeed (entry : Engine.Entry) (o : Outcome) : Limits :=
  { p.need source o with
    maxLoopNesting := max (p.entryNesting source entry) (p.need source o).maxLoopNesting }

/-- Rendering an entry goes in lock-step. -/
theorem lockStep_renderEntry (entry : Engine.Entry) :
    Limits.LockStep limits limits'
      (p.entryNeed source entry ((p.engine source limits).renderEntry entry c))
      ((p.engine source limits').renderEntry entry c =
        ((p.engine source limits).renderEntry entry c).relimit limits')
      ((p.engine source limits).renderEntry entry c).result
      ((p.engine source limits').renderEntry entry c).result := by
  cases entry with
  | text template => exact p.lockStep_renderText source limits limits' c template
  | named name =>
    simp only [Engine.renderEntry_named]
    rcases p.render_cases source c name with ⟨e, asked, hRender⟩ | ⟨template, hSource, hRender⟩
    · rw [hRender, hRender]
      exact .failed rfl rfl
    · rw [hRender, hRender]
      have hNesting : p.nestingOf source name = p.textNesting template := by
        rw [nestingOf, hSource]
      have hChain : ([] : List String).length ≤ limits'.maxIncludeDepth := Nat.zero_le _
      have hAsked := Outcome.lockStep_asking hNesting hChain
        (p.lockStep_renderText source limits limits' c template)
      -- the template that the render starts with is among those asked for
      have hFirst : p.entryNesting source (.named name) = p.nestingOf source name := rfl
      refine Limits.LockStep.widen hAsked ?_ fun hRoom => ?_
      · exact le_iff.mpr ⟨Nat.le_refl _, Nat.le_refl _, Nat.le_max_right _ _⟩
      · refine le_iff.mpr ⟨hRoom .includeDepth, hRoom .loopEvaluations, ?_⟩
        refine Nat.max_le.mpr ⟨?_, hRoom .loopNesting⟩
        rw [hFirst]
        exact Nat.le_trans (Nat.le_max_left _ _) (hRoom .loopNesting)

/-- A render that succeeds charges the loops that are counted for its entry. -/
theorem charges_renderEntry (entry : Engine.Entry) :
    ((p.engine source limits).renderEntry entry c).Charges 0
      ((p.engine source limits).loopCount entry c) := by
  have hText : ∀ template, ((p.engine source limits).renderText template c).Charges 0
      ((p.engine source limits).loopCount (.text template) c) := fun template =>
    (p.engine source limits).renderer.charges_parsed
      ((p.engine source limits).renderer.charges_renderInclude limits.maxIncludeDepth) template c
      (Session.start limits)
  cases entry with
  | text template => exact hText template
  | named name =>
    rw [Engine.renderEntry_named]
    rcases p.render_cases source c name with ⟨e, asked, hRender⟩ | ⟨template, hSource, hRender⟩
    · rw [hRender]
      exact Outcome.charges_fail e _ _ _
    · rw [hRender, Engine.loopCount_named hSource]
      exact hText template

/-- What a render took that succeeded is what its engine needs. -/
theorem entryNeed_eq_need {entry : Engine.Entry} {out : String}
    (hOk : ((p.engine source limits).renderEntry entry c).result = .ok out) :
    p.entryNeed source entry ((p.engine source limits).renderEntry entry c) =
      (p.engine source limits).need entry c := by
  have hLoops := p.charges_renderEntry source limits c entry out hOk
  -- how deep loops nest does not depend on the limits that the engine has
  have hNestingOf : (p.withLimits limits).nestingOf source = p.nestingOf source := by
    funext name
    unfold nestingOf
    cases source name with
    | error e => rfl
    | ok template => exact nesting_withLimits _ _ _ _
  have hEntry : (p.withLimits limits).entryNesting source entry = p.entryNesting source entry := by
    cases entry with
    | named name => exact congrFun hNestingOf name
    | text template => exact nesting_withLimits _ _ _ _
  have hParser : (p.engine source limits).parser = p.withLimits limits := rfl
  have hSource : (p.engine source limits).source = source := rfl
  rw [Nat.zero_add] at hLoops
  rw [entryNeed, need, Engine.need, hParser, hSource, hLoops, hNestingOf, hEntry]

end Parser

namespace Engine

/--
**The exact limits of a render.** Take a source, a chain of constructs, an entry and a context, and
two engines whose limits are usable. If the render succeeds in the first, it succeeds in the second
exactly when the limits of the second have room for what it needs; it then gives the same text and
asks the same questions, and otherwise fails with the error of a limit that has no such room. And if
the limits of the second are no narrower than those of the first, the two give the same result and
ask the same questions, unless the first is stopped by one of its own limits.
-/
theorem limits_exact {source : TemplateSource} {limits limits' : Limits} {first second : Engine}
    (hFirst : withLimits source limits = .ok first)
    (hSecond : withLimits source limits' = .ok second) (p : Parser) (entry : Entry) (c : Context) :
    let o := (first.withParser p).renderEntry entry c
    let o' := (second.withParser p).renderEntry entry c
    let need := (first.withParser p).need entry c
    (∀ out, o.result = .ok out →
      ((∃ out', o'.result = .ok out') ↔ need ≤ limits') ∧
      (need ≤ limits' → o'.result = .ok out ∧ o'.requests = o.requests) ∧
      (¬ need ≤ limits' → ∃ name e, o'.result = .error e ∧ limits'.Hit name e ∧
        limits'.value name < need.value name)) ∧
    (limits ≤ limits' → (∀ name e, o.result = .error e → ¬ limits.Hit name e) →
      o'.result = o.result ∧ o'.requests = o.requests) := by
  rw [Parser.withParser_of_withLimits hFirst p, Parser.withParser_of_withLimits hSecond p]
  intro o o' need
  have hStep := p.lockStep_renderEntry source limits limits' c entry
  have hDone : o' = o.relimit limits' → o'.result = o.result ∧ o'.requests = o.requests := by
    intro hSame
    rw [hSame]
    exact ⟨rfl, rfl⟩
  refine ⟨fun out hOk => ?_, fun hWider hFree => hDone (hStep.of_le hWider hFree)⟩
  rw [p.entryNeed_eq_need _ _ _ hOk] at hStep
  obtain ⟨hRoom, hShort⟩ := hStep.of_ok hOk
  have hSame : need ≤ limits' → o'.result = .ok out ∧ o'.requests = o.requests := fun hNeed =>
    ⟨(hDone (hRoom hNeed)).1.trans hOk, (hDone (hRoom hNeed)).2⟩
  refine ⟨⟨?_, fun hNeed => ⟨out, (hSame hNeed).1⟩⟩, hSame, hShort⟩
  -- a run that was stopped has given no text
  rintro ⟨out', hOk'⟩
  refine Decidable.byContradiction fun hNeed => ?_
  obtain ⟨name, e, hStop, -⟩ := hShort hNeed
  exact nomatch hStop.symm.trans hOk'

/-- The theorem at an include within an include, and room for only one. -/
theorem limits_exact_at_two_includes :
    let source : TemplateSource := fun name =>
      if name = "a" then .ok "\x7b\x7binclude:b\x7d\x7d" else .ok "t"
    let first : Engine := ⟨source, {}, {}⟩
    let second : Engine := ⟨source, ⟨1, 1, 1⟩, { maxLoopNesting := 1 }⟩
    let entry : Entry := .text "\x7b\x7binclude:a\x7d\x7d"
    (first.renderEntry entry .empty).result = .ok "t" ∧
    ∃ name e, (second.renderEntry entry .empty).result = .error e ∧
      Limits.Hit ⟨1, 1, 1⟩ name e := by
  intro source first second entry
  have hFirst : withLimits source {} = .ok first := rfl
  have hSecond : withLimits source ⟨1, 1, 1⟩ = .ok second := rfl
  have hScan : ∀ template inner tokens, template.toList = (Piece.tag inner).source →
      ¬ HasPair '}' inner → inner.getLast? ≠ some '}' →
      Token.locate .start [.tag inner] = tokens → Token.scan template = tokens := by
    intro template inner tokens hSource hInner hEnd hTokens
    rw [Token.scan, hSource, pieces_source_tag hInner hEnd, hTokens]
  have hOuter : first.parser.parseText "\x7b\x7binclude:a\x7d\x7d" =
      .ok [.inclusion "a" .start] := by
    have hTokens := hScan "\x7b\x7binclude:a\x7d\x7d" "include:a".toList
      [.tag "include:a" "\x7b\x7binclude:a\x7d\x7d" .start] (by decide +kernel)
      (by decide +kernel) (by decide +kernel) (by decide +kernel)
    rw [Parser.parseText, hTokens, Parser.parse_eq_run]
    rfl
  have hInner : first.parser.parseText "\x7b\x7binclude:b\x7d\x7d" =
      .ok [.inclusion "b" .start] := by
    have hTokens := hScan "\x7b\x7binclude:b\x7d\x7d" "include:b".toList
      [.tag "include:b" "\x7b\x7binclude:b\x7d\x7d" .start] (by decide +kernel)
      (by decide +kernel) (by decide +kernel) (by decide +kernel)
    rw [Parser.parseText, hTokens, Parser.parse_eq_run]
    rfl
  have hText : first.parser.parseText "t" = .ok [.text "t" .start] := by
    rw [Parser.parseText, Token.scan, pieces_of_not_hasPair (by decide +kernel),
      Parser.parse_eq_run]
    rfl
  have hA : first.renderer.source "a" = .ok "\x7b\x7binclude:b\x7d\x7d" := rfl
  have hB : first.renderer.source "b" = .ok "t" := rfl
  have hRun : first.renderEntry entry .empty =
      { result   := .ok "t"
        session  := .start {}
        requests := [⟨"a", ["a"]⟩, ⟨"b", ["a", "b"]⟩] } := by
    have hInside (s : Session) : first.renderer.renderTemplate (first.renderer.renderInclude 8)
        "b" .empty s = .done "t" s := by
      rw [Renderer.renderTemplate_of_ok _ hB, Renderer.parsed_of_ok _ hText]
      rfl
    have hAround : first.renderer.renderTemplate (first.renderer.renderInclude 9) "a" .empty
        ⟨{}, ["a"], 0⟩ = (Outcome.done "t" ⟨{}, ["a"], 0⟩).asking ⟨"b", ["a", "b"]⟩ := by
      have hEnter : Session.enterInclude ⟨{}, ["a"], 0⟩ "b" = .ok ⟨{}, ["a", "b"], 0⟩ := by rfl
      rw [Renderer.renderTemplate_of_ok _ hA, Renderer.parsed_of_ok _ hInner,
        Renderer.renderNodes, Renderer.renderNode, Renderer.renderInclude_succ_of_ok _ hEnter,
        hInside]
      rfl
    have hEnter : (Session.start {}).enterInclude "a" = .ok ⟨{}, ["a"], 0⟩ := by rfl
    show first.renderer.renderText {} _ .empty = _
    rw [Renderer.renderText_of_ok hOuter]
    show first.renderer.renderNodes (first.renderer.renderInclude 10) _ .empty (.start {}) = _
    rw [Renderer.renderNodes, Renderer.renderNode, Renderer.renderInclude_succ_of_ok _ hEnter,
      hAround]
    rfl
  have hOk : (first.renderEntry entry .empty).result = .ok "t" := by rw [hRun]
  have hDepth : (first.need entry .empty).maxIncludeDepth = 2 := by
    rw [need, hRun]
    rfl
  have hAll := limits_exact hFirst hSecond {} entry .empty
  have hFirstParser : first.withParser {} = first := rfl
  have hSecondParser : second.withParser {} = second := rfl
  rw [hFirstParser, hSecondParser] at hAll
  obtain ⟨-, -, hShort⟩ := hAll.1 "t" hOk
  have hNarrow : ¬ first.need entry .empty ≤ ⟨1, 1, 1⟩ := by
    intro hRoom
    have hOne : (first.need entry .empty).maxIncludeDepth ≤ 1 := hRoom .includeDepth
    omega
  obtain ⟨name, e, hStop, hHit, -⟩ := hShort hNarrow
  exact ⟨hOk, name, e, hStop, hHit⟩

end Engine

end Stencil
