import Mathlib
import Stencil.Proofs.Rendering
import Stencil.Proofs.Thresholds

/-!
# Stencil — answers that nobody asked for

A source may have any number of templates; a render asks for some of them, one after the other, and
which one comes next depends on what was in those before. This module proves that no other answer
of the source matters.

Two runs are compared, over two sources, of which the second answers all questions of the first run
as the first source did. Nothing is known about the questions of the second run, so they cannot be
used; but as long as both runs have put the same questions, they have had the same answers, and put
the same question next.

* `AnswerAlike` — two sources that give the same answers to some questions.
* `Outcome.Repeats` — an outcome is the same as another, if the second source answers the questions
  of that one as the first does. It goes through everything that puts outcomes together
  (`Repeats.andThen`, `repeats_sequence`).
* `Session.repeats_evaluate` — rendering over the second source repeats rendering over the first.
* `Renderer.repeats_renderEntry` — the same for whole renders, whatever reads the templates.
* `Engine.unasked_never_matters` — the same for engines, and for a single answer that is changed.
-/

namespace Stencil

/-- Both sources give the same answers to the questions. -/
def AnswerAlike (source source' : TemplateSource) (requests : List Request) : Prop :=
  ∀ request ∈ requests, source' request.name = source request.name

/-! ## Outcomes -/

namespace Outcome

variable {source source' : TemplateSource} {o o' : Outcome} {next next' : Session → Outcome}

/-- `o'` is the same as `o`, if `source'` answers the questions of `o` as `source` does. -/
def Repeats (source source' : TemplateSource) (o o' : Outcome) : Prop :=
  AnswerAlike source source' o.requests → o' = o

theorem Repeats.refl (o : Outcome) : Repeats source source' o o := fun _ => rfl

/-- What comes first has its questions among all of them. -/
theorem requests_subset_andThen (o : Outcome) (next : Session → Outcome) :
    o.requests ⊆ (o.andThen next).requests := by
  cases hResult : o.result with
  | error e => rw [andThen_of_error hResult]; exact List.Subset.refl _
  | ok text => rw [andThen_of_ok hResult]; exact List.subset_append_left _ _

theorem Repeats.andThen (hFirst : Repeats source source' o o')
    (hNext : Repeats source source' (next o.session) (next' o.session)) :
    Repeats source source' (o.andThen next) (o'.andThen next') := by
  intro hAlike
  obtain rfl : o' = o :=
    hFirst fun request hMem => hAlike request (requests_subset_andThen o next hMem)
  cases hResult : o'.result with
  | error e => rw [andThen_of_error hResult, andThen_of_error hResult]
  | ok text =>
    -- the first part has succeeded, so the questions of the second were put
    have hSecond : next' o'.session = next o'.session := by
      refine hNext fun request hMem => hAlike request ?_
      rw [andThen_of_ok hResult]
      exact List.mem_append_right _ hMem
    exact andThen_congr hSecond

/-- Steps are repeated one after the other, in sessions that have `P`. -/
theorem repeats_sequence {α : Type} {step step' : α → Session → Outcome} {P : Session → Prop}
    (hStep : ∀ a s, P s → Repeats source source' (step a s) (step' a s))
    (hKept : ∀ a s, P s → P (step a s).session) (as : List α) {s : Session} (hStart : P s) :
    Repeats source source' (sequence (as.map step) s) (sequence (as.map step') s) := by
  induction as generalizing s with
  | nil => exact .refl _
  | cons a as ih => exact (hStep a s hStart).andThen (ih (hKept a s hStart))

end Outcome

/-! ## Rendering -/

/-- The renderer over another source. -/
def Renderer.withSource (r : Renderer) (source : TemplateSource) : Renderer :=
  { r with source }

namespace Session

variable {r : Renderer} {source' : TemplateSource} {c : Context} {s : Session}

open Outcome

/-- An include puts a question of its own in front of those in its template. -/
theorem repeats_include {name : String}
    (hInside : ∀ entered template inner, s.enterInclude name = .ok entered →
      r.source name = .ok template → r.parser.parseText template = .ok inner →
      Repeats r.source source' (entered.evaluate r inner c)
        (entered.evaluate (r.withSource source') inner c)) :
    Repeats r.source source' (r.renderInclude s.room name c s)
      ((r.withSource source').renderInclude s.room name c s) := by
  rw [renderInclude_room, renderInclude_room]
  cases hEnter : s.enterInclude name with
  | error e => exact .refl _
  | ok entered =>
    intro hAlike
    have hAnswer : (r.withSource source').source name = r.source name :=
      hAlike ⟨name, entered.chain⟩ List.mem_cons_self
    dsimp only
    rw [hAnswer]
    cases hSource : r.source name with
    | error e => rfl
    | ok template =>
      rw [hSource] at hAlike
      -- the same text is parsed by the same parser
      have hParsed : (r.withSource source').parsed template = r.parsed template := rfl
      dsimp only at hAlike ⊢
      rw [hParsed]
      cases hParse : r.parser.parseText template with
      | error e => rw [r.parsed_of_error hParse, r.parsed_of_error hParse]
      | ok inner =>
        rw [r.parsed_of_ok hParse] at hAlike
        have hSame := hInside entered template inner hEnter hSource hParse
          fun request hMem => hAlike request (List.mem_cons_of_mem _ hMem)
        rw [r.parsed_of_ok hParse, r.parsed_of_ok hParse, hSame]

/-- The body of a loop is repeated for one item after the other. -/
theorem repeats_loop {item : String} {body : List Node}
    (hBody : ∀ v s', s.Kept s' → Repeats r.source source' (s'.evaluate r body (c.forItem item v))
      (s'.evaluate (r.withSource source') body (c.forItem item v)))
    (collection : String) (position : Position) :
    Repeats r.source source'
      (r.renderNode (r.renderInclude s.room) (.loop item collection body position) c s)
      ((r.withSource source').renderNode ((r.withSource source').renderInclude s.room)
        (.loop item collection body position) c s) := by
  rw [evaluate_loop, evaluate_loop]
  cases hRecord : s.recordLoop with
  | error e => exact .refl _
  | ok charged =>
    dsimp only
    cases (c.lookup? collection).bind Value.items? with
    | none => exact .refl _
    | some items =>
      refine repeats_sequence (P := s.Kept) ?_ ?_ items (kept_recordLoop hRecord)
      · intro v s' hKept
        exact hBody v s' hKept
      · intro v s' hKept
        exact hKept.trans (s'.kept_evaluate r body _)

/-- **Rendering over a source that answers alike is the same rendering.** -/
theorem repeats_evaluate (r : Renderer) (source' : TemplateSource) (nodes : List Node)
    (c : Context) (s : Session) :
    Repeats r.source source' (s.evaluate r nodes c) (s.evaluate (r.withSource source') nodes c) := by
  refine evaluate_induction r
    (P := fun nodes c s => Repeats r.source source' (s.evaluate r nodes c)
      (s.evaluate (r.withSource source') nodes c))
    ?nil ?text ?placeholder ?inclusion ?loop nodes c s
  case nil => exact fun c s => .refl _
  case text =>
    intro content position nodes c s ih
    rw [evaluate_cons, evaluate_cons]
    exact (Repeats.refl (.done content s)).andThen ih
  case placeholder =>
    intro path position nodes c s ih
    rw [evaluate_cons, evaluate_cons]
    exact (Repeats.refl (.done (placeholderText c path) s)).andThen ih
  case inclusion =>
    intro name position nodes c s hInside ih
    rw [evaluate_cons, evaluate_cons]
    exact (repeats_include hInside).andThen (ih _ (r.keeps_renderInclude s.room name c s))
  case loop =>
    intro item collection body position nodes c s hBody ih
    have hKept := r.kept_renderNode (r.keeps_renderInclude s.room)
      (.loop item collection body position) c s
    rw [evaluate_cons, evaluate_cons]
    exact (repeats_loop hBody collection position).andThen (ih _ hKept)

end Session

/-! ## Whole renders -/

namespace Renderer

variable (r : Renderer) (limits : Limits) (source' : TemplateSource) (c : Context)

theorem repeats_renderText (template : String) :
    Outcome.Repeats r.source source' (r.renderText limits template c)
      ((r.withSource source').renderText limits template c) := by
  -- the text itself is read in the same way over any source
  cases hParse : r.parser.parseText template with
  | error e =>
    have hParse' : (r.withSource source').parser.parseText template = .error e := hParse
    rw [renderText_of_error hParse, renderText_of_error hParse']
    exact .refl _
  | ok nodes =>
    have hParse' : (r.withSource source').parser.parseText template = .ok nodes := hParse
    rw [renderText_of_ok hParse, renderText_of_ok hParse']
    exact Session.repeats_evaluate r source' nodes c _

/-- A render by name asks for the template that it starts with, once the name is checked. -/
theorem repeats_render (name : String) :
    Outcome.Repeats r.source source' (r.render limits name c)
      ((r.withSource source').render limits name c) := by
  cases hCheck : TemplateName.check name with
  | error e =>
    rw [render_of_refused hCheck, render_of_refused hCheck]
    exact .refl _
  | ok _ =>
    intro hAlike
    cases hSource : r.source name with
    | error e =>
      rw [render_of_error hCheck hSource] at hAlike ⊢
      have hAnswer := hAlike ⟨name, []⟩ List.mem_cons_self
      exact render_of_error hCheck (hAnswer.trans hSource)
    | ok template =>
      rw [render_of_ok hCheck hSource] at hAlike ⊢
      have hAnswer := hAlike ⟨name, []⟩ List.mem_cons_self
      have hSame := r.repeats_renderText limits source' c template
        fun request hMem => hAlike request (List.mem_cons_of_mem _ hMem)
      rw [render_of_ok hCheck (hAnswer.trans hSource), hSame]

/-- A render over a source that answers alike is the same render, whatever reads the templates. -/
theorem repeats_renderEntry (entry : Engine.Entry) :
    Outcome.Repeats r.source source' (r.renderEntry limits entry c)
      ((r.withSource source').renderEntry limits entry c) := by
  cases entry with
  | named name => exact r.repeats_render limits source' c name
  | text template => exact r.repeats_renderText limits source' c template

end Renderer

namespace Engine

/-- The engine over another source. -/
def withSource (engine : Engine) (source : TemplateSource) : Engine :=
  { engine with source }

variable (engine : Engine) (c : Context)

/--
**Answers that nobody asked for never matter.** Take any engine, whatever its limits and whatever
constructs it knows, any entry and any context. Over any other source that answers alike every
question of the render, the render is the same: the same text or error, the same session in the end,
and the same questions in the same order. So one may give any answer, be it none, to any name that
was not asked for.
-/
theorem unasked_never_matters (entry : Entry) :
    (∀ source' : TemplateSource,
      AnswerAlike engine.source source' (engine.renderEntry entry c).requests →
        (engine.withSource source').renderEntry entry c = engine.renderEntry entry c) ∧
    ∀ (name : String) (answer : Except Error String),
      (∀ request ∈ (engine.renderEntry entry c).requests, request.name ≠ name) →
        (engine.withSource (Function.update engine.source name answer)).renderEntry entry c =
          engine.renderEntry entry c := by
  refine ⟨fun source' => engine.renderer.repeats_renderEntry engine.limits source' c entry, ?_⟩
  intro name answer hUnasked
  refine engine.renderer.repeats_renderEntry engine.limits _ c entry fun request hMem => ?_
  exact Function.update_of_ne (hUnasked request hMem) answer engine.source

set_option maxRecDepth 4000 in
/-- The theorem at a render that fails at the second of three includes: the third is not asked for,
so there may be a template for it or not. -/
theorem unasked_never_matters_after_failure :
    let source : TemplateSource := fun name =>
      if name = "a" then .ok "t" else .error (.notFound name)
    let source' : TemplateSource := fun name => if name = "z" then .ok "t" else source name
    let engine : Engine := .ofSource source
    let entry : Entry :=
      .text "\x7b\x7binclude:a\x7d\x7d\x7b\x7binclude:b\x7d\x7d\x7b\x7binclude:z\x7d\x7d"
    (engine.renderEntry entry .empty).requests = [⟨"a", ["a"]⟩, ⟨"b", ["b"]⟩] ∧
    AnswerAlike source source' (engine.renderEntry entry .empty).requests ∧
    ((engine.withSource source').renderEntry entry .empty).result = .error (.notFound "b") := by
  intro source source' engine entry
  have hRequests : (engine.renderEntry entry .empty).requests = [⟨"a", ["a"]⟩, ⟨"b", ["b"]⟩] := by
    unfold engine entry source
    cbv
  have hResult : (engine.renderEntry entry .empty).result = .error (.notFound "b") := by
    unfold engine entry source
    cbv
  have hAlike : AnswerAlike source source' (engine.renderEntry entry .empty).requests := by
    rw [hRequests]
    simp [AnswerAlike, source']
  refine ⟨hRequests, hAlike, ?_⟩
  rw [(engine.unasked_never_matters .empty entry).1 source' hAlike]
  exact hResult

end Engine

end Stencil
