import Stencil.Engine
import Stencil.Proofs.Kept

/-!
# Stencil — rendering without levels

Rendering hands down how many levels of includes may still nest, and ends because of that. A session
knows as much by itself: it has room for exactly so many more, and it is left with the same room by
everything that is rendered in it. This module takes the levels away again and says what rendering
does in terms of sessions alone.

* `Session.room_eq_of_kept`, `room_of_enterInclude` — a session that is kept has as much room as
  before, and one that was entered by an include has room for one less.
* `Renderer.include_succeeds` — what has to hold for an include to succeed.
* `Session.evaluate_cons` — trees are rendered one after the other.
* `Session.renderInclude_room` — an include enters the chain, or is refused; what was fetched and
  parsed is rendered in the session entered; and the chain is left again. No level stands in the
  way.
* `Session.evaluate_loop` — a loop renders its body for each item in the session reached.
* `Session.IncludeStep` — the four things that can become of an include.
* `Session.evaluate_induction` — induction along rendering: over the trees at hand, and over those
  of every template that is included on the way.
-/

namespace Stencil

theorem Session.room_eq_of_kept {s s' : Session} (hKept : s.Kept s') : s'.room = s.room := by
  rw [room, room, hKept.limits, hKept.chain]

/-- An include takes one off the room. -/
theorem Session.room_of_enterInclude {s entered : Session} {name : String}
    (hEnter : s.enterInclude name = .ok entered) : s.room = entered.room + 1 := by
  obtain ⟨-, hRoom, rfl⟩ := enterInclude_eq_ok_iff.mp hEnter
  have hLength : (s.chain ++ [name]).length = s.chain.length + 1 := by simp
  unfold room at hRoom ⊢
  dsimp only
  omega

theorem Outcome.andThen_congr {o : Outcome} {next next' : Session → Outcome}
    (hNext : next o.session = next' o.session) : o.andThen next = o.andThen next' := by
  cases hResult : o.result with
  | error e => rw [andThen_of_error hResult, andThen_of_error hResult]
  | ok text => rw [andThen_of_ok hResult, andThen_of_ok hResult, hNext]

theorem Outcome.sequence_congr {α : Type} {step step' : α → Session → Outcome} {P : Session → Prop}
    (hStep : ∀ a s, P s → step a s = step' a s) (hKept : ∀ a s, P s → P (step' a s).session)
    (as : List α) {s : Session} (hStart : P s) :
    sequence (as.map step) s = sequence (as.map step') s := by
  induction as generalizing s with
  | nil => rfl
  | cons a as ih =>
    show (step a s).andThen _ = (step' a s).andThen _
    rw [hStep a s hStart]
    exact andThen_congr (ih (hKept a s hStart))

namespace Renderer

variable (r : Renderer)

/-- One node keeps the session, as a list of one does. -/
theorem kept_renderNode {onInclude : IncludeRule} (hRule : onInclude.Keeps) (node : Node)
    (c : Context) (s : Session) : s.Kept (r.renderNode onInclude node c s).session := by
  cases node with
  | text content position => exact Session.Kept.refl s
  | placeholder path position => exact Session.Kept.refl s
  | inclusion name position => exact hRule name c s
  | loop item collection body position =>
    exact r.kept_loop (r.kept_renderNodes hRule body) item collection position c s

variable {s entered : Session} {name template : String} {nodes : List Node}

/-- An include renders the trees of its template in the session entered. -/
theorem renderInclude_of_parsed (hEnter : s.enterInclude name = .ok entered)
    (hSource : r.source name = .ok template) (hParse : r.parser.parseText template = .ok nodes)
    (levels : Nat) (c : Context) :
    r.renderInclude (levels + 1) name c s =
      ((r.renderNodes (r.renderInclude levels) nodes c entered).asking
        { name, chain := entered.chain }).leaving := by
  rw [r.renderInclude_succ_of_ok hEnter, r.renderTemplate_of_ok hSource, r.parsed_of_ok hParse]

/-- An include that succeeds was let in, and its template was found and could be parsed. -/
theorem include_succeeds {levels : Nat} {c : Context} {text : String}
    (hOk : (r.renderInclude levels name c s).result = .ok text) :
    ∃ inner entered template nodes, levels = inner + 1 ∧ s.enterInclude name = .ok entered ∧
      r.source name = .ok template ∧ r.parser.parseText template = .ok nodes := by
  cases hEnter : s.enterInclude name with
  | error e =>
    rw [r.renderInclude_of_error hEnter] at hOk
    cases hOk
  | ok entered =>
    cases levels with
    | zero =>
      unfold renderInclude at hOk
      rw [hEnter] at hOk
      cases hOk
    | succ levels =>
      rw [r.renderInclude_succ_of_ok hEnter] at hOk
      cases hSource : r.source name with
      | error e =>
        rw [r.renderTemplate_of_error hSource] at hOk
        cases hOk
      | ok template =>
        rw [r.renderTemplate_of_ok hSource] at hOk
        cases hParse : r.parser.parseText template with
        | error e =>
          rw [r.parsed_of_error hParse] at hOk
          cases hOk
        | ok nodes => exact ⟨levels, entered, template, nodes, rfl, rfl, rfl, hParse⟩

end Renderer

namespace Session

variable (s : Session) (r : Renderer) (c : Context)

/-- Rendering with the levels that a session has room for is rendering in the session. -/
theorem renderNodes_room {levels : Nat} (hRoom : s.room = levels) (nodes : List Node) :
    r.renderNodes (r.renderInclude levels) nodes c s = s.evaluate r nodes c := by
  rw [evaluate, hRoom]

/-- Trees are rendered one after the other, each in the session that the one before left. -/
theorem evaluate_cons (node : Node) (nodes : List Node) :
    s.evaluate r (node :: nodes) c =
      (r.renderNode (r.renderInclude s.room) node c s).andThen fun s => s.evaluate r nodes c := by
  rw [evaluate, Renderer.renderNodes]
  have hKept := r.kept_renderNode (r.keeps_renderInclude s.room) node c s
  exact Outcome.andThen_congr (renderNodes_room _ r c (room_eq_of_kept hKept) nodes)

/-- **Includes need no levels.** An include is refused, or what was fetched and parsed for it is
rendered in the session entered. -/
theorem renderInclude_room (name : String) :
    r.renderInclude s.room name c s =
      match s.enterInclude name with
      | .error e => .fail e s
      | .ok entered =>
        (Outcome.asking { name, chain := entered.chain } <|
          match r.source name with
          | .error e => .fail e entered
          | .ok template =>
            r.parsed template entered fun nodes => entered.evaluate r nodes c).leaving := by
  cases hEnter : s.enterInclude name with
  | error e => exact r.renderInclude_of_error hEnter s.room c
  | ok entered =>
    -- the session entered has room for one less, which is what is handed down
    rw [room_of_enterInclude hEnter, r.renderInclude_succ_of_ok hEnter]
    cases hSource : r.source name with
    | error e => rw [r.renderTemplate_of_error hSource]
    | ok template =>
      rw [r.renderTemplate_of_ok hSource]
      simp only [entered.renderNodes_room r c rfl]

/-- A loop is charged, and its body is rendered for each item in the session reached. -/
theorem evaluate_loop (item collection : String) (body : List Node) (position : Position) :
    r.renderNode (r.renderInclude s.room) (.loop item collection body position) c s =
      match s.recordLoop with
      | .error e => .fail e s
      | .ok charged =>
        match (c.lookup? collection).bind Value.items? with
        | none => .done "" charged
        | some items =>
          Outcome.sequence (items.map fun v s => s.evaluate r body (c.forItem item v)) charged := by
  rw [r.renderNode_loop]
  cases hRecord : s.recordLoop with
  | error e => rfl
  | ok charged =>
    show r.renderItems _ item collection body c charged = _
    unfold Renderer.renderItems
    cases (c.lookup? collection).bind Value.items? with
    | none => rfl
    | some items =>
      -- every item leaves the session with the room that it had
      refine Outcome.sequence_congr (P := fun s' => s'.room = s.room) ?_ ?_ items
        (room_eq_of_kept (kept_recordLoop hRecord))
      · intro v s' hRoom
        exact s'.renderNodes_room r _ hRoom body
      · intro v s' hRoom
        exact (room_eq_of_kept (s'.kept_evaluate r body _)).trans hRoom

/-- What can become of an include: it is refused, or its template is not there, or cannot be parsed,
or is rendered in the session entered. -/
inductive IncludeStep (name : String) : Outcome → Prop
  | refused {e : Error} (hEnter : s.enterInclude name = .error e) :
      IncludeStep name (.fail e s)
  | missing {entered : Session} {e : Error} (hEnter : s.enterInclude name = .ok entered)
      (hSource : r.source name = .error e) :
      IncludeStep name ((Outcome.fail e entered).asking { name, chain := entered.chain }).leaving
  | malformed {entered : Session} {template : String} {e : Error}
      (hEnter : s.enterInclude name = .ok entered) (hSource : r.source name = .ok template)
      (hParse : r.parser.parseText template = .error e) :
      IncludeStep name ((Outcome.fail e entered).asking { name, chain := entered.chain }).leaving
  | rendered {entered : Session} {template : String} {nodes : List Node}
      (hEnter : s.enterInclude name = .ok entered) (hSource : r.source name = .ok template)
      (hParse : r.parser.parseText template = .ok nodes) :
      IncludeStep name ((entered.evaluate r nodes c).asking { name, chain := entered.chain }).leaving

theorem includeStep (name : String) : s.IncludeStep r c name (r.renderInclude s.room name c s) := by
  rw [s.renderInclude_room]
  cases hEnter : s.enterInclude name with
  | error e => exact .refused hEnter
  | ok entered =>
    cases hSource : r.source name with
    | error e => exact .missing hEnter hSource
    | ok template =>
      cases hParse : r.parser.parseText template with
      | error e =>
        simp only [r.parsed_of_error hParse]
        exact .malformed hEnter hSource hParse
      | ok nodes =>
        simp only [r.parsed_of_ok hParse]
        exact .rendered hEnter hSource hParse

/--
**Induction along rendering.** What is to be shown of trees, a context and a session may be assumed
of everything that rendering them renders next: the trees behind a node in any session that the node
may leave, the body of a loop in the context of any item, and the trees of a template in the session
that its include enters.
-/
theorem evaluate_induction (r : Renderer) {P : List Node → Context → Session → Prop}
    (nil : ∀ c s, P [] c s)
    (text : ∀ content position nodes c s, P nodes c s → P (.text content position :: nodes) c s)
    (placeholder : ∀ path position nodes c s, P nodes c s →
      P (.placeholder path position :: nodes) c s)
    (inclusion : ∀ name position nodes c s,
      (∀ entered template inner, s.enterInclude name = .ok entered →
        r.source name = .ok template → r.parser.parseText template = .ok inner →
        P inner c entered) →
      (∀ s', s.Kept s' → P nodes c s') → P (.inclusion name position :: nodes) c s)
    (loop : ∀ item collection body position nodes c s,
      (∀ v s', s.Kept s' → P body (c.forItem item v) s') → (∀ s', s.Kept s' → P nodes c s') →
      P (.loop item collection body position :: nodes) c s)
    (nodes : List Node) (c : Context) (s : Session) : P nodes c s := by
  -- on the room of the session, which only an include takes from, and then on the trees
  induction hRoom : s.room using Nat.strongRecOn generalizing nodes c s with
  | ind room ih =>
    induction nodes using Node.forest_induction generalizing c s with
    | nil => exact nil c s
    | text content position nodes ihNodes => exact text _ _ _ c s (ihNodes c s hRoom)
    | placeholder path position nodes ihNodes => exact placeholder _ _ _ c s (ihNodes c s hRoom)
    | inclusion name position nodes ihNodes =>
      refine inclusion _ _ _ c s ?_ ?_
      · intro entered template inner hEnter hSource hParse
        have hLess := room_of_enterInclude hEnter
        exact ih entered.room (by omega) inner c entered rfl
      · intro s' hKept
        exact ihNodes c s' ((room_eq_of_kept hKept).trans hRoom)
    | loop item collection body position nodes ihBody ihNodes =>
      refine loop _ _ _ _ _ c s ?_ ?_
      · intro v s' hKept
        exact ihBody _ s' ((room_eq_of_kept hKept).trans hRoom)
      · intro s' hKept
        exact ihNodes c s' ((room_eq_of_kept hKept).trans hRoom)

end Session

namespace Engine

variable {engine : Engine} {template : String}

/-- A render that succeeds has parsed its text. -/
theorem parses_of_renderText {text : String} {c : Context}
    (hRender : (engine.renderText template c).result = .ok text) :
    ∃ nodes, engine.parser.parseText template = .ok nodes := by
  cases hParse : engine.parser.parseText template with
  | error e =>
    rw [renderText_of_malformed hParse] at hRender
    cases hRender
  | ok nodes => exact ⟨nodes, rfl⟩

end Engine

end Stencil
