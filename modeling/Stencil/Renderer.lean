import Stencil.Context
import Stencil.Parser
import Stencil.Session

/-!
# Stencil — rendering

Nodes are rendered in order and their texts joined; the first failure ends everything and no text is
left. Text is copied. A placeholder shows the value at its path, and stays as a tag when there is
none. A loop is charged to the budget, then renders its body once per item; a collection that is
missing or no list renders nothing. An include enters the chain, fetches another template, parses it
and renders it in the context of its tag, and leaves the chain again, whatever came of it.

The session runs on from node to node. How deep includes may still nest is handed down as a number
of levels; a session has room for so many and no more, so rendering ends whatever the templates
include.

* `TemplateSource`, `TemplateReader` — where the texts of templates come from, and what reads them.
* `Renderer.renderNodes`   — a list of nodes, for a given way to render includes.
* `Renderer.renderInclude` — an include, with so many levels for it and those inside it.
* `Session.evaluate`       — a list of nodes in a session.
* `Renderer.render`, `Renderer.renderText` — a template by its name or from text, in a session that
  starts. A name is checked before the source is asked for it.
-/

namespace Stencil

/-- A source of templates: the text of a name, or why there is none. -/
abbrev TemplateSource := String → Except Error String

/-- A reader of templates: the trees of a text, or what is wrong with it. A parser is one, and so is
anything else that knows forms of tags of its own. -/
structure TemplateReader where
  parseText : String → Except Error (List Node)

instance : Coe Parser TemplateReader where
  coe p := { parseText := p.parseText }

/-- A question to a source. -/
structure Request where
  /-- The name that the source is asked for. -/
  name  : String
  /-- The includes that are active when it is asked; an include is active itself. -/
  chain : List String := []
  deriving DecidableEq, Repr

/-- What rendering needs besides nodes, context and session. -/
structure Renderer where
  parser : TemplateReader
  source : TemplateSource

/-- The renderer that reads the templates of `source` with `p`. -/
def Parser.over (p : Parser) (source : TemplateSource) : Renderer := { parser := p, source }

/-- What comes of rendering: a text or an error, the session by then, and the questions to the
source, in order. -/
structure Outcome where
  result   : Except Error String
  session  : Session
  requests : List Request := []

namespace Outcome

/-- A text, and the session as it is. -/
def done (text : String) (s : Session) : Outcome := { result := .ok text, session := s }

/-- An error, and the session as it is. -/
def fail (e : Error) (s : Session) : Outcome := { result := .error e, session := s }

/-- `o`, then `next` in the session reached, the texts joined. Nothing follows an error. -/
def andThen (o : Outcome) (next : Session → Outcome) : Outcome :=
  match o.result with
  | .error _ => o
  | .ok text =>
    let o' := next o.session
    { result := o'.result.map (text ++ ·)
      session := o'.session
      requests := o.requests ++ o'.requests }

/-- `o` after a question to the source. -/
def asking (request : Request) (o : Outcome) : Outcome :=
  { o with requests := request :: o.requests }

/-- `o` once the innermost include is left. -/
def leaving (o : Outcome) : Outcome :=
  { o with session := o.session.leaveInclude }

/-- One outcome after the other, the session running on. -/
def sequence : List (Session → Outcome) → Session → Outcome
  | [], s => done "" s
  | step :: steps, s => (step s).andThen (sequence steps)

end Outcome

/-- How an include is rendered: from its name, the context of its tag and the session. -/
abbrev IncludeRule := String → Context → Session → Outcome

/-- The text of a placeholder. -/
def placeholderText (c : Context) (path : String) : String :=
  match c.lookup? path with
  | some v => v.render
  | none => tagSource path

namespace Renderer

mutual

/-- Renders one node. -/
def renderNode (r : Renderer) (onInclude : IncludeRule) : Node → Context → Session → Outcome
  | .text text _, _, s => .done text s
  | .placeholder path _, c, s => .done (placeholderText c path) s
  | .inclusion name _, c, s => onInclude name c s
  | .loop item collection body _, c, s =>
    -- the budget is charged before it is known whether there is anything to go through
    match s.recordLoop with
    | .error e => .fail e s
    | .ok s =>
      match (c.lookup? collection).bind Value.items? with
      | none => .done "" s
      | some items =>
        Outcome.sequence (items.map fun v => renderNodes r onInclude body (c.forItem item v)) s
termination_by structural node => node

/-- Renders nodes in order. -/
def renderNodes (r : Renderer) (onInclude : IncludeRule) : List Node → Context → Session → Outcome
  | [], _, s => .done "" s
  | node :: nodes, c, s =>
    (renderNode r onInclude node c s).andThen (renderNodes r onInclude nodes c)
termination_by structural nodes => nodes

end

/-- Fetches a template, parses it and renders it. -/
def renderTemplate (r : Renderer) (onInclude : IncludeRule) : IncludeRule := fun name c s =>
  match r.source name with
  | .error e => .fail e s
  | .ok text =>
    match r.parser.parseText text with
    | .error e => .fail e s
    | .ok nodes => r.renderNodes onInclude nodes c s

/-- Renders an include, with `levels` levels for it and the includes inside it. -/
def renderInclude (r : Renderer) : (levels : Nat) → IncludeRule
  | 0, name, _, s =>
    match s.enterInclude name with
    | .error e => .fail e s
    -- a session has no more room than it was given levels, so it refuses the name itself
    | .ok _ => .fail (.depthExceeded s.limits.maxIncludeDepth) s
  | levels + 1, name, c, s =>
    match s.enterInclude name with
    | .error e => .fail e s
    | .ok entered =>
      ((r.renderTemplate (r.renderInclude levels) name c entered).asking
        { name, chain := entered.chain }).leaving

end Renderer

/-- Renders nodes in a session, with as many levels of includes as the session has room for. -/
def Session.evaluate (s : Session) (r : Renderer) (nodes : List Node) (c : Context) : Outcome :=
  r.renderNodes (r.renderInclude s.room) nodes c s

namespace Renderer

/-- Renders the text of a template, in a session that starts. -/
def renderText (r : Renderer) (limits : Limits) (template : String) (c : Context) : Outcome :=
  let s := Session.start limits
  match r.parser.parseText template with
  | .error e => .fail e s
  | .ok nodes => s.evaluate r nodes c

/-- Renders the template of the given name. -/
def render (r : Renderer) (limits : Limits) (name : String) (c : Context) : Outcome :=
  let s := Session.start limits
  match TemplateName.check name with
  | .error e => .fail e s
  | .ok () =>
    Outcome.asking { name } <|
      match r.source name with
      | .error e => .fail e s
      | .ok template => r.renderText limits template c

variable {r : Renderer} {limits : Limits} {template name : String} {c : Context} {e : Error}

theorem renderText_of_error (hParse : r.parser.parseText template = .error e) :
    r.renderText limits template c = .fail e (.start limits) := by
  simp only [renderText, hParse]

theorem renderText_of_ok {nodes : List Node} (hParse : r.parser.parseText template = .ok nodes) :
    r.renderText limits template c = (Session.start limits).evaluate r nodes c := by
  simp only [renderText, hParse]

/-- A name that is refused is not asked for. -/
theorem render_of_refused (hCheck : TemplateName.check name = .error e) :
    r.render limits name c = .fail e (.start limits) := by
  simp only [render, hCheck]

theorem render_of_error (hCheck : TemplateName.check name = .ok ())
    (hSource : r.source name = .error e) :
    r.render limits name c = (Outcome.fail e (.start limits)).asking { name } := by
  simp only [render, hCheck, hSource]

theorem render_of_ok (hCheck : TemplateName.check name = .ok ())
    (hSource : r.source name = .ok template) :
    r.render limits name c = (r.renderText limits template c).asking { name } := by
  simp only [render, hCheck, hSource]

end Renderer

end Stencil
