import Stencil.Renderer

/-!
# Stencil — engines

An engine holds a source of templates, a parser and usable limits, and renders templates by name or
from text. Each render starts a session of its own, so nothing is carried from one to the next.

* `Engine.withLimits` — an engine, unless a limit is zero.
* `Engine.render`, `Engine.renderText` — the text of a template, with the names asked for.
* `Engine.parse`      — the tree of a named template.
* `Engine.describe`   — the engine in one line.
-/

namespace Stencil

/-- What renders templates. -/
structure Engine where
  source : TemplateSource
  limits : Limits := {}
  parser : Parser := {}

namespace Engine

/-- An engine with the standard limits. -/
def ofSource (source : TemplateSource) : Engine := { source }

/-- An engine with limits of one's own, all of them above zero. -/
def withLimits (source : TemplateSource) (limits : Limits) : Except Error Engine :=
  match limits.check with
  | .error e => .error e
  | .ok () => .ok { source, limits, parser := ({} : Parser).withLimits limits }

/-- The engine with another chain of constructs; its nesting limit stays in force. -/
def withParser (engine : Engine) (parser : Parser) : Engine :=
  { engine with parser := parser.withLimits engine.limits }

/-- What the engine renders with. -/
def renderer (engine : Engine) : Renderer := engine.parser.over engine.source

/-- Renders the text of a template. -/
def renderText (engine : Engine) (template : String) (c : Context) : Outcome :=
  engine.renderer.renderText engine.limits template c

/-- Renders the template of the given name. -/
def render (engine : Engine) (name : String) (c : Context) : Outcome :=
  engine.renderer.render engine.limits name c

variable {engine : Engine} {template name : String} {c : Context} {e : Error}

theorem renderText_of_malformed (hParse : engine.parser.parseText template = .error e) :
    engine.renderText template c = .fail e (.start engine.limits) :=
  Renderer.renderText_of_error hParse

theorem renderText_of_parse {nodes : List Node}
    (hParse : engine.parser.parseText template = .ok nodes) :
    engine.renderText template c =
      (Session.start engine.limits).evaluate engine.renderer nodes c :=
  Renderer.renderText_of_ok hParse

theorem render_of_refused (hCheck : TemplateName.check name = .error e) :
    engine.render name c = .fail e (.start engine.limits) :=
  Renderer.render_of_refused hCheck

theorem render_of_missing (hCheck : TemplateName.check name = .ok ())
    (hSource : engine.source name = .error e) :
    engine.render name c = (Outcome.fail e (.start engine.limits)).asking { name } :=
  Renderer.render_of_error hCheck hSource

theorem render_of_source (hCheck : TemplateName.check name = .ok ())
    (hSource : engine.source name = .ok template) :
    engine.render name c = (engine.renderText template c).asking { name } :=
  Renderer.render_of_ok hCheck hSource

/-- The tree of the template of the given name, and the questions to the source. -/
def parse (engine : Engine) (name : String) : Except Error (List Node) × List Request :=
  match TemplateName.check name with
  | .error e => (.error e, [])
  | .ok () => ((engine.source name).bind engine.parser.parseText, [{ name }])

end Engine

/-- The limits in one line. -/
def Limits.describe (limits : Limits) : String :=
  "EngineConfig \x7b max_include_depth: " ++ toString limits.maxIncludeDepth ++
    ", max_loop_evaluations: " ++ toString limits.maxLoopEvaluations ++
    ", max_loop_nesting: " ++ toString limits.maxLoopNesting ++ " \x7d"

/-- The parser in one line. -/
def Parser.describe (p : Parser) : String :=
  let names := p.constructs.map fun construct => "\"" ++ construct.name ++ "\""
  "Parser \x7b constructs: [" ++ ", ".intercalate names ++
    "], max_loop_nesting: " ++ toString p.maxLoopNesting ++ " \x7d"

/-- The engine in one line. -/
def Engine.describe (engine : Engine) : String :=
  "TemplateEngine \x7b config: " ++ engine.limits.describe ++
    ", parser: " ++ engine.parser.describe ++ ", .. \x7d"

end Stencil
