import Mathlib
import Stencil.Engine
import Stencil.Proofs.Levels
import Stencil.Proofs.Names

/-!
# Stencil — includes and pasted text

An include renders another template in its place. That template is fetched and parsed as the include
is reached, under a longer chain of includes; written into the text instead, it is cut and parsed
along with what is around it. This module proves that both come to the same.

* `Seamless` — nothing in a template depends on what is written after it: its tags are closed, and
  it does not end with half of an opening pair.
* `SelfContained` — a seamless template whose loops are its own, so that it reads alike anywhere.
* `SelfContained.steps` — a walk over it adds the nodes that it has by itself.
* `improvedBy_paste` — the tree with the include is improved by the tree with the text in its place.
* `Engine.include_is_paste` — so a render with the include is a render with the text.
-/

namespace Stencil

open Text

/-- No text of the template runs into what is written after it. -/
structure Seamless (template : String) : Prop where
  tags : TagsClosed template
  ends : ¬ EndsOpening template

/-- Written anywhere, the template is read as by itself. -/
structure SelfContained (template : String) : Prop extends Seamless template where
  /-- As many loops are closed as are opened, and none before it is opened. -/
  loops : levelAfter 0 (Token.scan template) = some 0

namespace TagFits

variable {content : String}

/-- A tag by itself is seamless. -/
theorem seamless (h : TagFits content (tagSource content)) : Seamless (tagSource content) := by
  constructor
  case tags =>
    intro text position hMem
    rw [h.scan] at hMem
    simp at hMem
  case ends =>
    rintro ⟨text, position, hLast, -⟩
    rw [h.scan] at hLast
    simp at hLast

theorem atomsOf_tagSource (h : TagFits content (tagSource content)) :
    atomsOf (tagSource content) = [.tag content (tagSource content) .start] := by
  rw [atomsOf, h.scan]
  rfl

end TagFits

/-- Every loop that the template opens is closed. -/
def LoopsClosed (template : String) : Prop :=
  openAfter 0 (Token.scan template) = 0

/-- A name that may stand in an include tag just as it is. -/
structure Includable (name : String) : Prop where
  admissible : TemplateName.Admissible name
  trimmed    : TemplateName.Trimmed name
  noPair     : ¬ HasPair '}' name.toList
  ends       : name.toList.getLast? ≠ some '}'

/-- The tag that includes a template. -/
def includeSource (name : String) : String :=
  tagSource ("include:" ++ name)

theorem toList_includeContent (name : String) :
    ("include:" ++ name).toList = includeMark ++ name.toList :=
  String.toList_append

namespace Includable

variable {name : String}

theorem name_ne_nil (h : Includable name) : name.toList ≠ [] := by
  intro hEmpty
  refine h.admissible.notBlank ?_
  rw [hEmpty]
  rfl

theorem noPair_content (h : Includable name) : ¬ HasPair '}' ("include:" ++ name).toList := by
  have hPair := h.noPair
  rw [toList_includeContent]
  cases hName : name.toList with
  | nil => exact absurd hName h.name_ne_nil
  | cons c cs =>
    rw [hName] at hPair
    simp [includeMark, hasPair_cons_cons, hPair]

theorem getLast?_content (h : Includable name) :
    ("include:" ++ name).toList.getLast? = name.toList.getLast? := by
  rw [toList_includeContent, List.getLast?_append_of_ne_nil _ h.name_ne_nil]

theorem trim_content (h : Includable name) :
    trim ("include:" ++ name).toList = ("include:" ++ name).toList := by
  rw [trim_eq_self_iff, h.getLast?_content]
  refine ⟨?_, (trim_eq_self_iff.mp h.trimmed).2⟩
  rw [toList_includeContent]
  intro c hHead
  obtain rfl : 'i' = c := by simpa [includeMark] using hHead
  decide

/-- An include tag is one tag, with the mark and the name in it. -/
theorem tagFits (h : Includable name) :
    TagFits ("include:" ++ name) (tagSource ("include:" ++ name)) := by
  refine ⟨_, rfl, h.noPair_content, ?_, ?_⟩
  · rw [h.getLast?_content]
    exact h.ends
  · rw [h.trim_content, String.ofList_toList]

theorem seamless (h : Includable name) : Seamless (includeSource name) := h.tagFits.seamless

theorem meaning_include (h : Includable name) {p : Parser}
    (hChain : p.constructs = Construct.standard) (depth : Nat) (raw : String)
    (position : Position) :
    p.meaning depth (.tag ("include:" ++ name) raw position) =
      .ok (.node (.inclusion name position)) := by
  have hTarget : includeTarget ("include:" ++ name) = .ok name := by
    refine includeTarget_eq_ok_iff.mpr ⟨_, toList_includeContent name, ?_, h.admissible⟩
    rw [show trim name.toList = name.toList from h.trimmed, String.ofList_toList]
  have hFind : p.constructs.find? (·.claims ("include:" ++ name)) = some .inclusion := by
    simp [hChain, Construct.standard, Construct.claims, loopWord, includeMark]
  simp only [Parser.meaning, hFind, hTarget]
  rfl

/-- A walk over the tag adds the include, wherever it stands. -/
theorem steps_includeSource (h : Includable name) {p : Parser}
    (hChain : p.constructs = Construct.standard) (pass : Pass) :
    Pass.steps p.meaning (atomsOf (includeSource name)) pass =
      .ok (pass.addAll [.inclusion name .start]) := by
  have hAtoms : atomsOf (includeSource name) =
      [.tag ("include:" ++ name) (includeSource name) .start] := h.tagFits.atomsOf_tagSource
  have hStay : ¬ (Token.tag ("include:" ++ name) (includeSource name) .start).isTag loopEnd := by
    intro hTag
    have hContent : "include:" ++ name = loopEnd := beq_iff_eq.mp hTag
    have hChars := toList_includeContent name
    rw [hContent] at hChars
    exact absurd (congrArg List.head? hChars) (by simp [loopEnd, includeMark])
  rw [hAtoms, Pass.steps, Pass.step_stay fun hClose => hStay hClose.1,
    h.meaning_include hChain]
  rfl

end Includable

/-! ## The two trees -/

/-- The atoms of a template with another in the middle of it. -/
theorem atomsOf_between {before inner : String} (after : String) (hBefore : Seamless before)
    (hInner : Seamless inner) :
    atomsOf (before ++ inner ++ after) = atomsOf before ++ (atomsOf inner ++ atomsOf after) := by
  rw [String.append_assoc, atomsOf_append hBefore.tags fun h => absurd h hBefore.ends,
    atomsOf_append hInner.tags fun h => absurd h hInner.ends]

/-- **A self-contained template is read anywhere as by itself**: a walk over it adds the nodes that
it has when nothing is open. -/
theorem SelfContained.steps {content : String} (hContent : SelfContained content) {p : Parser}
    (hChain : p.constructs = Construct.standard) {seam last : Pass}
    (hSteps : Pass.steps p.meaning (atomsOf content) seam = .ok last) :
    ∃ own, Pass.steps p.meaning (atomsOf content) {} = .ok own ∧ own.loops = [] ∧
      last = seam.addAll own.nodes.reverse := by
  have hLevel : levelAfter ({} : Pass).loops.length (atomsOf content) = some 0 := by
    rw [atomsOf, levelAfter_atoms]
    exact hContent.loops
  -- the walk at the seam is one on top of it that has read nothing yet
  have hOnSeam : Pass.steps p.meaning (atomsOf content) (({} : Pass).on seam) = .ok last := hSteps
  obtain ⟨own, hOwn, rfl, hLength⟩ := Parser.steps_on hChain hLevel hOnSeam
  have hClosed : own.loops = [] := List.length_eq_zero_iff.mp hLength
  exact ⟨own, hOwn, hClosed, Pass.on_of_closed seam hClosed⟩

open Pass in
/-- **The text of an include improves it**, wherever the include stands. -/
theorem Parser.improvedBy_paste {p : Parser} {source : TemplateSource}
    (hChain : p.constructs = Construct.standard) {before name content after : String}
    {nodes nodes' : List Node} (hName : Includable name) (hSource : source name = .ok content)
    (hContent : SelfContained content) (hBefore : Seamless before)
    (hClosed : LoopsClosed (before ++ includeSource name ++ after))
    (hParse : p.parseText (before ++ includeSource name ++ after) = .ok nodes)
    (hParse' : p.parseText (before ++ content ++ after) = .ok nodes') :
    (p.over source).ImprovedBy nodes nodes' := by
  have hR := congruence_improvedBy (p.over source)
  -- both templates, atom by atom
  obtain ⟨last, hSteps, hNodes⟩ := (p.fate_parseText (p.over source) _).ok_right hParse
  obtain ⟨last', hSteps', hNodes'⟩ := (p.fate_parseText (p.over source) _).ok_right hParse'
  have hLast : last.loops = [] := by
    rw [← List.length_eq_zero_iff, Parser.length_steps hChain hSteps, atomsOf, openAfter_atoms]
    exact hClosed
  rw [atomsOf_between after hBefore hName.seamless] at hSteps
  rw [atomsOf_between after hBefore hContent.toSeamless] at hSteps'
  -- up to the seam the two walks are one
  obtain ⟨seam, hFront, hRest⟩ := steps_append_eq_ok_iff.mp hSteps
  obtain ⟨seam', hFront', hRest'⟩ := steps_append_eq_ok_iff.mp hSteps'
  obtain rfl : seam = seam' := Except.ok.inj (hFront.symm.trans hFront')
  obtain ⟨included, hInclude, hAfter⟩ := steps_append_eq_ok_iff.mp hRest
  obtain ⟨pasted, hPaste, hAfter'⟩ := steps_append_eq_ok_iff.mp hRest'
  -- one adds the include, and the other what the text has for nodes by itself
  have hIncluded : included = seam.addAll [.inclusion name .start] :=
    Except.ok.inj (hInclude.symm.trans (hName.steps_includeSource hChain seam))
  obtain ⟨own, hOwn, hOwnClosed, rfl⟩ := hContent.steps hChain hPaste
  obtain ⟨tree, hTree, hAlike⟩ := (p.fate_parseText (p.over source) content).ok_left hOwn
  have hImproved : (p.over source).ImprovedBy [.inclusion name .start] own.nodes.reverse :=
    ((p.over source).improvedBy_of_source hSource hTree .start).congr (.refl _)
      (hAlike hOwnClosed).symm
  have hSeam : included.Beside (p.over source).ImprovedBy (seam.addAll own.nodes.reverse) := by
    rw [hIncluded]
    exact (Beside.refl hR seam).addAll hR hImproved
  -- from there on they go side by side
  obtain ⟨last'', hAfter'', hBeside⟩ :=
    (beside_steps hR p.meaning (atomsOf after) hSeam).ok_right hAfter
  obtain rfl : last' = last'' := Except.ok.inj (hAfter'.symm.trans hAfter'')
  exact hBeside.nodes.congr (hNodes hLast) (hNodes' (hBeside.loops_eq_nil_iff.mpr hLast))

/-! ## Whole renders -/

namespace Engine

/--
**Including a template is pasting its text.** Take any engine with the standard chain, whatever its
limits, and any source that has a self-contained text for an includable name. Write an include of
that name after any text that is seamless and in front of any text, inside loops or not, such that
all loops are closed in what comes of it. If the same with the text in place of the include can be
parsed, then whatever the one renders to, in any context, the other renders to as well.
-/
theorem include_is_paste (engine : Engine) (hChain : engine.parser.constructs = Construct.standard)
    {before name content after : String} (hName : Includable name)
    (hSource : engine.source name = .ok content) (hContent : SelfContained content)
    (hBefore : Seamless before) (hClosed : LoopsClosed (before ++ includeSource name ++ after))
    {nodes : List Node} (hParse : engine.parser.parseText (before ++ content ++ after) = .ok nodes)
    (c : Context) {text : String}
    (hRender : (engine.renderText (before ++ includeSource name ++ after) c).result = .ok text) :
    (engine.renderText (before ++ content ++ after) c).result = .ok text := by
  cases hInclude : engine.parser.parseText (before ++ includeSource name ++ after) with
  | error e =>
    rw [renderText_of_malformed hInclude] at hRender
    cases hRender
  | ok nodes' =>
    have hImproved : engine.renderer.ImprovedBy nodes' nodes :=
      Parser.improvedBy_paste hChain hName hSource hContent hBefore hClosed hInclude hParse
    rw [renderText_of_parse hInclude] at hRender
    rw [renderText_of_parse hParse]
    -- both start in the same session
    have hEased := Session.Eases.refl (.start engine.limits)
    exact (hImproved _ _ (Nat.le_refl _) c _ _ hEased text hRender).1

set_option maxRecDepth 20000 in
/-- The theorem at an include inside a loop, of a template that is a loop itself. -/
theorem include_is_paste_inside_loop :
    let content :=
      "\x7b\x7bfor y in ys\x7d\x7d\x7b\x7bx\x7d\x7d\x7b\x7by\x7d\x7d\x7b\x7b/for\x7d\x7d"
    let engine : Engine := .ofSource fun _ => .ok content
    let before := "\x7b\x7bfor x in xs\x7d\x7d<"
    let after := ">\x7b\x7b/for\x7d\x7d"
    let c : Context :=
      .ofBindings [("xs", .list [.string "1", .string "2"]), ("ys", .list [.string "a"])]
    Includable "row" ∧ SelfContained content ∧ Seamless before ∧
    LoopsClosed (before ++ includeSource "row" ++ after) ∧
    (engine.renderText (before ++ includeSource "row" ++ after) c).result = .ok "<1a><2a>" ∧
    (engine.renderText (before ++ content ++ after) c).result = .ok "<1a><2a>" := by
  intro content engine before after c
  have hName : Includable "row" :=
    ⟨⟨by decide, by decide⟩, rfl, by decide, by decide⟩
  have hContentScan : Token.scan content =
      [.tag "for y in ys" "\x7b\x7bfor y in ys\x7d\x7d" ⟨1, 1⟩,
        .tag "x" "\x7b\x7bx\x7d\x7d" ⟨1, 16⟩, .tag "y" "\x7b\x7by\x7d\x7d" ⟨1, 21⟩,
        .tag "/for" "\x7b\x7b/for\x7d\x7d" ⟨1, 26⟩] := by
    unfold content
    cbv
  have hContent : SelfContained content := by
    refine ⟨⟨?_, ?_⟩, ?_⟩
    · intro text position hMem
      simp [hContentScan] at hMem
    · rintro ⟨text, position, hLast, -⟩
      simp [hContentScan] at hLast
    · rw [hContentScan]
      decide
  have hBeforeScan : Token.scan before =
      [.tag "for x in xs" "\x7b\x7bfor x in xs\x7d\x7d" ⟨1, 1⟩, .text "<" ⟨1, 16⟩] := by
    unfold before
    cbv
  have hBefore : Seamless before := by
    constructor
    case tags =>
      intro text position hMem
      obtain ⟨rfl, -⟩ : text = "<" ∧ _ := by simpa [hBeforeScan] using hMem
      decide
    case ends =>
      rintro ⟨text, position, hLast, hHalf⟩
      obtain ⟨rfl, -⟩ : "<" = text ∧ _ := by simpa [hBeforeScan] using hLast
      exact absurd hHalf (by decide)
  have hScan : Token.scan (before ++ includeSource "row" ++ after) =
      [.tag "for x in xs" "\x7b\x7bfor x in xs\x7d\x7d" ⟨1, 1⟩, .text "<" ⟨1, 16⟩,
        .tag "include:row" "\x7b\x7binclude:row\x7d\x7d" ⟨1, 17⟩, .text ">" ⟨1, 32⟩,
        .tag "/for" "\x7b\x7b/for\x7d\x7d" ⟨1, 33⟩] := by
    unfold before after
    cbv
  have hClosed : LoopsClosed (before ++ includeSource "row" ++ after) := by
    rw [LoopsClosed, hScan]
    decide
  have hTree : engine.parser.parseText (before ++ includeSource "row" ++ after) =
      .ok [.loop "x" "xs" [.text "<" ⟨1, 16⟩, .inclusion "row" ⟨1, 17⟩, .text ">" ⟨1, 32⟩]
        ⟨1, 1⟩] := by
    rw [Parser.parseText, hScan, Parser.parse_eq_run]
    rfl
  have hOwnTree : engine.parser.parseText content =
      .ok [.loop "y" "ys" [.placeholder "x" ⟨1, 16⟩, .placeholder "y" ⟨1, 21⟩] ⟨1, 1⟩] := by
    rw [Parser.parseText, hContentScan, Parser.parse_eq_run]
    rfl
  have hRender : (engine.renderText (before ++ includeSource "row" ++ after) c).result =
      .ok "<1a><2a>" := by
    have hInside (name : String) (c : Context) (s : Session) (onInclude : IncludeRule) :
        engine.renderer.renderTemplate onInclude name c s =
          engine.renderer.renderNodes onInclude
            [.loop "y" "ys" [.placeholder "x" ⟨1, 16⟩, .placeholder "y" ⟨1, 21⟩] ⟨1, 1⟩] c s := by
      rw [Renderer.renderTemplate_of_ok _ rfl, Renderer.parsed_of_ok _ hOwnTree]
    rw [renderText_of_parse hTree]
    show (engine.renderer.renderNodes (engine.renderer.renderInclude 10) _ _ _).result = _
    simp only [Renderer.renderNodes, Renderer.renderNode, Renderer.renderInclude, hInside]
    rfl
  obtain ⟨nodes, hParse⟩ : ∃ nodes,
      engine.parser.parseText (before ++ content ++ after) = .ok nodes := by
    refine ⟨[.loop "x" "xs" [.text "<" ⟨1, 16⟩, .loop "y" "ys" [.placeholder "x" ⟨1, 32⟩,
      .placeholder "y" ⟨1, 37⟩] ⟨1, 17⟩, .text ">" ⟨1, 50⟩] ⟨1, 1⟩], ?_⟩
    unfold engine before after content
    cbv
  exact ⟨hName, hContent, hBefore, hClosed, hRender,
    engine.include_is_paste rfl hName rfl hContent hBefore hClosed hParse c hRender⟩

end Engine

end Stencil
