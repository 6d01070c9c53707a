import Stencil.Engine
import Stencil.Proofs.Walks

/-!
# Stencil — templates that only substitute

A template without loops and includes is rendered token by token: texts are copied, and a tag shows
the value at its path, or stays where it is. Nothing can go wrong, and nothing is asked of the
source or charged to the session.

A tag that stays is written without the blanks around its content. So where nothing is substituted,
the output is the template with its tags tidied up, and rendering it once more changes nothing. That
is so unless the content of a tag ends with a closing brace: `{{a} }}` would be written `{{a}}}`,
and be cut after the second brace of three.

* `tagContents` — what stands in the tags of a template. `Substitutive` templates have neither loops
  nor includes, by these contents.
* `substituted` — the text of a token in the output.
* `Token.tidy` — a tag without blanks. A cut is kept by tidying (`WellCut.map_tidy`), so the tokens
  of a tidied template are the tidied tokens (`scan_tidied`).
* `Engine.substitutes_and_settles` — rendering is substitution, and what it leaves is stable.
-/

namespace Stencil

open Text

-- ---------------------------------------------------------------------------
-- Tags and their texts
-- ---------------------------------------------------------------------------

/-- The trimmed content of a tag. -/
def Token.tagContent? : Token → Option String
  | .text ..         => none
  | .tag content _ _ => some content

/-- The trimmed contents of the tags of a template, in order. -/
def tagContents (template : String) : List String :=
  (Token.scan template).filterMap Token.tagContent?

/-- No tag of the template starts like a loop or an include. -/
def Substitutive (template : String) : Prop :=
  ∀ content ∈ tagContents template,
    ¬ loopWord <+: content.toList ∧ ¬ includeMark <+: content.toList

theorem forall_tagContent?_cons {P : String → Prop} {t : Token} {ts : List Token} :
    (∀ content ∈ (t :: ts).filterMap Token.tagContent?, P content) ↔
      (∀ content ∈ t.tagContent?, P content) ∧
      ∀ content ∈ ts.filterMap Token.tagContent?, P content := by
  cases t <;> simp [Token.tagContent?]

/-- The text of a token in output: a text is copied, and so is a tag that is no path or leads
nowhere; otherwise null is no text, and any other value has its canonical form. -/
def substituted (c : Context) : Token → String
  | .text content _ => content
  | .tag content _ _ =>
    if isPath content.toList then
      match c.lookup? content with
      | none       => tagSource content
      | some .null => ""
      | some v     => v.render
    else tagSource content

/-- The node of a token that opens no loop and includes nothing. -/
def Token.leaf : Token → Node
  | .text content position => .text content position
  | .tag content _ position =>
    if isPath content.toList then .placeholder content position
    else .text (tagSource content) position

-- ---------------------------------------------------------------------------
-- Rendering is substitution
-- ---------------------------------------------------------------------------

namespace Parser

variable {p : Parser}

theorem meaning_leaf (hChain : p.constructs = Construct.standard) {t : Token}
    (hPlain : ∀ content ∈ t.tagContent?,
      ¬ loopWord <+: content.toList ∧ ¬ includeMark <+: content.toList) (depth : Nat) :
    p.meaning depth t = .ok (.node t.leaf) := by
  cases t with
  | text content position => rfl
  | tag content raw position =>
    obtain ⟨hNoLoop, hNoInclude⟩ := hPlain content rfl
    rw [← List.isPrefixOf_iff_prefix, Bool.not_eq_true] at hNoLoop hNoInclude
    simp only [meaning, hChain, Construct.standard, List.find?_cons, Construct.claims, hNoLoop,
      hNoInclude, Token.leaf]
    cases isPath content.toList <;> rfl

/-- No loop opens, so no tag can close one, and each token adds its node. -/
theorem run_leaves (hChain : p.constructs = Construct.standard) {tokens : List Token}
    (hPlain : ∀ content ∈ tokens.filterMap Token.tagContent?,
      ¬ loopWord <+: content.toList ∧ ¬ includeMark <+: content.toList) (nodes : List Node) :
    Pass.run p.meaning tokens ⟨nodes, []⟩ = .ok (nodes.reverse ++ tokens.map Token.leaf) := by
  induction tokens generalizing nodes with
  | nil => simp [Pass.run, Pass.finish]
  | cons t ts ih =>
    obtain ⟨hHere, hLater⟩ := forall_tagContent?_cons.mp hPlain
    have hStay : ¬ Pass.Closes ⟨nodes, []⟩ t := fun hClose => hClose.2 rfl
    rw [Pass.run, Pass.step_stay hStay, meaning_leaf hChain hHere]
    show Pass.run p.meaning ts ⟨t.leaf :: nodes, []⟩ = _
    rw [ih hLater, List.map_cons, List.reverse_cons, List.append_assoc]
    rfl

theorem parseText_leaves (hChain : p.constructs = Construct.standard) {template : String}
    (hPlain : Substitutive template) :
    p.parseText template = .ok ((Token.scan template).map Token.leaf) := by
  rw [parseText, parse_eq_run]
  exact run_leaves hChain hPlain []

end Parser

namespace Renderer

variable (r : Renderer) (onInclude : IncludeRule)

theorem renderNode_leaf (t : Token) (c : Context) (s : Session) :
    r.renderNode onInclude t.leaf c s = .done (substituted c t) s := by
  cases t with
  | text content position => rfl
  | tag content raw position =>
    unfold Token.leaf substituted
    by_cases hPath : isPath content.toList = true
    · simp only [if_pos hPath, renderNode, placeholderText]
      rcases c.lookup? content with _ | v
      · rfl
      · cases v <;> rfl
    · simp only [if_neg hPath, renderNode]

/-- The texts of the tokens, one after the other, and nothing else. -/
theorem renderNodes_leaves (tokens : List Token) (c : Context) (s : Session) :
    r.renderNodes onInclude (tokens.map Token.leaf) c s =
      .done (String.join (tokens.map (substituted c))) s := by
  induction tokens with
  | nil => rfl
  | cons t ts ih =>
    rw [List.map_cons, List.map_cons, String.join_cons, renderNodes, renderNode_leaf]
    calc (Outcome.done (substituted c t) s).andThen
          (r.renderNodes onInclude (ts.map Token.leaf) c)
        = (Outcome.done (substituted c t) s).andThen
            (.done (String.join (ts.map (substituted c)))) := Outcome.andThen_congr ih
      _ = .done (substituted c t ++ String.join (ts.map (substituted c))) s := rfl

end Renderer

-- ---------------------------------------------------------------------------
-- Tags tidied up
-- ---------------------------------------------------------------------------

/-- The token with no blanks around the content of its tag. -/
def Token.tidy : Token → Token
  | .text content position  => .text content position
  | .tag content _ position => .tag content (tagSource content) position

/-- What is trimmed off takes no pair along and makes no new one. -/
theorem not_hasPair_trim {c : Char} {cs : List Char} (hNone : ¬ HasPair c cs) :
    ¬ HasPair c (trim cs) := by
  have hInfix : trim cs <:+: cs :=
    (List.rdropWhile_prefix _ _).isInfix.trans (List.dropWhile_suffix _).isInfix
  exact fun hPair => hNone (List.IsInfix.trans hPair hInfix)

/-- **Tidying keeps a cut**, if no content ends with half of a closing pair. -/
theorem WellCut.map_tidy {tokens : List Token} (hCut : WellCut tokens)
    (hEnds : ∀ content ∈ tokens.filterMap Token.tagContent?,
      content.toList.getLast? ≠ some '}') : WellCut (tokens.map Token.tidy) := by
  induction tokens with
  | nil => trivial
  | cons t ts ih =>
    obtain ⟨hFits, hRest⟩ := hCut
    obtain ⟨hHere, hLater⟩ := forall_tagContent?_cons.mp hEnds
    refine ⟨?_, ih hRest hLater⟩
    cases t with
    | text content position =>
      -- what is asked of a text depends on the kinds of the tokens behind it alone
      obtain ⟨hNonempty, hPlain, hTail, hHalf, hAdjacent⟩ := hFits
      refine ⟨hNonempty, hPlain, fun hUnclosed => ?_, fun hMore => hHalf ?_, ?_⟩
      · rw [hTail hUnclosed]
        rfl
      · rintro rfl
        exact hMore rfl
      · rcases ts with _ | ⟨_ | _, ts⟩
        · trivial
        · obtain ⟨rfl, hUnclosed⟩ := hAdjacent
          exact ⟨rfl, hUnclosed⟩
        · trivial
    | tag content raw position =>
      have hEnd : content.toList.getLast? ≠ some '}' := hHere content rfl
      obtain ⟨inner, -, hNoPair, -, rfl⟩ := hFits
      refine ⟨_, rfl, ?_, hEnd, ?_⟩
      · rw [String.toList_ofList]
        exact not_hasPair_trim hNoPair
      · rw [String.toList_ofList, trim_trim]

/-- The tokens of a tidied template are its tokens, tidied. -/
theorem scan_tidied {template : String}
    (hEnds : ∀ content ∈ tagContents template, content.toList.getLast? ≠ some '}') :
    (Token.scan (sourceOf ((Token.scan template).map Token.tidy))).map Token.unplaced =
      ((Token.scan template).map Token.tidy).map Token.unplaced := by
  have hCut : WellCut (Token.scan template) := wellCut_locate_pieces template.toList .start
  rw [Token.scan, map_unplaced_locate, toList_sourceOf]
  exact map_pieces_of_wellCut (hCut.map_tidy hEnds)

-- ---------------------------------------------------------------------------
-- What does not depend on places and blanks
-- ---------------------------------------------------------------------------

theorem tagContent?_unplaced (t : Token) : t.unplaced.tagContent? = t.tagContent? := by
  cases t <;> rfl

theorem tagContent?_tidy (t : Token) : t.tidy.tagContent? = t.tagContent? := by
  cases t <;> rfl

theorem substituted_unplaced (c : Context) (t : Token) :
    substituted c t.unplaced = substituted c t := by
  cases t <;> rfl

theorem substituted_tidy (c : Context) (t : Token) : substituted c t.tidy = substituted c t := by
  cases t <;> rfl

/-- A tag that is not substituted is tidied. -/
theorem substituted_eq_source_tidy {c : Context} {t : Token}
    (hUnbound : ∀ content ∈ t.tagContent?, isPath content.toList = true →
      c.lookup? content = none) : substituted c t = t.tidy.source := by
  cases t with
  | text content position => rfl
  | tag content raw position =>
    by_cases hPath : isPath content.toList = true
    · have hNone := hUnbound content rfl hPath
      simp only [substituted, if_pos hPath, hNone]
      rfl
    · simp only [substituted, if_neg hPath]
      rfl

section Tidied

variable {template out : String}
  (hScan : (Token.scan out).map Token.unplaced =
    ((Token.scan template).map Token.tidy).map Token.unplaced)

include hScan

/-- Whatever looks at neither places nor blanks is the same over both templates. -/
theorem map_scan_of_tidied {α : Type} {f : Token → α} (hUnplaced : ∀ t, f t.unplaced = f t)
    (hTidy : ∀ t, f t.tidy = f t) : (Token.scan out).map f = (Token.scan template).map f := by
  have hMap := congrArg (List.map f) hScan
  simpa only [List.map_map, Function.comp_def, hUnplaced, hTidy] using hMap

theorem tagContents_of_tidied : tagContents out = tagContents template := by
  have hMap := map_scan_of_tidied hScan tagContent?_unplaced tagContent?_tidy
  have hJoin := congrArg (List.filterMap id) hMap
  rw [List.filterMap_map, List.filterMap_map] at hJoin
  exact hJoin

end Tidied

namespace Engine

/--
**Rendering is substitution, and what it leaves is stable.** Take any engine with the standard
chain, whatever its limits and its source, any template none of whose tags starts like a loop or an
include, and any context. The render succeeds; its text is put together token by token: texts as
they are, a path that leads to a value as nothing for null and as the canonical form of any other
value, and every other tag between its braces without the blanks; no loop is charged and no question
asked.

If moreover no content of a tag ends with a closing brace and no path leads to a value, rendering
that text in the same context gives it back, and its tags have the same contents in the same order.
-/
theorem substitutes_and_settles (engine : Engine)
    (hChain : engine.parser.constructs = Construct.standard) {template : String}
    (hPlain : Substitutive template) (c : Context) :
    let out := String.join ((Token.scan template).map (substituted c))
    engine.renderText template c = .done out (.start engine.limits) ∧
    ((∀ content ∈ tagContents template, content.toList.getLast? ≠ some '}' ∧
        (isPath content.toList = true → c.lookup? content = none)) →
      engine.renderText out c = .done out (.start engine.limits) ∧
      tagContents out = tagContents template) := by
  intro out
  have hRender : ∀ template, Substitutive template → engine.renderText template c =
      .done (String.join ((Token.scan template).map (substituted c))) (.start engine.limits) := by
    intro template hPlain
    rw [renderText_of_parse (Parser.parseText_leaves hChain hPlain)]
    exact engine.renderer.renderNodes_leaves _ _ c _
  refine ⟨hRender template hPlain, fun hStable => ?_⟩
  -- nothing is substituted, so the output is the template with its tags tidied up
  have hOut : out = sourceOf ((Token.scan template).map Token.tidy) := by
    have hTexts : (Token.scan template).map (substituted c) =
        (Token.scan template).map fun t => t.tidy.source := by
      refine List.map_congr_left fun t hMem => substituted_eq_source_tidy fun content hContent => ?_
      exact (hStable content (List.mem_filterMap.mpr ⟨t, hMem, hContent⟩)).2
    rw [sourceOf, List.map_map]
    exact congrArg String.join hTexts
  have hScan := scan_tidied fun content hContent => (hStable content hContent).1
  rw [← hOut] at hScan
  have hContents : tagContents out = tagContents template := tagContents_of_tidied hScan
  have hAgain : Substitutive out := by
    unfold Substitutive
    rw [hContents]
    exact hPlain
  have hTexts := map_scan_of_tidied hScan (substituted_unplaced c) (substituted_tidy c)
  refine ⟨?_, hContents⟩
  rw [hRender out hAgain, hTexts]

set_option maxRecDepth 20000 in
/-- The theorem at a stray closing tag, a tag that is no path, and half of an opening pair, in a
context with a list and null and in one that binds nothing. -/
theorem substitutes_and_settles_at_stray_tags :
    let engine : Engine := .ofSource fun name => .error (.notFound name)
    let template := "\x7b\x7b xs \x7d\x7d, \x7b\x7b/for\x7d\x7d\x7b\x7b a b \x7d\x7d" ++
      "\x7b\x7bn\x7d\x7d\x7b"
    let tidied := "\x7b\x7bxs\x7d\x7d, \x7b\x7b/for\x7d\x7d\x7b\x7ba b\x7d\x7d" ++
      "\x7b\x7bn\x7d\x7d\x7b"
    let bound : Context := .ofBindings [("xs", .list [.bool true, .null]), ("n", .null)]
    Substitutive template ∧
    (∀ content ∈ tagContents template, content.toList.getLast? ≠ some '}' ∧
      (isPath content.toList = true → Context.empty.lookup? content = none)) ∧
    (engine.renderText template bound).result =
      .ok "[true,null], \x7b\x7b/for\x7d\x7d\x7b\x7ba b\x7d\x7d\x7b" ∧
    (engine.renderText template .empty).result = .ok tidied ∧
    (engine.renderText tidied .empty).result = .ok tidied ∧
    tagContents tidied = ["xs", "/for", "a b", "n"] := by
  intro engine template tidied bound
  have hScan : Token.scan template =
      [.tag "xs" "\x7b\x7b xs \x7d\x7d" ⟨1, 1⟩, .text ", " ⟨1, 9⟩,
        .tag "/for" "\x7b\x7b/for\x7d\x7d" ⟨1, 11⟩,
        .tag "a b" "\x7b\x7b a b \x7d\x7d" ⟨1, 19⟩, .tag "n" "\x7b\x7bn\x7d\x7d" ⟨1, 28⟩,
        .text "\x7b" ⟨1, 33⟩] := by
    unfold template
    cbv
  have hContents : tagContents template = ["xs", "/for", "a b", "n"] := by
    rw [tagContents, hScan]
    rfl
  have hPlain : Substitutive template := by
    unfold Substitutive
    rw [hContents]
    decide
  have hStable : ∀ content ∈ tagContents template, content.toList.getLast? ≠ some '}' ∧
      (isPath content.toList = true → Context.empty.lookup? content = none) := by
    rw [hContents]
    intro content hMem
    have hUnbound : ∀ path, Context.empty.lookup? path = none := fun _ => rfl
    exact ⟨by revert content; decide, fun _ => hUnbound content⟩
  have hBound := (engine.substitutes_and_settles rfl hPlain bound).1
  have hUnbound := engine.substitutes_and_settles rfl hPlain .empty
  have hOut : String.join ((Token.scan template).map (substituted .empty)) = tidied := by
    rw [hScan]
    rfl
  rw [hOut] at hUnbound
  obtain ⟨hFirst, hSettles⟩ := hUnbound
  obtain ⟨hAgain, hTags⟩ := hSettles hStable
  refine ⟨hPlain, hStable, ?_, by rw [hFirst]; rfl, by rw [hAgain]; rfl, hTags.trans hContents⟩
  rw [hBound, hScan]
  rfl

end Engine

end Stencil
