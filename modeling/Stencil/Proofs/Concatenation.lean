import Stencil.Proofs.Later
import Stencil.Proofs.Recovery

/-!
# Stencil — templates written one after the other, rendered

Two templates written one after the other render as the first does and then as the second does, if
the cut between them is a safe one: every tag of the first is closed, each of its loops too, and the
two do not make an opening pair where they meet. The second may be anything, with closing tags that
close nothing, loops that are never closed and a tag that is never closed.

Cutting and parsing each have their part in it. Around the cut two texts become one, and behind it
everything changes its place; a loop that is never closed is kept as it was written, which may start
within a template but never before it.

* `Pass.Abreast` — walks side by side in which the same is written from each open tag on. So a
  template may be parsed atom by atom, loops that are never closed included (`fate_parse_atoms`).
* `Parser.parse_append` — parsing tokens after others that leave no loop open: the trees of the
  first and then those of the others, or the error of the others.
* `Engine.renderText_append` — so two templates render one after the other, with the loops of both.
-/

namespace Stencil

-- ---------------------------------------------------------------------------
-- Atom by atom, to the end
-- ---------------------------------------------------------------------------

theorem source_atoms (t : Token) : sourceOf t.atoms = t.source := by
  rw [← String.toList_inj, toList_sourceOf]
  cases t with
  | text content position => simp [Token.atoms, Token.source, List.flatMap_map]
  | tag content raw position => simp [Token.atoms, Token.source]

theorem sourceOf_atoms (tokens : List Token) :
    sourceOf (tokens.flatMap Token.atoms) = sourceOf tokens := by
  induction tokens with
  | nil => rfl
  | cons t ts ih =>
    rw [List.flatMap_cons, sourceOf_append, ih, source_atoms]
    exact (sourceOf_append [t] ts).symm

theorem forall₂_getLast? {α β : Type} {R : α → β → Prop} {as : List α} {bs : List β}
    (h : List.Forall₂ R as bs) :
    (as = [] ∧ bs = []) ∨ ∃ a b, as.getLast? = some a ∧ bs.getLast? = some b ∧ R a b := by
  induction h with
  | nil => exact .inl ⟨rfl, rfl⟩
  | @cons a b as bs hFirst hRest ih =>
    rcases ih with ⟨rfl, rfl⟩ | ⟨a', b', hLast, hLast', hR⟩
    · exact .inr ⟨a, b, rfl, rfl, hFirst⟩
    · refine .inr ⟨a', b', ?_, ?_, hR⟩
      · rw [List.getLast?_cons, hLast, Option.getD_some]
      · rw [List.getLast?_cons, hLast', Option.getD_some]

namespace Pass

/-- The walks stand beside each other, and the same text is written from each open tag on. -/
structure Abreast (r : Renderer) (pass pass' : Pass) : Prop
    extends Pass.Beside r.Alike pass pass' where
  written : pass.loops.map (fun l => sourceOf l.written) =
    pass'.loops.map fun l => sourceOf l.written

variable {r : Renderer} {pass pass' : Pass}

theorem Abreast.refl (r : Renderer) (pass : Pass) : pass.Abreast r pass :=
  ⟨Beside.refl (congruence_alike r) pass, rfl⟩

theorem Abreast.addAll (h : pass.Abreast r pass') {nodes nodes' : List Node}
    (hNodes : r.Alike nodes nodes') : (pass.addAll nodes).Abreast r (pass'.addAll nodes') :=
  ⟨h.toBeside.addAll (congruence_alike r) hNodes, h.written⟩

theorem Abreast.enter (h : pass.Abreast r pass') (header : LoopHeader) (p p' : Position)
    {written written' : List Token} (hWritten : sourceOf written = sourceOf written') :
    (pass.enter header p written).Abreast r (pass'.enter header p' written') := by
  refine ⟨h.toBeside.enter (congruence_alike r) header p p' written written', ?_⟩
  show sourceOf written :: _ = sourceOf written' :: _
  rw [hWritten, h.written]

theorem Abreast.close (h : pass.Abreast r pass') : pass.close.Abreast r pass'.close := by
  refine ⟨h.toBeside.close (congruence_alike r), ?_⟩
  obtain ⟨nodes, loops⟩ := pass
  obtain ⟨nodes', loops'⟩ := pass'
  have hWritten := h.written
  cases h.loops with
  | nil => rfl
  | cons hFirst hRest => exact (List.cons.inj hWritten).2

/-- In the end the walks have trees that render alike: either no loop is open, or the outermost one
becomes the same text. -/
theorem Abreast.finish (h : pass.Abreast r pass') : r.Alike pass.finish pass'.finish := by
  rcases forall₂_getLast? h.loops with ⟨hNone, hNone'⟩ | ⟨l, l', hLast, hLast', hBeside⟩
  · unfold Pass.finish
    rw [hNone, hNone']
    exact h.nodes
  · have hText : sourceOf l.written = sourceOf l'.written := by
      have hBottom := congrArg List.getLast? h.written
      simpa [List.getLast?_map, hLast, hLast'] using hBottom
    unfold Pass.finish
    rw [hLast, hLast']
    dsimp only
    rw [hText]
    exact hBeside.before.append (r.alike_moveTo (.text _ l.position) l'.position)

end Pass

namespace Parser

open Pass

theorem run_texts (p : Parser) (cs : List Char) (q : Position) (rest : List Token) (pass : Pass) :
    run p.meaning ((cs.map fun c => .text (String.singleton c) q) ++ rest) pass =
      run p.meaning rest (pass.addAll (cs.map fun c => .text (String.singleton c) q)) := by
  induction cs generalizing pass with
  | nil => rfl
  | cons c cs ih =>
    have hStay : ¬ pass.Closes (.text (String.singleton c) q) := fun hClose => nomatch hClose.1
    rw [List.map_cons, List.map_cons, List.cons_append, run, step_stay hStay, addAll_cons, ← ih]
    rfl

/-- Walking over tokens to their end, and walking over their atoms to theirs. -/
theorem abreast_run (p : Parser) (tokens : List Token) {pass pass' : Pass}
    (h : pass.Abreast r pass') :
    SameFate r.Alike (run p.meaning tokens pass)
      (run p.meaning (tokens.flatMap Token.atoms) pass') := by
  induction tokens generalizing pass pass' with
  | nil => exact .ok h.finish
  | cons t ts ih =>
    rw [List.flatMap_cons]
    cases t with
    | text content position =>
      have hStay : ¬ pass.Closes (.text content position) := fun hClose => nomatch hClose.1
      rw [run, step_stay hStay, Token.atoms, p.run_texts]
      exact ih (h.addAll (r.alike_characters content position .start))
    | tag content raw position =>
      have hSame : pass'.Closes (.tag content raw .start) ↔
          pass.Closes (.tag content raw position) := h.closes_iff (.tag content raw .start)
      rw [Token.atoms, List.singleton_append, run, run]
      by_cases hClose : pass.Closes (.tag content raw position)
      · rw [step_close hClose, step_close (hSame.mpr hClose)]
        exact ih h.close
      · have hMoved := p.moved_meaning pass.loops.length content raw position .start
        rw [step_stay hClose, step_stay (mt hSame.mp hClose), ← h.loops.length_eq]
        generalize p.meaning pass.loops.length (.tag content raw position) = x at hMoved ⊢
        generalize p.meaning pass.loops.length (.tag content raw .start) = y at hMoved ⊢
        cases hMoved with
        | error e e' => exact .error e e'
        | ok hMeaning =>
          cases hMeaning with
          | node node => exact ih (h.addAll (r.alike_moveTo node .start))
          | loop header =>
            -- the rest of the template is written alike, cut into atoms or not
            refine ih (h.enter header position .start ?_)
            have hAtoms := sourceOf_atoms (.tag content raw position :: ts)
            exact hAtoms.symm

/-- **A template may be parsed atom by atom.** -/
theorem fate_parse_atoms (r : Renderer) (p : Parser) (template : String) :
    SameFate r.Alike (p.parseText template) (p.parse (atomsOf template)) := by
  rw [parseText, parse_eq_run, parse_eq_run]
  exact p.abreast_run (Token.scan template) (.refl r {})

end Parser

-- ---------------------------------------------------------------------------
-- Walks on closed ground
-- ---------------------------------------------------------------------------

namespace Pass

variable {meaning : Nat → Token → Except Error Meaning} {outer : Pass}

theorem getLast?_stack (hGround : outer.loops = []) (nodes : List Node) (loops : List OpenLoop) :
    (stack outer nodes loops).loops.getLast? =
      loops.getLast?.map fun l => { l with before := l.before ++ outer.nodes } := by
  induction loops generalizing nodes with
  | nil =>
    show outer.loops.getLast? = none
    rw [hGround]
    rfl
  | cons l ls ih =>
    cases ls with
    | nil =>
      show (_ :: outer.loops).getLast? = _
      rw [hGround]
      rfl
    | cons m ms =>
      -- the bottom is that of the loops further out
      rw [List.getLast?_cons_cons, ← ih l.before]
      exact List.getLast?_cons_cons

/-- What stands on closed ground ends up behind the nodes of the ground. -/
theorem finish_on (hGround : outer.loops = []) (inner : Pass) :
    (inner.on outer).finish = outer.nodes.reverse ++ inner.finish := by
  have hBottom := getLast?_stack hGround inner.nodes inner.loops
  obtain ⟨nodes, loops⟩ := inner
  show (stack outer nodes loops).finish = _
  unfold Pass.finish
  rw [hBottom]
  cases loops with
  | nil => simp [stack]
  | cons l ls =>
    obtain ⟨last, hLast⟩ : ∃ last, (l :: ls).getLast? = some last :=
      ⟨_, List.getLast?_eq_some_getLast (List.cons_ne_nil l ls)⟩
    simp [hLast]

/-- **A walk on closed ground** goes as it would by itself. -/
theorem run_on (hGround : outer.loops = []) (tokens : List Token) (inner : Pass) :
    run meaning tokens (inner.on outer) =
      (run meaning tokens inner).map (outer.nodes.reverse ++ ·) := by
  induction tokens generalizing inner with
  | nil => exact congrArg Except.ok (finish_on hGround inner)
  | cons t ts ih =>
    have hLength : (inner.on outer).loops.length = inner.loops.length := by
      rw [length_loops_on, hGround]
      rfl
    have hSame : (inner.on outer).Closes t ↔ inner.Closes t := by
      unfold Closes
      rw [← List.length_pos_iff, ← List.length_pos_iff, hLength]
    rw [run, run]
    by_cases hClose : inner.Closes t
    · rw [step_close hClose, step_close (hSame.mpr hClose), ← close_on outer hClose.2]
      exact ih inner.close
    · rw [step_stay hClose, step_stay (mt hSame.mp hClose), hLength]
      cases meaning inner.loops.length t with
      | error e => rfl
      | ok m =>
        simp only [Except.map]
        rw [← does_on]
        exact ih (inner.does t ts m)

end Pass

namespace Parser

open Pass

variable {p : Parser}

/-- **Parsing tokens after others**, of which the first leave no loop open. -/
theorem parse_append (hChain : p.constructs = Construct.standard) {ts us : List Token}
    (hClosed : openAfter 0 ts = 0) {nodes : List Node} (hParse : p.parse ts = .ok nodes) :
    p.parse (ts ++ us) = (p.parse us).map (nodes ++ ·) := by
  have hAlone : p.parse (ts ++ []) = .ok nodes := by
    rw [List.append_nil]
    exact hParse
  obtain ⟨ground, hSteps, hLength⟩ := exists_steps hChain hAlone
  have hGround : ground.loops = [] := by
    rw [← List.length_eq_zero_iff, hLength]
    exact hClosed
  have hNodes : nodes = ground.nodes.reverse := by
    rw [parse_append_of_steps hSteps hGround, run, finish, hGround] at hAlone
    exact (Except.ok.inj hAlone).symm
  rw [parse_append_of_steps hSteps hGround us, parse_eq_run, hNodes]
  -- nothing has been read yet on top of the ground
  have hHere : ({} : Pass).on ground = ground := rfl
  rw [← run_on hGround us {}, hHere]

/-- **The tree of two templates**, cut at a safe place, renders as the trees of both. -/
theorem alike_append (r : Renderer) {p : Parser} (hChain : p.constructs = Construct.standard)
    {s₁ s₂ : String} (hTags : TagsClosed s₁) (hLoops : LoopsClosed s₁)
    (hSeam : EndsOpening s₁ → s₂.toList.head? ≠ some '{') {nodes₁ nodes₂ : List Node}
    (h₁ : p.parseText s₁ = .ok nodes₁) (h₂ : p.parseText s₂ = .ok nodes₂) :
    ∃ nodes, p.parseText (s₁ ++ s₂) = .ok nodes ∧ r.Alike nodes (nodes₁ ++ nodes₂) := by
  obtain ⟨front, hFront, hAlike₁⟩ := (fate_parse_atoms r p s₁).ok_right h₁
  obtain ⟨back, hBack, hAlike₂⟩ := (fate_parse_atoms r p s₂).ok_right h₂
  have hClosed : openAfter 0 (atomsOf s₁) = 0 := by
    rw [atomsOf, openAfter_atoms]
    exact hLoops
  have hBoth : p.parse (atomsOf (s₁ ++ s₂)) = .ok (front ++ back) := by
    rw [atomsOf_append hTags hSeam, parse_append hChain hClosed hFront, hBack]
    rfl
  obtain ⟨nodes, hNodes, hAlike⟩ := (fate_parse_atoms r p (s₁ ++ s₂)).ok_left hBoth
  refine ⟨nodes, hNodes, fun onInclude c s => ?_⟩
  rw [hAlike onInclude c s]
  exact (hAlike₁.append hAlike₂).symm onInclude c s

end Parser

namespace Engine

/--
**Two templates render one after the other.** Take any engine with the standard chain, whatever its
limits and its source, and two templates of which the first has no text with an opening pair in it
and leaves no loop open, and does not end with half of an opening pair if the second starts with the
other half. If both render in some context, and the budget has room for the loops of both, then
written one after the other they render to the text of the first and then that of the second, with
the loops of both, and by the questions of the first and then those of the second.
-/
theorem renderText_append (engine : Engine) (hChain : engine.parser.constructs = Construct.standard)
    {s₁ s₂ : String} (hTags : TagsClosed s₁) (hLoops : LoopsClosed s₁)
    (hSeam : ¬ (EndsOpening s₁ ∧ s₂.toList.head? = some '{')) (c : Context) {out₁ out₂ : String}
    (h₁ : (engine.renderText s₁ c).result = .ok out₁)
    (h₂ : (engine.renderText s₂ c).result = .ok out₂)
    (hBudget : (engine.renderText s₁ c).session.loops + (engine.renderText s₂ c).session.loops ≤
      engine.limits.maxLoopEvaluations) :
    (engine.renderText (s₁ ++ s₂) c).result = .ok (out₁ ++ out₂) ∧
    (engine.renderText (s₁ ++ s₂) c).session.loops =
      (engine.renderText s₁ c).session.loops + (engine.renderText s₂ c).session.loops ∧
    (engine.renderText (s₁ ++ s₂) c).requests =
      (engine.renderText s₁ c).requests ++ (engine.renderText s₂ c).requests := by
  obtain ⟨nodes₁, hParse₁⟩ := parses_of_renderText h₁
  obtain ⟨nodes₂, hParse₂⟩ := parses_of_renderText h₂
  obtain ⟨nodes, hParse, hAlike⟩ :=
    Parser.alike_append engine.renderer hChain hTags hLoops
      (fun hEnds hHead => hSeam ⟨hEnds, hHead⟩) hParse₁ hParse₂
  rw [renderText_of_parse hParse₁] at h₁ hBudget ⊢
  rw [renderText_of_parse hParse₂] at h₂ hBudget ⊢
  let start := Session.start engine.limits
  let r := engine.renderer
  have hKept₁ := start.kept_evaluate r nodes₁ c
  have hKept₂ := start.kept_evaluate r nodes₂ c
  -- the second template starts with the loops of the first
  have hBetween : (start.evaluate r nodes₁ c).session =
      start.later (start.evaluate r nodes₁ c).session.loops :=
    Session.eq_later_of_kept hKept₁ (Nat.zero_add _).symm
  have hSecond : (start.later (start.evaluate r nodes₁ c).session.loops).evaluate r nodes₂ c =
      (start.evaluate r nodes₂ c).later (start.evaluate r nodes₁ c).session.loops := by
    refine Session.evaluate_later r nodes₂ c start _ out₂ h₂ ?_
    rw [hKept₂.limits, Nat.add_comm]
    exact hBudget
  have hRest : (start.evaluate r nodes₁ c).session.evaluate r nodes₂ c =
      (start.evaluate r nodes₂ c).later (start.evaluate r nodes₁ c).session.loops :=
    (congrArg (fun s => s.evaluate r nodes₂ c) hBetween).trans hSecond
  have hBoth : engine.renderText (s₁ ++ s₂) c =
      (start.evaluate r nodes₁ c).andThen fun s => s.evaluate r nodes₂ c := by
    rw [renderText_of_parse hParse, ← Session.evaluate_append]
    exact hAlike _ c start
  have hText : (start.evaluate r nodes₂ c).result.map (out₁ ++ ·) = .ok (out₁ ++ out₂) := by
    rw [h₂]
    rfl
  rw [hBoth, Outcome.andThen_of_ok h₁, hRest]
  exact ⟨hText, Nat.add_comm _ _, rfl⟩

set_option maxRecDepth 20000 in
/-- The theorem at a cut within a text, with a closing tag that closes nothing, a loop that is never
closed and a tag that is never closed behind it, and a budget for the two loops and no more. -/
theorem renderText_append_at_stray_tags :
    let engine : Engine :=
      { source := fun name => .error (.notFound name), limits := { maxLoopEvaluations := 2 } }
    let first := "\x7b\x7bfor x in xs\x7d\x7d\x7b\x7bx\x7d\x7d\x7b\x7b/for\x7d\x7da\x7b"
    let closer := "b\x7b\x7b/for\x7d\x7d"
    let loop := "\x7b\x7bfor y in xs\x7d\x7d\x7b\x7by\x7d\x7d;\x7b\x7b/for\x7d\x7d"
    let lost := "\x7b\x7bfor z in xs\x7d\x7d\x7b\x7bz"
    let c : Context := .ofBindings [("xs", .list [.string "1", .string "2"])]
    (engine.renderText first c).result = .ok "12a\x7b" ∧
    (engine.renderText (closer ++ loop ++ lost) c).result = .ok (closer ++ "1;2;" ++ lost) ∧
    (engine.renderText (first ++ (closer ++ loop ++ lost)) c).result =
      .ok ("12a\x7b" ++ (closer ++ "1;2;" ++ lost)) ∧
    (engine.renderText (first ++ (closer ++ loop ++ lost)) c).session.loops = 2 := by
  intro engine first closer loop lost c
  have hScan : Token.scan first = [.tag "for x in xs" "\x7b\x7bfor x in xs\x7d\x7d" ⟨1, 1⟩,
      .tag "x" "\x7b\x7bx\x7d\x7d" ⟨1, 16⟩, .tag "/for" "\x7b\x7b/for\x7d\x7d" ⟨1, 21⟩,
      .text "a\x7b" ⟨1, 29⟩] := by
    unfold first
    cbv
  have hTags : TagsClosed first := by
    intro content position hMem
    obtain ⟨rfl, -⟩ : content = "a\x7b" ∧ _ := by simpa [hScan] using hMem
    decide
  have hLoops : LoopsClosed first := by
    rw [LoopsClosed, hScan]
    decide
  have hSeam : ¬ (EndsOpening first ∧ (closer ++ loop ++ lost).toList.head? = some '{') := by
    rintro ⟨-, hHead⟩
    revert hHead
    decide
  have hTree₁ : engine.parser.parseText first =
      .ok [.loop "x" "xs" [.placeholder "x" ⟨1, 16⟩] ⟨1, 1⟩, .text "a\x7b" ⟨1, 29⟩] := by
    rw [Parser.parseText, hScan, Parser.parse_eq_run]
    rfl
  have hTree₂ : engine.parser.parseText (closer ++ loop ++ lost) =
      .ok [.text "b" ⟨1, 1⟩, .text "\x7b\x7b/for\x7d\x7d" ⟨1, 2⟩,
        .loop "y" "xs" [.placeholder "y" ⟨1, 25⟩, .text ";" ⟨1, 30⟩] ⟨1, 10⟩,
        .text lost ⟨1, 39⟩] := by
    unfold engine closer loop lost
    cbv
  have hText₁ : (engine.renderText first c).result = .ok "12a\x7b" ∧
      (engine.renderText first c).session.loops = 1 := by
    rw [engine.renderText_of_parse hTree₁]
    exact ⟨rfl, rfl⟩
  have hText₂ : (engine.renderText (closer ++ loop ++ lost) c).result =
        .ok (closer ++ "1;2;" ++ lost) ∧
      (engine.renderText (closer ++ loop ++ lost) c).session.loops = 1 := by
    rw [engine.renderText_of_parse hTree₂]
    exact ⟨rfl, rfl⟩
  have hBudget : (engine.renderText first c).session.loops +
      (engine.renderText (closer ++ loop ++ lost) c).session.loops ≤ 2 := by
    rw [hText₁.2, hText₂.2]
  obtain ⟨hText, hCount, -⟩ :=
    engine.renderText_append rfl hTags hLoops hSeam c hText₁.1 hText₂.1 hBudget
  rw [hText₁.2, hText₂.2] at hCount
  exact ⟨hText₁.1, hText₂.1, hText, hCount⟩

end Engine

end Stencil
