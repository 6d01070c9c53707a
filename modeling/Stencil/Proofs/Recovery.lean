import Stencil.Proofs.Pasting
import Stencil.Proofs.Places

/-!
# Stencil — loops that are never closed

A loop that is never closed is kept as text, from its opening tag to the end of the template, and
all that was read in it is dropped. If loops are open within such a loop, they are dropped with it,
so one loop counts: the outermost of those that stay open. This module says which one that is by
counting tags, and proves that what comes before it is parsed and rendered as if it were the whole
template, and that the rest is copied to the last byte.

* `NeverClosed` — the tag at which the outermost loop opens that nothing closes; there is one
  whenever some loop is left open (`exists_neverClosed`).
* `Pass.Like` — two walks that differ in what was written at most. A walk over the start of a
  template goes the same way whatever is written after it (`fate_run_append`).
* `Pass.run_of_bottom` — a loop at the bottom of the stack that is never closed is all that is left
  of what follows it.
* `textsIn` — the texts in some trees, at any depth. As long as loops are closed, each of them is
  what a single token stands for (`TokenTexts.steps`).
* `Engine.unclosed_loop_is_verbatim` — the tree and the rendering of a template with a loop that is
  never closed.
-/

namespace Stencil

open Text

/-! ## The loop that stays open -/

/-- At `t` a loop opens outside all others, and nothing in `after` closes it. -/
structure NeverClosed (before : List Token) (t : Token) (after : List Token) : Prop where
  opens     : t.opens = true
  outermost : openAfter 0 before = 0
  remains   : ∀ front, front <+: after → openAfter 1 front ≠ 0

theorem openAfter_append (depth : Nat) (ts us : List Token) :
    openAfter depth (ts ++ us) = openAfter (openAfter depth ts) us :=
  List.foldl_append

theorem openAfter_cons (depth : Nat) (t : Token) (ts : List Token) :
    openAfter depth (t :: ts) = openAfter ((t.level? depth).getD depth) ts := rfl

/-- Where no loop is open, one is open after a tag that opens one, and none after any other. -/
theorem Token.level?_zero (t : Token) : (t.level? 0).getD 0 = if t.opens then 1 else 0 := by
  unfold level?
  by_cases hTag : t.isTag loopEnd = true
  · simp [hTag, not_opens_of_isTag hTag]
  · by_cases hOpens : t.opens = true <;> simp [hTag, hOpens]

/-- Loops are open from the start to the end, or from some tag on that opens one where there was
none. -/
theorem remains_or_neverClosed {depth : Nat} {tokens : List Token}
    (hOpen : openAfter depth tokens ≠ 0) :
    (∀ front, front <+: tokens → openAfter depth front ≠ 0) ∨
    ∃ before t after, tokens = before ++ t :: after ∧ t.opens = true ∧
      openAfter depth before = 0 ∧ ∀ front, front <+: after → openAfter 1 front ≠ 0 := by
  induction tokens generalizing depth with
  | nil =>
    refine .inl fun front hFront => ?_
    rw [List.prefix_nil.mp hFront]
    exact hOpen
  | cons t ts ih =>
    rw [openAfter_cons] at hOpen
    rcases ih hOpen with hRemains | ⟨before, u, after, rfl, hOpens, hNone, hRemains⟩
    · by_cases hZero : depth = 0
      · -- nothing is open in front of `t`, and something is from there on
        subst hZero
        rw [Token.level?_zero] at hRemains
        by_cases hOpens : t.opens = true
        · rw [if_pos hOpens] at hRemains
          exact .inr ⟨[], t, ts, rfl, hOpens, rfl, hRemains⟩
        · rw [if_neg hOpens] at hRemains
          exact absurd rfl (hRemains [] List.nil_prefix)
      · refine .inl fun front hFront => ?_
        rcases List.prefix_cons_iff.mp hFront with rfl | ⟨rest, rfl, hRest⟩
        · exact hZero
        · exact hRemains rest hRest
    · exact .inr ⟨t :: before, u, after, rfl, hOpens, hNone, hRemains⟩

/-- **If a loop is left open, there is an outermost one.** -/
theorem exists_neverClosed {tokens : List Token} (hOpen : openAfter 0 tokens ≠ 0) :
    ∃ before t after, tokens = before ++ t :: after ∧ NeverClosed before t after := by
  rcases remains_or_neverClosed hOpen with hRemains | ⟨before, t, after, rfl, hOpens, hNone, h⟩
  · exact absurd rfl (hRemains [] List.nil_prefix)
  · exact ⟨before, t, after, rfl, hOpens, hNone, h⟩

/-! ## Walks over the start of a template -/

namespace Pass

/-- The walk with what was written in its open loops forgotten. -/
def unwritten (pass : Pass) : Pass :=
  { pass with loops := pass.loops.map fun l => { l with written := [] } }

/-- The walks differ in what was written in their open loops at most. -/
def Like (pass pass' : Pass) : Prop := pass.unwritten = pass'.unwritten

variable {pass pass' : Pass} {meaning : Nat → Token → Except Error Meaning}

theorem Like.length_eq (h : pass.Like pass') : pass.loops.length = pass'.loops.length := by
  have hLoops := congrArg (fun pass => pass.loops.length) h
  simpa [unwritten] using hLoops

theorem Like.eq_of_closed (h : pass.Like pass') (hClosed : pass'.loops = []) : pass = pass' := by
  obtain ⟨nodes, loops⟩ := pass
  obtain ⟨nodes', loops'⟩ := pass'
  dsimp only at hClosed
  simp_all [Like, unwritten]

theorem Like.close (h : pass.Like pass') : pass.close.Like pass'.close := by
  obtain ⟨nodes, _ | ⟨l, ls⟩⟩ := pass <;> obtain ⟨nodes', _ | ⟨l', ls'⟩⟩ := pass' <;>
    simp_all [Like, unwritten, Pass.close]

theorem Like.does (h : pass.Like pass') (t : Token) (rest rest' : List Token) (m : Meaning) :
    (pass.does t rest m).Like (pass'.does t rest' m) := by
  cases m <;> simp_all [Like, unwritten, Pass.does, Pass.add, Pass.enter]

/-- Walks that are alike take like steps, or stop at the same token. -/
theorem Like.step (h : pass.Like pass') (t : Token) (rest rest' : List Token) :
    SameFate Pass.Like (pass.step meaning t rest) (pass'.step meaning t rest') := by
  have hLength := h.length_eq
  have hSame : pass.Closes t ↔ pass'.Closes t := by
    unfold Closes
    rw [← List.length_pos_iff, ← List.length_pos_iff, hLength]
  by_cases hClose : pass.Closes t
  · rw [step_close hClose, step_close (hSame.mp hClose)]
    exact .ok h.close
  · rw [step_stay hClose, step_stay (mt hSame.mpr hClose), hLength]
    cases meaning pass'.loops.length t with
    | error e => exact .error e e
    | ok m => exact .ok (h.does t rest rest' m)

variable (meaning) in
/-- **A walk over the start of a template** goes on from where it stands, whatever is written after
it, and if it is stopped there, so is the walk over all of the template. -/
theorem fate_run_append (h : pass.Like pass') (ts us : List Token) :
    (∃ e e', steps meaning ts pass' = .error e ∧ run meaning (ts ++ us) pass = .error e') ∨
    ∃ last last' : Pass, last.Like last' ∧ steps meaning ts pass' = .ok last' ∧
      run meaning (ts ++ us) pass = run meaning us last := by
  induction ts generalizing pass pass' with
  | nil => exact .inr ⟨pass, pass', h, rfl, rfl⟩
  | cons t ts ih =>
    have hStep : SameFate Pass.Like (pass.step meaning t (ts ++ us)) (pass'.step meaning t []) :=
      h.step t (ts ++ us) []
    rw [List.cons_append, run, steps]
    generalize pass.step meaning t (ts ++ us) = x at hStep ⊢
    generalize pass'.step meaning t [] = y at hStep ⊢
    cases hStep with
    | error e e' => exact .inl ⟨e', e, rfl, rfl⟩
    | ok hNext => exact ih hNext

/-- The loop at the bottom of the stack stays there as long as loops are open. -/
theorem getLast?_step {next : Pass} {t : Token} {rest : List Token} {l : OpenLoop}
    (hStep : pass.step meaning t rest = .ok next) (hBottom : pass.loops.getLast? = some l)
    (hOpen : next.loops ≠ []) : next.loops.getLast? = some l := by
  obtain ⟨nodes, _ | ⟨top, below⟩⟩ := pass
  · simp at hBottom
  by_cases hClose : Closes ⟨nodes, top :: below⟩ t
  · rw [step_close hClose] at hStep
    cases hStep
    -- only the innermost loop goes, and it was not the last one
    obtain ⟨b, bs, rfl⟩ : ∃ b bs, below = b :: bs := List.exists_cons_of_ne_nil hOpen
    rw [List.getLast?_cons_cons] at hBottom
    exact hBottom
  · rw [step_stay hClose] at hStep
    dsimp only at hStep hBottom
    cases hMeaning : meaning (top :: below).length t with
    | error e =>
      rw [hMeaning] at hStep
      cases hStep
    | ok m =>
      rw [hMeaning] at hStep
      cases hStep
      cases m with
      | node node => exact hBottom
      | loop header =>
        show (_ :: top :: below).getLast? = some l
        rw [List.getLast?_cons_cons, hBottom]

end Pass

namespace Parser

open Pass

variable {p : Parser}

/-- **A loop that stays open takes the rest of the template with it**, whatever loops are opened and
closed on top of it. -/
theorem run_of_bottom (hChain : p.constructs = Construct.standard) {l : OpenLoop}
    {tokens : List Token} {pass : Pass} {nodes : List Node}
    (hBottom : pass.loops.getLast? = some l)
    (hRemains : ∀ front, front <+: tokens → openAfter pass.loops.length front ≠ 0)
    (hRun : run p.meaning tokens pass = .ok nodes) :
    nodes = l.before.reverse ++ [.text (sourceOf l.written) l.position] := by
  induction tokens generalizing pass with
  | nil =>
    have hFinish : nodes = pass.finish := (Except.ok.inj hRun).symm
    rw [hFinish, finish, hBottom]
  | cons t ts ih =>
    rw [run] at hRun
    cases hStep : pass.step p.meaning t ts with
    | error e => simp [hStep] at hRun
    | ok next =>
      rw [hStep] at hRun
      have hLength := length_step hChain hStep
      have hNext : ∀ front, front <+: ts → openAfter next.loops.length front ≠ 0 := by
        intro front hFront
        rw [hLength]
        exact hRemains (t :: front) (List.cons_prefix_cons.mpr ⟨rfl, hFront⟩)
      have hOpen : next.loops ≠ [] := by
        have hSome : next.loops.length ≠ 0 := hNext [] List.nil_prefix
        rwa [Ne, List.length_eq_zero_iff] at hSome
      exact ih (getLast?_step hStep hBottom hOpen) hNext hRun

end Parser

/-! ## Texts in trees -/

mutual

def Node.textsIn : Node → List (String × Position)
  | .text content position => [(content, position)]
  | .placeholder .. => []
  | .inclusion .. => []
  | .loop _ _ body _ => textsIn body
termination_by structural node => node

/-- The texts in some trees with their places, those in loops included. -/
def textsIn : List Node → List (String × Position)
  | [] => []
  | node :: nodes => node.textsIn ++ textsIn nodes
termination_by structural nodes => nodes

end

theorem mem_textsIn {text : String × Position} {nodes : List Node} :
    text ∈ textsIn nodes ↔ ∃ node ∈ nodes, text ∈ node.textsIn := by
  induction nodes with
  | nil => simp [textsIn]
  | cons node nodes ih => simp [textsIn, ih]

namespace Parser

open Pass

variable {p : Parser} {tokens : List Token}

/-- A text of these is what one of the tokens stands for by itself. -/
def TokenText (p : Parser) (tokens : List Token) (text : String × Position) : Prop :=
  ∃ t ∈ tokens, ∃ depth, p.meaning depth t = .ok (.node (.text text.1 text.2))

/-- In all frames of the walk, each text is what one of the tokens stands for. -/
structure TokenTexts (p : Parser) (tokens : List Token) (pass : Pass) : Prop where
  nodes  : ∀ node ∈ pass.nodes, ∀ text ∈ node.textsIn, p.TokenText tokens text
  before : ∀ l ∈ pass.loops, ∀ node ∈ l.before, ∀ text ∈ node.textsIn, p.TokenText tokens text

theorem TokenTexts.does {pass : Pass} (h : p.TokenTexts tokens pass) {t : Token}
    (hMem : t ∈ tokens) {depth : Nat} {m : Meaning} (hMeaning : p.meaning depth t = .ok m)
    (rest : List Token) : p.TokenTexts tokens (pass.does t rest m) := by
  cases m with
  | loop header =>
    refine ⟨fun node hNode => (nomatch hNode), fun l hl => ?_⟩
    rcases List.mem_cons.mp hl with rfl | hl
    · exact h.nodes
    · exact h.before l hl
  | node node =>
    refine ⟨fun node' hNode' text hText => ?_, h.before⟩
    rcases List.mem_cons.mp hNode' with rfl | hNode'
    · -- the only text of the new node, if it is one
      rcases meaning_node_cases hMeaning with ⟨_, rfl⟩ | ⟨_, rfl⟩ | ⟨_, _, -, rfl⟩
      · obtain rfl := List.mem_singleton.mp hText
        exact ⟨t, hMem, depth, hMeaning⟩
      · cases hText
      · cases hText
    · exact h.nodes node' hNode' text hText

theorem TokenTexts.close {pass : Pass} (h : p.TokenTexts tokens pass) :
    p.TokenTexts tokens pass.close := by
  obtain ⟨nodes, _ | ⟨l, ls⟩⟩ := pass
  · exact h
  · refine ⟨fun node hNode text hText => ?_, fun l' hl' => h.before l' (List.mem_cons_of_mem _ hl')⟩
    rcases List.mem_cons.mp hNode with rfl | hNode
    · obtain ⟨inner, hInner, hText⟩ := mem_textsIn.mp hText
      exact h.nodes inner (List.mem_reverse.mp hInner) text hText
    · exact h.before l List.mem_cons_self node hNode text hText

/-- **No text is made of several tokens** as long as loops are closed, or the walk is not over. -/
theorem TokenTexts.steps {ts : List Token} {pass last : Pass} (h : p.TokenTexts tokens pass)
    (hAll : ts ⊆ tokens) (hSteps : Pass.steps p.meaning ts pass = .ok last) :
    p.TokenTexts tokens last := by
  induction ts generalizing pass with
  | nil =>
    cases hSteps
    exact h
  | cons t ts ih =>
    obtain ⟨hMem, hRest⟩ := List.cons_subset.mp hAll
    rw [Pass.steps] at hSteps
    by_cases hClose : pass.Closes t
    · rw [step_close hClose] at hSteps
      exact ih h.close hRest hSteps
    · rw [step_stay hClose] at hSteps
      cases hMeaning : p.meaning pass.loops.length t with
      | error e => simp [hMeaning, Except.map] at hSteps
      | ok m =>
        rw [hMeaning] at hSteps
        exact ih (h.does hMem hMeaning []) hRest hSteps

/-! ## Trees -/

/-- A start of a template that leaves no loop open can be walked over first, by itself. -/
theorem parse_append_of_steps {before : List Token} {last : Pass}
    (hSteps : Pass.steps p.meaning before {} = .ok last) (hClosed : last.loops = [])
    (rest : List Token) : p.parse (before ++ rest) = run p.meaning rest last := by
  rw [parse_eq_run]
  have hStart : ({} : Pass).Like {} := rfl
  rcases fate_run_append p.meaning hStart before rest with
    ⟨e, e', hStop, -⟩ | ⟨last', alone, hLike, hSame, hRest⟩
  · simp [hSteps] at hStop
  · obtain rfl : last = alone := Except.ok.inj (hSteps.symm.trans hSame)
    -- no loop is open, so what was written in open loops does not matter
    obtain rfl : last' = last := hLike.eq_of_closed hClosed
    exact hRest

/-- Parsing that succeeds has walked over every part that it starts with. -/
theorem exists_steps (hChain : p.constructs = Construct.standard) {before rest : List Token}
    {nodes : List Node} (hParse : p.parse (before ++ rest) = .ok nodes) :
    ∃ last, Pass.steps p.meaning before {} = .ok last ∧
      last.loops.length = openAfter 0 before := by
  have hStart : ({} : Pass).Like {} := rfl
  rw [parse_eq_run] at hParse
  rcases fate_run_append p.meaning hStart before rest with
    ⟨e, e', -, hStop⟩ | ⟨_, last, -, hSteps, -⟩
  · simp [hStop] at hParse
  · exact ⟨last, hSteps, length_steps hChain hSteps⟩

/-- From the tag of a loop that is never closed, on ground level, all is one text. -/
theorem run_of_neverClosed (hChain : p.constructs = Construct.standard) {before after : List Token}
    {t : Token} (hLoop : NeverClosed before t after) {last : Pass} (hClosed : last.loops = [])
    {nodes : List Node} (hRun : run p.meaning (t :: after) last = .ok nodes) :
    nodes = last.nodes.reverse ++ [.text (sourceOf (t :: after)) t.position] := by
  rw [run] at hRun
  cases hStep : last.step p.meaning t after with
  | error e => simp [hStep] at hRun
  | ok next =>
    rw [hStep] at hRun
    have hStay : ¬ last.Closes t := fun hClose => hClose.2 hClosed
    rw [step_stay hStay] at hStep
    cases hMeaning : p.meaning last.loops.length t with
    | error e => simp [hMeaning, Except.map] at hStep
    | ok m =>
      obtain ⟨header, rfl⟩ := (opens_of_meaning hChain hMeaning).mp hLoop.opens
      simp only [hMeaning, Except.map, Except.ok.injEq] at hStep
      subst hStep
      -- the loop that the tag opens stands at the bottom of the stack
      have hLoops : (last.does t after (.loop header)).loops =
          [⟨header, t.position, t :: after, last.nodes⟩] := by
        show _ :: last.loops = _
        rw [hClosed]
      refine run_of_bottom hChain (l := ⟨header, t.position, t :: after, last.nodes⟩) ?_ ?_ hRun
      · rw [hLoops]
        rfl
      · rw [hLoops]
        exact hLoop.remains

/-- **The tree of a template with a loop that is never closed** is the tree of what comes before
that loop, and one text. -/
theorem parse_of_neverClosed (hChain : p.constructs = Construct.standard) {before after : List Token}
    {t : Token} (hLoop : NeverClosed before t after) {nodes : List Node}
    (hParse : p.parse (before ++ t :: after) = .ok nodes) :
    ∃ front, p.parse before = .ok front ∧
      nodes = front ++ [.text (sourceOf (t :: after)) t.position] ∧
      ∀ text ∈ textsIn front, p.TokenText before text := by
  obtain ⟨last, hSteps, hLength⟩ := exists_steps hChain hParse
  have hClosed : last.loops = [] := by
    rw [← List.length_eq_zero_iff, hLength]
    exact hLoop.outermost
  rw [parse_append_of_steps hSteps hClosed] at hParse
  refine ⟨last.nodes.reverse, ?_, run_of_neverClosed hChain hLoop hClosed hParse, ?_⟩
  · have hAlone := parse_append_of_steps hSteps hClosed []
    rw [List.append_nil] at hAlone
    rw [hAlone, run, finish, hClosed]
    rfl
  · intro text hText
    have hStartTexts : p.TokenTexts before {} :=
      ⟨List.forall_mem_nil _, List.forall_mem_nil _⟩
    have hTexts := hStartTexts.steps (List.Subset.refl before) hSteps
    obtain ⟨node, hNode, hText⟩ := mem_textsIn.mp hText
    exact hTexts.nodes node (List.mem_reverse.mp hNode) text hText

end Parser

/-! ## Renders -/

theorem Outcome.andThen_text (o : Outcome) (content : String) :
    o.andThen (.done content) = { o with result := o.result.map (· ++ content) } := by
  obtain ⟨_ | text, s, requests⟩ := o <;> simp [andThen, done, Except.map]

namespace Engine

/--
**A loop that is never closed is kept to the last byte, and to itself.** Take any engine with the
standard chain, whatever its limits and its source, and any template that it can parse and that
leaves a loop open. There is an outermost loop that is never closed, and the template is the text
before its tag and the text from its tag on. The text before parses by itself; the tree of the
template is its tree and then one text node, with all that is written from the tag on, at the place
of the tag. No other text of the tree, in loops or outside, is made of more than one token. And the
template renders, in any context, as the text before does, with the text from the tag on behind it,
or to the same error.
-/
theorem unclosed_loop_is_verbatim (engine : Engine)
    (hChain : engine.parser.constructs = Construct.standard) {template : String}
    {nodes : List Node} (hParse : engine.parser.parseText template = .ok nodes)
    (hOpen : ¬ LoopsClosed template) :
    (∃ before t after, Token.scan template = before ++ t :: after ∧ NeverClosed before t after) ∧
    ∀ before t after, Token.scan template = before ++ t :: after → NeverClosed before t after →
      template = sourceOf before ++ sourceOf (t :: after) ∧
      (∃ front, engine.parser.parseText (sourceOf before) = .ok front ∧
        nodes = front ++ [.text (sourceOf (t :: after)) t.position] ∧
        ∀ text ∈ textsIn front, engine.parser.TokenText before text) ∧
      ∀ c, engine.renderText template c =
        { engine.renderText (sourceOf before) c with
          result := (engine.renderText (sourceOf before) c).result.map
            (· ++ sourceOf (t :: after)) } := by
  refine ⟨exists_neverClosed hOpen, fun before t after hScan hLoop => ?_⟩
  have hText : template = sourceOf before ++ sourceOf (t :: after) := by
    rw [← sourceOf_append, ← hScan, sourceOf_scan]
  -- the text before the tag has the tokens that it has within the template
  have hBefore : engine.parser.parseText (sourceOf before) = engine.parser.parse before := by
    rw [Parser.parseText, scan_sourceOf_of_append hScan]
  have hTokens : engine.parser.parse (before ++ t :: after) = .ok nodes := by
    rw [← hScan]
    exact hParse
  obtain ⟨front, hFront, hNodes, hTexts⟩ := Parser.parse_of_neverClosed hChain hLoop hTokens
  rw [← hBefore] at hFront
  refine ⟨hText, ⟨front, hFront, hNodes, hTexts⟩, fun c => ?_⟩
  rw [renderText_of_parse hParse, renderText_of_parse hFront, hNodes, ← Outcome.andThen_text]
  unfold Session.evaluate
  rw [engine.renderer.renderNodes_append]
  refine Outcome.andThen_congr ?_
  rw [engine.renderer.renderNodes_singleton]
  rfl

set_option maxRecDepth 20000 in
/-- The theorem at a closed loop, a loop that is never closed with a closed one in it, and a tag that
is never closed. -/
theorem unclosed_loop_is_verbatim_around_closed_one :
    let engine : Engine := .ofSource fun name => .error (.notFound name)
    let kept := "\x7b\x7bfor x in xs\x7d\x7d\x7b\x7bx\x7d\x7d\x7b\x7b/for\x7d\x7d|"
    let lost := "\x7b\x7b for y in ys \x7d\x7d\x7b\x7bfor z in zs\x7d\x7da\x7b\x7b/for\x7d\x7d\x7b\x7b"
    let c : Context := .ofBindings [("xs", .list [.string "1", .string "2"])]
    (∃ nodes, engine.parser.parseText (kept ++ lost) = .ok nodes) ∧ ¬ LoopsClosed (kept ++ lost) ∧
    (engine.renderText kept c).result = .ok "12|" ∧
    (engine.renderText (kept ++ lost) c).result = .ok ("12|" ++ lost) := by
  intro engine kept lost c
  obtain ⟨nodes, hParse⟩ : ∃ nodes, engine.parser.parseText (kept ++ lost) = .ok nodes := by
    refine ⟨[.loop "x" "xs" [.placeholder "x" ⟨1, 16⟩] ⟨1, 1⟩, .text "|" ⟨1, 29⟩,
      .text lost ⟨1, 30⟩], ?_⟩
    unfold engine kept lost
    cbv
  obtain ⟨before, t, after, hScan, hLoop, hBefore, hAfter⟩ : ∃ before t after,
      Token.scan (kept ++ lost) = before ++ t :: after ∧ NeverClosed before t after ∧
      sourceOf before = kept ∧ sourceOf (t :: after) = lost := by
    refine ⟨[.tag "for x in xs" "\x7b\x7bfor x in xs\x7d\x7d" ⟨1, 1⟩,
        .tag "x" "\x7b\x7bx\x7d\x7d" ⟨1, 16⟩, .tag "/for" "\x7b\x7b/for\x7d\x7d" ⟨1, 21⟩,
        .text "|" ⟨1, 29⟩],
      .tag "for y in ys" "\x7b\x7b for y in ys \x7d\x7d" ⟨1, 30⟩,
      [.tag "for z in zs" "\x7b\x7bfor z in zs\x7d\x7d" ⟨1, 47⟩, .text "a" ⟨1, 62⟩,
        .tag "/for" "\x7b\x7b/for\x7d\x7d" ⟨1, 63⟩, .text "\x7b\x7b" ⟨1, 71⟩],
      ?_, ⟨by decide, by decide, fun front hFront => ?_⟩, rfl, rfl⟩
    · unfold kept lost
      cbv
    · rw [← List.mem_inits] at hFront
      revert front
      decide
  have hOpen : ¬ LoopsClosed (kept ++ lost) := by
    rw [LoopsClosed, hScan, openAfter_append, hLoop.outermost, openAfter_cons, Token.level?_zero,
      hLoop.opens]
    exact hLoop.remains after List.prefix_rfl
  obtain ⟨-, hAll⟩ := engine.unclosed_loop_is_verbatim rfl hParse hOpen
  obtain ⟨-, -, hRender⟩ := hAll before t after hScan hLoop
  rw [hBefore, hAfter] at hRender
  have hKept : (engine.renderText kept c).result = .ok "12|" := by
    unfold engine kept c
    cbv
  refine ⟨⟨nodes, hParse⟩, hOpen, hKept, ?_⟩
  rw [hRender c]
  show (engine.renderText kept c).result.map (· ++ lost) = _
  rw [hKept]
  rfl

end Engine

end Stencil
