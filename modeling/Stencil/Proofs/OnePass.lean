import Stencil.Proofs.Stream

/-!
# Stencil — parsing in one pass

The parser calls itself for the body of every loop. This module describes the same parse as one walk
over the tokens, from left to right, with the open loops on a stack, and proves that the two agree
on every list of tokens, trees and errors alike.

* `Pass` — where the walk stands: the nodes of the innermost frame and the loops around it.
* `Pass.run` — the walk. A closing tag closes the innermost loop, if there is one; any other token
  does what it means; what is open at the end becomes one text, from the outermost open tag on.
* `parse_eq_run` — parsing is the walk, for every chain of constructs.
* `parse_eq_standard_run` — for the standard chain, with the meaning of each token spelled out.

The two are joined by `run_eq_resume`: what the walk makes of the tokens still to come is decided
by what the recursion reads at its current level. A level that is closed goes on where the closing
tag left the stream, and a level that is not has seen the end, where only the outermost open loop
counts.
-/

namespace Stencil

open Text

/-! ## The walk -/

/-- A loop whose closing tag has not come up yet. -/
structure OpenLoop where
  header   : LoopHeader
  position : Position
  /-- The tokens from the opening tag on. -/
  written  : List Token
  /-- The nodes in front of the loop, at its own level, latest first. -/
  before   : List Node

/-- Where a walk stands: the nodes of the innermost frame, latest first, and the open loops,
innermost first. -/
structure Pass where
  nodes : List Node     := []
  loops : List OpenLoop := []

namespace Pass

/-- One more node in the innermost frame. -/
def add (pass : Pass) (node : Node) : Pass := { pass with nodes := node :: pass.nodes }

/-- Several nodes more in the innermost frame. -/
def addAll (pass : Pass) (nodes : List Node) : Pass :=
  { pass with nodes := nodes.reverse ++ pass.nodes }

/-- A new frame for the body of a loop. -/
def enter (pass : Pass) (header : LoopHeader) (position : Position) (written : List Token) : Pass :=
  { nodes := [], loops := ⟨header, position, written, pass.nodes⟩ :: pass.loops }

/-- The innermost frame as the body of its loop, in the frame around it. -/
def close (pass : Pass) : Pass :=
  match pass.loops with
  | [] => pass
  | l :: ls =>
    { nodes := .loop l.header.item l.header.collection pass.nodes.reverse l.position :: l.before
      loops := ls }

/-- The tree at the end of the tokens. If loops are open, everything from the tag of the outermost
one on is one text. -/
def finish (pass : Pass) : List Node :=
  match pass.loops.getLast? with
  | none => pass.nodes.reverse
  | some l => l.before.reverse ++ [.text (sourceOf l.written) l.position]

/-- One token: a closing tag closes the innermost loop, if there is one, and any other token does
what it means where so many loops are open. -/
def step (meaning : Nat → Token → Except Error Meaning) (pass : Pass) (t : Token)
    (rest : List Token) : Except Error Pass :=
  if t.isTag loopEnd ∧ pass.loops ≠ [] then .ok pass.close
  else
    match meaning pass.loops.length t with
    | .error e => .error e
    | .ok (.node node) => .ok (pass.add node)
    | .ok (.loop header) => .ok (pass.enter header t.position (t :: rest))

/-- The walk over all tokens. -/
def run (meaning : Nat → Token → Except Error Meaning) :
    List Token → Pass → Except Error (List Node)
  | [], pass => .ok pass.finish
  | t :: ts, pass =>
    match pass.step meaning t ts with
    | .error e => .error e
    | .ok pass => run meaning ts pass

end Pass

/-- What a token means to a parser that knows all constructs and takes `limit` open loops. -/
def standardMeaning (limit : Nat) (depth : Nat) : Token → Except Error Meaning
  | .text content position => .ok (.node (.text content position))
  | .tag content _ position =>
    if loopWord.isPrefixOf content.toList then
      match LoopHeader.read? content with
      | none => .error (.grammar position (.malformedLoop content))
      | some header =>
        if limit ≤ depth then .error (.grammar position (.nestingLimit limit))
        else .ok (.loop header)
    else if includeMark.isPrefixOf content.toList then
      let name := String.ofList (trim (content.toList.drop includeMark.length))
      match TemplateName.check name with
      | .error e => .error e
      | .ok () => .ok (.node (.inclusion name position))
    else if isPath content.toList then .ok (.node (.placeholder content position))
    else .ok (.node (.text (tagSource content) position))

/-! ## Laws of the walk -/

namespace Pass

theorem addAll_cons (pass : Pass) (node : Node) (nodes : List Node) :
    pass.addAll (node :: nodes) = (pass.add node).addAll nodes := by
  simp [addAll, add]

/-- Closing a loop that was just entered puts it into the frame that it was entered from. -/
theorem close_addAll_enter (pass : Pass) (header : LoopHeader) (position : Position)
    (written : List Token) (body : List Node) :
    ((pass.enter header position written).addAll body).close =
      pass.add (.loop header.item header.collection body position) := by
  simp [enter, addAll, close, add]

/-- **Recoveries collapse.** A loop left open counts as the text of its tokens in the frame around
it, and if that frame is left open too, only the outermost one is seen. -/
theorem finish_addAll_enter (pass : Pass) (header : LoopHeader) (position : Position)
    (written : List Token) (body : List Node) :
    ((pass.enter header position written).addAll body).finish =
      (pass.add (.text (sourceOf written) position)).finish := by
  obtain ⟨nodes, loops⟩ := pass
  cases loops with
  | nil => simp [enter, addAll, add, finish]
  | cons l ls =>
    -- a loop further out is open too, and the outermost one is the same on both sides
    simp only [enter, addAll, add, finish, List.getLast?_cons_cons]
    obtain ⟨last, hLast⟩ : ∃ last, (l :: ls).getLast? = some last :=
      ⟨_, List.getLast?_eq_some_getLast (List.cons_ne_nil l ls)⟩
    rw [hLast]

/-- The tag that the recursion waits for where the walk stands. -/
def stop (pass : Pass) : Option String :=
  match pass.loops with
  | []     => none
  | _ :: _ => some loopEnd

theorem stop_any (pass : Pass) (t : Token) :
    pass.stop.any t.isTag = true ↔ t.isTag loopEnd ∧ pass.loops ≠ [] := by
  obtain ⟨nodes, loops⟩ := pass
  cases loops <;> simp [stop]

end Pass

/-! ## The recursion is the walk -/

namespace Parser

open Pass

/-- How the walk goes on from `pass` once the recursion has read a level: an error is the end of it,
a level closed by its tag is left, and a level that is not closed has seen the last token. -/
def resume (p : Parser) (pass : Pass) (r : Except Error Body × TokenStream) :
    Except Error (List Node) :=
  match r with
  | (.error e, _)            => .error e
  | (.ok ⟨nodes, true⟩, s)  => run p.meaning s.rest (pass.addAll nodes).close
  | (.ok ⟨nodes, false⟩, _) => .ok (pass.addAll nodes).finish

theorem resume_withNode (p : Parser) (pass : Pass) (node : Node)
    (r : Except Error Body × TokenStream) :
    p.resume pass (withNode node r) = p.resume (pass.add node) r := by
  obtain ⟨_ | ⟨nodes, _ | _⟩, s⟩ := r <;> simp [resume, withNode, Except.map, addAll_cons]

/-- Once the body of a loop is read, the walk goes on in the frame around it with what the loop
became: a loop node when its tag was found, and the text of its tokens when there are none left. -/
theorem resume_enter {s s₁ s₂ : TokenStream} {t : Token} {body : Body} (p : Parser) (pass : Pass)
    (header : LoopHeader) (content : String) (hNext : s.next? = some (t, s₁))
    (hOnward : s₁.enterLoop.Onward s₂) (hEnd : body.closed = false → s₂.rest = []) :
    p.resume (pass.enter header t.position s.rest) (.ok body, s₂) =
      run p.meaning s₂.rest (pass.add (loopNode header content t.position s₁ s₂ body)) := by
  obtain ⟨nodes, closed⟩ := body
  cases closed with
  | true =>
    show run p.meaning s₂.rest ((pass.enter header t.position s.rest).addAll nodes).close = _
    rw [close_addAll_enter]
    rfl
  | false =>
    have hText : unclosedText content s₁ s₂ = sourceOf s.rest :=
      unclosedText_eq content hNext hOnward.tokens (hEnd rfl)
    show Except.ok ((pass.enter header t.position s.rest).addAll nodes).finish = _
    rw [finish_addAll_enter, hEnd rfl, ← hText]
    rfl

/--
**The walk follows the recursion.** Take a stream and a walk that stand at the same place, inside
the same loops: what the walk makes of the tokens to come is what it makes of the level that the
recursion reads there.
-/
theorem run_eq_resume (p : Parser) (s : TokenStream) (pass : Pass)
    (hDepth : s.loopDepth = pass.loops.length) :
    run p.meaning s.rest pass = p.resume pass (p.parseNodes pass.stop s) := by
  refine parseNodes_induction (P := fun stop s r => ∀ pass : Pass, stop = pass.stop →
    s.loopDepth = pass.loops.length → run p.meaning s.rest pass = p.resume pass r)
    ?atEnd ?atStop ?atError ?atNode ?inBody ?atLoop pass.stop s pass rfl hDepth
  case atEnd =>
    intro stop s hNext pass hStop hDepth
    rw [(TokenStream.next?_eq_none_iff s).mp hNext]
    rfl
  case atStop =>
    -- the walk closes its innermost loop, and the recursion ends its level
    rintro _ s t s₁ hNext hTag pass rfl hDepth
    obtain ⟨hRest, -, hSame⟩ := TokenStream.next?_eq_some_iff.mp hNext
    rw [hRest, run, step, if_pos ((stop_any pass t).mp hTag)]
    rfl
  case atError =>
    rintro _ s t s₁ e hNext hTag hMeaning pass rfl hDepth
    obtain ⟨hRest, -, hSame⟩ := TokenStream.next?_eq_some_iff.mp hNext
    rw [hSame, hDepth] at hMeaning
    rw [hRest, run, step, if_neg (mt (stop_any pass t).mpr hTag), hMeaning]
    rfl
  case atNode =>
    -- the node goes to the innermost frame, and in front of the level
    rintro _ s t s₁ node hNext hTag hMeaning ih pass rfl hDepth
    obtain ⟨hRest, -, hSame⟩ := TokenStream.next?_eq_some_iff.mp hNext
    rw [hSame, hDepth] at hMeaning
    rw [hRest, run, step, if_neg (mt (stop_any pass t).mpr hTag), hMeaning, resume_withNode]
    exact ih (pass.add node) rfl (hSame.trans hDepth)
  case inBody =>
    -- the first error in a body is the first error of all
    rintro _ s t s₁ header e s₂ hNext hTag hMeaning hBody pass rfl hDepth
    obtain ⟨hRest, -, hSame⟩ := TokenStream.next?_eq_some_iff.mp hNext
    rw [hSame, hDepth] at hMeaning
    rw [hRest, run, step, if_neg (mt (stop_any pass t).mpr hTag), hMeaning]
    exact hBody (pass.enter header t.position (t :: s₁.rest)) rfl
      (congrArg (· + 1) (hSame.trans hDepth))
  case atLoop =>
    -- the walk reads the body in a frame of its own, and goes on around it with the loop node
    rintro _ s t s₁ header body s₂ hNext hTag hMeaning hParse hBody ih pass rfl hDepth
    obtain ⟨hRest, -, hSame⟩ := TokenStream.next?_eq_some_iff.mp hNext
    have hOnward := onward_parseNodes p (some loopEnd) s₁.enterLoop
    have hEnd := (ends_parseNodes p (some loopEnd) s₁.enterLoop body (by rw [hParse])).1
    rw [hParse] at hOnward hEnd
    have hEntered := hBody (pass.enter header t.position s.rest) rfl
      (congrArg (· + 1) (hSame.trans hDepth))
    have hLeft := ih (pass.add (loopNode header (openingContent t) t.position s₁ s₂ body)) rfl
      (hOnward.exitLoop.depth.trans (hSame.trans hDepth))
    rw [hSame, hDepth] at hMeaning
    calc run p.meaning s.rest pass
        = run p.meaning s₁.rest (pass.enter header t.position s.rest) := by
          rw [hRest, run, step, if_neg (mt (stop_any pass t).mpr hTag), hMeaning]
      _ = p.resume (pass.enter header t.position s.rest) (.ok body, s₂) := hEntered
      _ = run p.meaning s₂.rest
            (pass.add (loopNode header (openingContent t) t.position s₁ s₂ body)) :=
          resume_enter p pass header (openingContent t) hNext hOnward hEnd
      _ = p.resume (pass.add (loopNode header (openingContent t) t.position s₁ s₂ body))
            (p.parseNodes pass.stop s₂.exitLoop) := hLeft
      _ = _ := (resume_withNode ..).symm

/-- Parsing is one walk over the tokens, whatever constructs the parser knows. -/
theorem parse_eq_run (p : Parser) (tokens : List Token) :
    p.parse tokens = run p.meaning tokens {} := by
  have hRun : run p.meaning tokens {} = p.resume {} (p.parseNodes none (.ofTokens tokens)) :=
    run_eq_resume p (.ofTokens tokens) {} rfl
  have hEnds := ends_parseNodes p none (.ofTokens tokens)
  rw [hRun, parse]
  -- at the top nothing waits for a closing tag, so the level ends with the tokens
  rcases hRead : p.parseNodes none (.ofTokens tokens) with ⟨e | ⟨nodes, closed⟩, s⟩
  · rfl
  · rw [hRead] at hEnds
    obtain rfl : closed = false := (hEnds ⟨nodes, closed⟩ rfl).2 rfl
    simp [resume, addAll, finish, Except.map]

/-- The standard chain gives every token its standard meaning. -/
theorem meaning_standard (limit : Nat) :
    ({ maxLoopNesting := limit } : Parser).meaning = standardMeaning limit := by
  funext depth t
  cases t with
  | text content position => rfl
  | tag content raw position =>
    -- the three constructs are tried in this order
    simp only [meaning, standardMeaning, Construct.standard, List.find?_cons, Construct.claims]
    by_cases hLoop : loopWord.isPrefixOf content.toList = true
    · simp only [hLoop, if_true, openLoop]
      cases LoopHeader.read? content with
      | none => rfl
      | some header => by_cases hDeep : limit ≤ depth <;> simp [hDeep, Except.map]
    · rw [Bool.not_eq_true] at hLoop
      by_cases hInclude : includeMark.isPrefixOf content.toList = true
      · simp only [hLoop, hInclude, includeTarget, if_true]
        cases TemplateName.check (String.ofList (trim (content.toList.drop includeMark.length)))
          <;> rfl
      · rw [Bool.not_eq_true] at hInclude
        cases hPath : isPath content.toList <;> simp [hLoop, hInclude]

/--
**Parsing is one walk with a stack of open loops.** For every list of tokens and every nesting
limit, the parser with the standard chain returns what the walk returns that starts with no loop
open and gives every token its standard meaning: the same tree with the same places, or the same
error.
-/
theorem parse_eq_standard_run (limit : Nat) (tokens : List Token) :
    ({ maxLoopNesting := limit } : Parser).parse tokens =
      Pass.run (standardMeaning limit) tokens {} := by
  rw [parse_eq_run, meaning_standard]

end Parser

end Stencil
